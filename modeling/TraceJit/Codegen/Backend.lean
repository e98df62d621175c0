import TraceJit.Codegen.CodeCache
import TraceJit.Codegen.Lowering
import TraceJit.Events.Tracer

/-!
Turning finished units into installed code. A backend is any way of doing that with a state of
its own; the one of this library lowers a unit and installs the words behind a header.
-/

namespace TraceJit

structure Fragment where
  base : UInt64
  headerSize : UInt32
  /-- Bytes, the header included. -/
  size : UInt32
  insts : Int
  cells : List Cell
  deriving DecidableEq, Repr

namespace Fragment

def none : Fragment := { base := 0, headerSize := 0, size := 0, insts := 0, cells := [] }

instance : Inhabited Fragment := ⟨none⟩

def entry (f : Fragment) : UInt64 := f.base + f.headerSize.toUInt64

end Fragment

/-- Why a backend gave no code. -/
inductive BackendError where
  /-- The code exceeds the budget of one fragment. -/
  | tooLarge (size limit : Nat)
  /-- The size has no 32 bit form. -/
  | outOfRange
  | cacheFull (e : CacheFull)
  | lower (e : LowerError)
  /-- The caller no longer wants the code. -/
  | canceled
  deriving DecidableEq, Repr

def BackendError.message : BackendError → String
  | .tooLarge size limit =>
    "backend: translation exceeds size budget: " ++ toString size ++ " bytes, limit " ++
      toString limit
  | .outOfRange => "out of range"
  | .cacheFull e => e.message
  | .lower e => e.message
  | .canceled => "context canceled"

/-- What a backend gives back for a unit: also what became of its own state and of the tracer of
the unit. -/
structure BackendReply (σ : Type) where
  result : Except BackendError Fragment
  state : σ
  tracer : Tracer

/-- A way to compile units. The flag says that the caller no longer wants the code. -/
abbrev Backend (σ : Type) := σ → Bool → WorkUnit → BackendReply σ

/-- Bytes in front of the entry point of a fragment. -/
def headerBytes : Nat := 8

/-- The bytes of a word, low byte first. -/
def wordBytes (w : UInt32) : List UInt8 :=
  [w.toUInt8, (w >>> 8).toUInt8, (w >>> 16).toUInt8, (w >>> 24).toUInt8]

/-- The code cache with the budget of one fragment. -/
structure Assembler where
  cache : CodeCache
  maxBytes : Nat
  deriving Inhabited

namespace Assembler

/-- Budget of a fragment when none is given. -/
def defaultMaxBytes : Nat := 4096

/-- An assembler into `cache`; a budget that is not positive selects the default. -/
def new (cache : CodeCache) (maxBytes : Int) : Assembler :=
  { cache, maxBytes := if maxBytes ≤ 0 then defaultMaxBytes else maxBytes.toNat }

/-- The bytes of a lowered unit: word count, instruction count, words. -/
def encode (p : Lowered) : List UInt8 :=
  wordBytes p.words.size.toUInt32 ++ wordBytes (p.insts % UInt32.size).toNat.toUInt32 ++
    p.words.toList.flatMap wordBytes

def assemble (a : Assembler) (p : Lowered) : Except BackendError (Fragment × Assembler) :=
  let size := headerBytes + 4 * p.words.size
  if a.maxBytes < size then .error (.tooLarge size a.maxBytes)
  else if UInt32.size ≤ size then .error .outOfRange
  else
    match a.cache.install (encode p) with
    | .error e => .error (.cacheFull e)
    | .ok (base, cache) =>
      .ok ({ base, headerSize := headerBytes.toUInt32, size := size.toUInt32, insts := p.insts,
             cells := p.cells }, { a with cache })

/-- Lower and assemble a unit, each in a span of its own. -/
def compile : Backend Assembler := fun a canceled u =>
  if canceled then { result := .error .canceled, state := a, tracer := u.tracer }
  else
    let (lowering, t) := u.tracer.beginSpan .pass "lower" u.span
    let lowered := u.lower
    let t := t.endSpan lowering ""
    match lowered with
    | .error e => { result := .error (.lower e), state := a, tracer := t }
    | .ok p =>
      let (assembling, t) := t.beginSpan .pass "assemble" u.span
      match a.assemble p with
      | .error e => { result := .error e, state := a, tracer := t.endSpan assembling e.message }
      | .ok (f, a) =>
        { result := .ok f, state := a
          tracer := t.endSpan (assembling.noted "bytes" (toString f.size.toNat)) "" }

end Assembler

end TraceJit
