import TraceJit.Compiler.LookupCache
import TraceJit.Compiler.MethodFilter
import TraceJit.Compiler.Result
import TraceJit.Graph.Listing
import TraceJit.Graph.Validate
import TraceJit.Graph.Workspace

/-!
Compiling traces and methods. A trace that the backend finds too large is tried again with half
as many instructions as the attempt before compiled; a method gets one attempt. Spans are begun
and ended by hand on every path, and their numbers are handed down as parents.
-/

namespace TraceJit

/-- What a compiler has counted. -/
structure Counters where
  /-- Units made. -/
  units : Nat := 0
  traces : Nat := 0
  methods : Nat := 0
  retries : Nat := 0
  hits : Nat := 0
  failures : Nat := 0
  tooLarge : Nat := 0
  aborts : Nat := 0
  installed : Nat := 0
  deriving DecidableEq, Repr, Inhabited

/-- A compiler with its backend and the tracer that it reports to. -/
structure Compiler (σ : Type) where
  settings : Settings
  backend : Backend σ
  state : σ
  filter : Option MethodFilter
  lookup : LookupCache
  counters : Counters
  tracer : Tracer

/-- What a caller hands down with a request. -/
structure Context where
  /-- The caller no longer wants the code when a call enters the backend for the given time. -/
  canceled : Nat → Bool := fun _ => false
  /-- Number of the span that the caller stands in; zero for none. -/
  span : Nat := 0

/-- The end of a call: what the compiler and the worker's arena became, what came out, and the
message of a broken invariant for the caller to act on. -/
structure Compiled (σ : Type) where
  compiler : Compiler σ
  arena : Arena
  result : CompileResult
  error : Option CompileError
  abort : Option String := none

/-- The end of one attempt at a trace. -/
structure Attempt (σ : Type) where
  compiler : Compiler σ
  arena : Arena
  /-- Instructions that went into the unit. -/
  compiled : Int
  result : Except CompileError Fragment
  phases : List Phase

namespace Compiler

/-- A compiler, which needs usable settings and a backend. -/
def new {σ : Type} (settings : Settings) (backend : Option (Backend σ)) (state : σ)
    (tracer : Tracer) : Except String (Compiler σ) :=
  match settings.invalid?, backend with
  | some e, _ => .error e
  | none, none => .error "jit: nil backend"
  | none, some backend =>
    .ok { settings, backend, state, filter := MethodFilter.ofSettings settings.filter,
          lookup := .new settings.lookupCacheSize.toNat, counters := {}, tracer }

/-- A compiler with an empty code cache of its own. -/
def withCache (settings : Settings) (backend : Option (Backend Assembler)) (tracer : Tracer) :
    Except SetupError (Compiler Assembler) := do
  let cache ← CodeCache.new settings.codeCacheBase settings.codeCacheBytes
  let assembler := Assembler.new cache settings.maxFragmentBytes
  (new settings backend assembler tracer).mapError .refused

variable {σ : Type}

def count (c : Compiler σ) (f : Counters → Counters) : Compiler σ :=
  { c with counters := f c.counters }

/-- The fragment under a key, which counts as a use of it. -/
def find (c : Compiler σ) (key : String) : Option Fragment × Compiler σ :=
  (c.lookup.peek? key, { c with lookup := c.lookup.touch key })

/-- Begin a span inside the span with number `parent`. -/
def beginSpan (c : Compiler σ) (scope : Scope) (name : String) (parent : Nat) :
    Span × Compiler σ :=
  let (span, tracer) := c.tracer.beginSpan scope name parent
  (span, { c with tracer })

def endSpan (c : Compiler σ) (span : Span) (detail : String) : Compiler σ :=
  { c with tracer := c.tracer.endSpan span detail }

/-- A new unit for a method, numbered and with its flags set, that reports inside the span with
number `span`. -/
def newUnit (c : Compiler σ) (m : Method) (span : Nat) : Except UnitError (WorkUnit × Compiler σ) :=
  (WorkUnit.new m).map fun u =>
    let c := c.count fun n => { n with units := n.units + 1 }
    let u :=
      { u with
        id := c.counters.units.toUInt64, print := c.settings.print, tracer := c.tracer, span }
    (match c.filter with
      | some f => f.apply u
      | none => u, c)

/-- A build followed by the check of its result. -/
def checked (b : Build) : Except CompileError WorkUnit :=
  match b with
  | .error h => .error (.build h.stop)
  | .ok u =>
    match u.invalid? with
    | some m => .error (.invalid m)
    | none => .ok u

/-- One attempt at a trace on a fresh unit, in a span of its own. The arena is reset whatever
comes out. -/
def attemptTrace (c : Compiler σ) (arena : Arena) (canceled : Bool) (t : Trace) (ceiling : Int)
    (parent : Nat) : Attempt σ :=
  let (span, c) := c.beginSpan .attempt "attempt" parent
  let span := span.noted "ceiling" (toString ceiling)
  match c.newUnit t.method span.id with
  | .error e =>
    { compiler := c.endSpan span e.message, arena := arena.reset, compiled := 0,
      result := .error (.unit e), phases := [] }
  | .ok (u, c) =>
    let build := { u with trace := some t }.buildTrace ceiling
    let left := build.unit
    let phases : List Phase := [⟨"build", "ceiling " ++ toString ceiling⟩]
    let arena := (arena.charge left.footprint).reset
    match checked build with
    | .error e =>
      { compiler := { c with tracer := left.tracer }.endSpan span e.message, arena,
        compiled := left.numInsts, result := .error e, phases }
    | .ok u =>
      let u := u.dump
      let reply := c.backend c.state canceled u
      let phases := phases ++ [⟨"backend", ""⟩]
      let u := { u with tracer := reply.tracer }
      match reply.result with
      | .error e =>
        let e := CompileError.backend e
        let u := u.sayEnd e.isTooLarge
        { compiler := { c with state := reply.state, tracer := u.tracer }.endSpan span e.message,
          arena, compiled := u.numInsts, result := .error e, phases }
      | .ok f =>
        let u := u.sayEnd false
        let span := span.noted "insns" (toString u.numInsts)
        { compiler := { c with state := reply.state, tracer := u.tracer }.endSpan span "",
          arena, compiled := u.numInsts, result := .ok f, phases }

/-- The end of a failed call, whose span ends before a broken invariant is reported. -/
def failed (c : Compiler σ) (arena : Arena) (result : CompileResult) (e : CompileError)
    (detail : String) (span : Span) : Compiled σ :=
  let c := (c.count fun n => { n with failures := n.failures + 1 }).endSpan span detail
  if e.isInvariant then
    let c := c.count fun n => { n with aborts := n.aborts + 1 }
    { compiler := { c with tracer := c.tracer.fatal "abort" e.message }
      arena, result, error := some e, abort := some e.message }
  else { compiler := c, arena, result, error := some e }

/-- The end of a successful call, whose fragment is remembered. -/
def succeeded (c : Compiler σ) (arena : Arena) (result : CompileResult) (span : Span) :
    Compiled σ :=
  let c := { c with lookup := c.lookup.insert result.key result.fragment }
  let c := c.count fun n => { n with installed := n.installed + 1 }
  { compiler := c.endSpan span "", arena, result, error := none }

/-- Attempts at a trace from `ceiling` on, in the span `span`. Each ceiling is at most half of the
one before, so the first ceiling bounds the number of attempts. -/
def attempts (canceled : Nat → Bool) (t : Trace) (span : Span) :
    Nat → Compiler σ → Arena → Int → CompileResult → Compiled σ
  | 0, c, arena, _, result => c.failed arena result (.traceTooLarge result.key) "too large" span
  | fuel + 1, c, arena, ceiling, result =>
    if ceiling ≤ 0 then c.failed arena result (.traceTooLarge result.key) "too large" span
    else
      let a := c.attemptTrace arena (canceled result.ceilings.length) t ceiling span.id
      let result :=
        { result with
          ceilings := result.ceilings ++ [ceiling], phases := result.phases ++ a.phases }
      match a.result with
      | .ok f =>
        a.compiler.succeeded a.arena { result with fragment := f, insts := a.compiled }
          (span.noted "attempts" (toString result.ceilings.length))
      | .error e =>
        if e.isTooLarge then
          attempts canceled t span fuel
            (a.compiler.count fun n =>
              { n with tooLarge := n.tooLarge + 1, retries := n.retries + 1 })
            a.arena (Int.tdiv a.compiled 2) result
        else a.compiler.failed a.arena result e e.message span

/-- The end of a call whose fragment was found under its key. -/
def served (c : Compiler σ) (arena : Arena) (result : CompileResult) (f : Fragment) : Compiled σ :=
  { compiler := c.count fun n => { n with hits := n.hits + 1 }
    arena, error := none
    result := { result with fragment := f, insts := f.insts, cached := true } }

def compileTrace (c : Compiler σ) (arena : Arena) (ctx : Context) (t : Trace) : Compiled σ :=
  let result : CompileResult := { key := t.key, method := t.method.ref, mode := "trace" }
  match c.find result.key with
  | (some f, c) => c.served arena result f
  | (none, c) =>
    let c := c.count fun n => { n with traces := n.traces + 1 }
    let (span, c) := c.beginSpan .driver "trace" ctx.span
    let ceiling := c.settings.maxTraceInsns
    attempts ctx.canceled t span (ceiling.toNat + 1) c arena ceiling result

def compileMethod (c : Compiler σ) (arena : Arena) (ctx : Context) (m : Method) : Compiled σ :=
  let result : CompileResult := { key := "method:" ++ m.ref, method := m.ref, mode := "method" }
  match c.find result.key with
  | (some f, c) => c.served arena result f
  | (none, c) =>
    let c := c.count fun n => { n with methods := n.methods + 1 }
    let (span, c) := c.beginSpan .driver "method" ctx.span
    match c.newUnit m span.id with
    | .error e => c.failed arena.reset result (.unit e) e.message span
    | .ok (u, c) =>
      let build := u.buildMethod
      let left := build.unit
      let arena := (arena.charge left.footprint).reset
      let result := { result with phases := [⟨"build", ""⟩] }
      match checked build with
      | .error e => { c with tracer := left.tracer }.failed arena result e e.message span
      | .ok u =>
        let u := u.dump
        let reply := c.backend c.state (ctx.canceled 0) u
        let c := { c with state := reply.state, tracer := reply.tracer }
        let result := { result with phases := result.phases ++ [⟨"backend", ""⟩] }
        match reply.result with
        | .error e => c.failed arena result (.backend e) e.message span
        | .ok f => c.succeeded arena { result with fragment := f, insts := u.numInsts } span

end Compiler

end TraceJit
