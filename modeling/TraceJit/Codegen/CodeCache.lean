import TraceJit.Memory
import TraceJit.Text.Hex

/-!
The memory that holds compiled code. Space is handed out from the bottom up and given back only
all at once, when the memory that was handed out is cleared.
-/

namespace TraceJit

/-- Executable memory at a base address. -/
structure CodeCache where
  base : UInt64
  /-- Size of the memory in bytes. -/
  capacity : Nat
  /-- The memory up to the highest byte that was ever written. All bytes above are zero. -/
  memory : Array UInt8
  /-- Bytes handed out, from the bottom. -/
  used : Nat
  /-- Pieces of code installed since the last reset. -/
  count : Nat
  deriving Inhabited

/-- There is no room for a piece of code. -/
structure CacheFull where
  need : Nat
  used : Nat
  capacity : Nat
  deriving DecidableEq, Repr

def CacheFull.message (e : CacheFull) : String :=
  "backend: code cache full: need " ++ toString e.need ++ " bytes, " ++ toString e.used ++ " of " ++
    toString e.capacity ++ " used"

/-- A read that cannot be answered. -/
inductive CacheReadError where
  /-- The range does not lie in installed code. -/
  | outside (addr : UInt64) (n : Int)
  /-- The length is no length. -/
  | fault
  deriving DecidableEq, Repr

/-- The wording of a read that cannot be answered, where it has one. -/
def CacheReadError.message? : CacheReadError → Option String
  | .outside addr n =>
    some ("backend: " ++ Text.hexMarked addr.toNat ++ "+" ++ toString n ++
      " outside installed code")
  | .fault => none

/-- `n` rounded up to whole words. -/
def wordAligned (n : Nat) : Nat := (n + 3) / 4 * 4

namespace CodeCache

def defaultCapacity : Nat := 1 <<< 20

def empty (base : UInt64) (capacity : Nat) : CodeCache :=
  { base, capacity, memory := #[], used := 0, count := 0 }

/-- An empty cache; a size that is not positive selects the default. -/
def new (base : UInt64) (size : Int) : Except SetupError CodeCache := do
  let capacity := if size ≤ 0 then defaultCapacity else size.toNat
  checkAllocation capacity 1
  return .empty base capacity

def byteAt (c : CodeCache) (i : Nat) : UInt8 := c.memory.getD i 0

def putByte (memory : Array UInt8) (i : Nat) (b : UInt8) : Array UInt8 :=
  if i < memory.size then memory.setIfInBounds i b
  else (memory ++ Array.replicate (i - memory.size) 0).push b

def putBytes (memory : Array UInt8) (off : Nat) : List UInt8 → Array UInt8
  | [] => memory
  | b :: rest => putBytes (putByte memory off b) (off + 1) rest

/-- Copy code into the cache and give its address. Space is taken in whole words; what the code
does not fill is left as it is. -/
def install (c : CodeCache) (code : List UInt8) : Except CacheFull (UInt64 × CodeCache) :=
  let n := wordAligned code.length
  if c.capacity < c.used + n then .error ⟨n, c.used, c.capacity⟩
  else
    .ok (c.base + c.used.toUInt64,
      { c with
        memory := putBytes c.memory c.used code
        used := c.used + n
        count := c.count + 1 })

/-- The `n` bytes at `addr`. The sum of offset and length is taken as a signed 64 bit word. -/
def read (c : CodeCache) (addr : UInt64) (n : Int) : Except CacheReadError (List UInt8) :=
  if addr < c.base then .error (.outside addr n)
  else
    let off := (addr - c.base).toNat
    if c.used < off || (c.used : Int) < Int.bmod (off + n) UInt64.size then .error (.outside addr n)
    else if n < 0 || (c.used : Int) < off + n then .error .fault
    else .ok ((List.range n.toNat).map fun i => c.byteAt (off + i))

/-- Discard all code. What was handed out is cleared. -/
def reset (c : CodeCache) : CodeCache :=
  { c with memory := putBytes c.memory 0 (List.replicate c.used 0), used := 0, count := 0 }

end CodeCache

end TraceJit
