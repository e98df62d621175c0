/-!
The offsets at which the blocks of a method begin. The end of the code can be marked like any
other offset, but no block begins there.
-/

namespace TraceJit

/-- Marked offsets of a method, ascending and without repetition. -/
structure StartSet where
  /-- Length of the code, the last offset that can be marked. -/
  limit : UInt32
  offsets : List UInt32
  deriving DecidableEq, Repr, Inhabited

/-- `x` in its place in an ascending list, once. -/
def insertAscending (x : UInt32) : List UInt32 → List UInt32
  | [] => [x]
  | y :: ys =>
    if x < y then x :: y :: ys
    else if x = y then y :: ys
    else y :: insertAscending x ys

namespace StartSet

/-- The marks of a method of `limit` code units, of which offset zero is set. -/
def new (limit : UInt32) : StartSet := ⟨limit, [0]⟩

def accepts (s : StartSet) (off : UInt32) : Bool := off ≤ s.limit

/-- Mark `off`. An offset past the end of the code is left out. -/
def mark (s : StartSet) (off : UInt32) : StartSet :=
  if s.accepts off then { s with offsets := insertAscending off s.offsets } else s

def isStart (s : StartSet) (off : UInt32) : Bool := s.offsets.contains off

/-- Number of marks, that of the end included. -/
def count (s : StartSet) : Nat := s.offsets.length

/-- The end of the code is marked. -/
def endMarked (s : StartSet) : Bool := s.isStart s.limit

/-- Number of blocks that the marks call for. -/
def expectedBlocks (s : StartSet) : Nat :=
  if s.endMarked then s.count - 1 else s.count

end StartSet

end TraceJit
