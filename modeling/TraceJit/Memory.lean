/-!
Limits of memory, and what goes wrong when something is set up.
-/

namespace TraceJit

/-- The most bytes that can be asked for at once. -/
def maxAllocation : Nat := 1 <<< 48

/-- Why something could not be set up. -/
inductive SetupError where
  /-- More memory is asked for than there can be. -/
  | noMemory
  /-- What is asked for makes no sense. -/
  | refused (message : String)
  deriving DecidableEq, Repr

def SetupError.message? : SetupError → Option String
  | .noMemory => none
  | .refused message => some message

/-- There is memory for `count` items of `itemBytes` bytes each. -/
def checkAllocation (count itemBytes : Nat) : Except SetupError Unit :=
  if maxAllocation < count * itemBytes then .error .noMemory else .ok ()

end TraceJit
