import TraceJit.Graph.WorkUnit

/-!
How building a unit can end without a finished graph.
-/

namespace TraceJit

/-- Blocks that contradict the marks they were predicted from. -/
inductive InvariantError where
  /-- A branch leads past the end of the code. -/
  | mark (ref : String) (off target : UInt32)
  /-- There are not as many blocks as marks call for. -/
  | split (ref : String) (expected actual : Nat)
  /-- A branch leads to where no block starts. -/
  | link (ref : String) (off target : UInt32)
  deriving DecidableEq, Repr

def InvariantError.message : InvariantError → String
  | .mark ref off target => astray ref "mark" off target
  | .link ref off target => astray ref "link" off target
  | .split ref expected actual =>
    ref ++ ": split: expected " ++ toString expected ++ " blocks, split " ++ toString actual
where
  /-- The wording for a branch that starts no block. -/
  astray (ref pass : String) (off target : UInt32) : String :=
    ref ++ ": " ++ pass ++ ": branch at " ++ Text.hexMarked off.toNat ++ " targets " ++
      Text.hexMarked target.toNat ++ ", which starts no block"

/-- Bytecode that cannot be walked. -/
inductive MalformedError where
  /-- A run of a trace has no instructions. -/
  | emptyRun (ref : String) (run : Nat)
  /-- A run of a trace leaves the code. -/
  | pastEnd (ref : String) (run : Nat) (off size : UInt32)
  /-- An instruction does not fit into the code. -/
  | stuck (ref : String) (op : Opcode) (off : UInt32) (cause : AdvanceError)
  /-- A method has no code. -/
  | emptyMethod (ref : String)
  deriving DecidableEq, Repr

def MalformedError.message (e : MalformedError) : String :=
  "mir: malformed bytecode: " ++
    match e with
    | .emptyRun ref run => ref ++ ": run " ++ toString run ++ " is empty"
    | .pastEnd ref run off size =>
      ref ++ ": run " ++ toString run ++ " reaches " ++ Text.hexMarked off.toNat ++
        ", code size is " ++ Text.hexMarked size.toNat
    | .stuck ref op off cause =>
      ref ++ ": " ++ op.name ++ " at " ++ Text.hexMarked off.toNat ++ ": " ++ cause.message
    | .emptyMethod ref => ref ++ ": empty method"

/-- Why a build failed. -/
inductive BuildError where
  /-- There is no trace, or it has no runs. -/
  | noRuns (ref : String)
  /-- The instruction ceiling is not positive. -/
  | badCeiling
  | malformed (e : MalformedError)
  | invariant (e : InvariantError)
  deriving DecidableEq, Repr

def BuildError.message : BuildError → String
  | .noRuns ref => "mir: " ++ ref ++ ": no trace runs"
  | .badCeiling => "mir: instruction ceiling must be positive"
  | .malformed e => e.message
  | .invariant e => e.message

/-- What stops a build. -/
inductive Stop where
  | failed (e : BuildError)
  /-- The unit was used in a way its operations do not allow. -/
  | fault
  deriving DecidableEq, Repr

/-- A build that stopped, with the unit as it was left. -/
structure Halted where
  stop : Stop
  unit : WorkUnit

/-- A step of a build. -/
abbrev Build := Except Halted WorkUnit

namespace Build

def fail (u : WorkUnit) (e : BuildError) : Build := .error ⟨.failed e, u⟩

/-- Stop at a misuse of the unit. -/
def fault (u : WorkUnit) : Build := .error ⟨.fault, u⟩

/-- The unit as the build left it, finished or not. -/
def unit : Build → WorkUnit
  | .ok u => u
  | .error h => h.unit

end Build

end TraceJit
