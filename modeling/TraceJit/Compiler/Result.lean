import TraceJit.Codegen.Backend
import TraceJit.Graph.BuildError

/-!
What a compilation gives back, and how it can fail.
-/

namespace TraceJit

/-- A timed part of a compilation. -/
structure Phase where
  name : String
  note : String
  deriving DecidableEq, Repr, Inhabited

/-- What is known after a compilation, successful or not. -/
structure CompileResult where
  key : String := ""
  method : String := ""
  mode : String := ""
  fragment : Fragment := .none
  insts : Int := 0
  /-- The instruction ceiling of every attempt at a trace. -/
  ceilings : List Int := []
  /-- The fragment was found under its key. -/
  cached : Bool := false
  phases : List Phase := []
  deriving DecidableEq, Repr, Inhabited

def CompileResult.attempts (r : CompileResult) : Nat :=
  if r.mode = "method" && !r.cached then 1 else r.ceilings.length

/-- Why a compilation failed. -/
inductive CompileError where
  /-- There is no trace of a known method. -/
  | noTrace
  | noMethod
  | unit (e : UnitError)
  | build (stop : Stop)
  /-- The finished unit breaks the rules in `message`. -/
  | invalid (message : String)
  | backend (e : BackendError)
  /-- No ceiling was small enough for the backend. -/
  | traceTooLarge (key : String)
  deriving DecidableEq, Repr

namespace CompileError

def message : CompileError → String
  | .noTrace => "jit: nil trace"
  | .noMethod => "jit: nil method"
  | .unit e => e.message
  | .build (.failed e) => e.message
  | .build .fault => "mir: unit misused"
  | .invalid m => "mir: internal consistency violation: " ++ m
  | .backend e => e.message
  | .traceTooLarge key => "jit: trace does not fit at any length: " ++ key

/-- The failure shows a defect of the compiler itself. -/
def isInvariant : CompileError → Bool
  | .build (.failed (.invariant _)) => true
  | .invalid _ => true
  | _ => false

/-- The failure only asks for fewer instructions. -/
def isTooLarge : CompileError → Bool
  | .backend (.tooLarge _ _) => true
  | _ => false

end CompileError

end TraceJit
