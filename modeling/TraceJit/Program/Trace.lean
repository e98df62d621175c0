import TraceJit.Program.Method

/-!
Recorded hot paths. A trace is an ordered list of runs through one method, and its key names the
method and every run.
-/

namespace TraceJit

/-- A contiguous stretch of a trace. -/
structure Run where
  /-- Offset of the first instruction. -/
  start : UInt32
  /-- Number of instructions. -/
  count : UInt32
  /-- The trace ends after this run. -/
  ends : Bool
  deriving DecidableEq, Repr, Inhabited

/-- A run as part of a key: its start, its count and a mark where the trace ends. -/
def Run.key (r : Run) : String :=
  "@" ++ Text.hex r.start.toNat ++ "+" ++ toString r.count.toNat ++ (if r.ends then "!" else "")

/-- The key of runs through the method with reference `ref`. -/
def runsKey (ref : String) (runs : List Run) : String :=
  ref ++ String.join (runs.map Run.key)

/-- A hot path through one method. -/
structure Trace where
  name : String
  method : Method
  runs : List Run
  deriving Inhabited

namespace Trace

/-- Identifies the trace for the lookup of its compiled code. -/
def key (t : Trace) : String :=
  runsKey t.method.ref t.runs

def numInsts (t : Trace) : Nat :=
  (t.runs.map (·.count.toNat)).foldr (· + ·) 0

/-- A trace of one run, named for its method and start. -/
def single (m : Method) (start count : UInt32) : Trace :=
  { name := m.ref ++ "@" ++ Text.hex start.toNat, method := m, runs := [⟨start, count, true⟩] }

end Trace

end TraceJit
