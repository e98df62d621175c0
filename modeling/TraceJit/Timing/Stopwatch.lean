import TraceJit.Timing.Report

/-!
A stopwatch that times the parts of a job. It has no clock of its own: whoever begins or ends a
part tells the time.
-/

namespace TraceJit

/-- A part that has begun. It has taken no time until it ends. -/
structure Lap where
  name : String
  /-- Nanoseconds on the caller's clock. -/
  start : Int
  length : Int := 0
  note : String := ""
  deriving DecidableEq, Repr, Inhabited

/-- The parts of a job in the order they began. -/
structure Stopwatch where
  laps : List Lap := []
  deriving DecidableEq, Repr, Inhabited

namespace Stopwatch

/-- Begin a part. Its number is the number of parts before it. -/
def begin (w : Stopwatch) (now : Int) (name : String) : Nat × Stopwatch :=
  (w.laps.length, { w with laps := w.laps ++ [{ name, start := now }] })

/-- End the part with a number; a number that no part has changes nothing. -/
def finish (w : Stopwatch) (now index : Int) (note : String) : Stopwatch :=
  if index < 0 then w
  else { w with
    laps := w.laps.modify index.toNat fun l => { l with length := now - l.start, note } }

def report (w : Stopwatch) : TimingReport :=
  { total := .ofNanos ((w.laps.map (·.length)).foldr (· + ·) 0)
    phases := w.laps.map fun l => { name := l.name, millis := .ofNanos l.length, note := l.note } }

end Stopwatch

end TraceJit
