import TraceJit.Timing.Binary64

/-!
How long the parts of a job took, and a table of it.
-/

namespace TraceJit

/-- The time that a part of a job took. Parts of one name may repeat. -/
structure TimedPhase where
  name : String
  /-- Milliseconds. -/
  millis : Binary64 := .zero
  note : String := ""
  deriving DecidableEq, Repr, Inhabited

/-- The parts of a job in the order they began, and the time they took together. -/
structure TimingReport where
  total : Binary64 := .zero
  phases : List TimedPhase := []
  deriving DecidableEq, Repr, Inhabited

namespace TimingReport

/-- Add the time of `p` to the phase of its name, which comes last if it is new. Notes are left
out. -/
def addByName (sums : List TimedPhase) (p : TimedPhase) : List TimedPhase :=
  if sums.any (·.name == p.name) then
    sums.map fun s => if s.name == p.name then { s with millis := s.millis + p.millis } else s
  else sums ++ [{ name := p.name, millis := .zero + p.millis }]

/-- The time of all phases of one name together, in the order in which the names come first. -/
def byName (r : TimingReport) : List TimedPhase :=
  r.phases.foldl addByName []

/-- The phases of both reports, and the time of both. -/
def merge (r other : TimingReport) : TimingReport :=
  { total := r.total + other.total, phases := r.phases ++ other.phases }

/-- A line of the table: name, milliseconds with two places, and a note if there is one. -/
def line (p : TimedPhase) : String :=
  "  " ++ Text.padRight 20 p.name ++ " " ++ Text.padLeft ' ' 7 (p.millis.fixedText 2) ++ " ms" ++
    (if p.note = "" then "" else "  // " ++ p.note) ++ "\n"

def summary (r : TimingReport) : String :=
  "timings:\n" ++ String.join (r.phases.map line) ++ line { name := "total", millis := r.total }

end TimingReport

end TraceJit
