import TraceJit.Events.Event
import TraceJit.Memory

/-!
A ring that keeps the latest reports, so that they can be shown after a fatal one. The report
stored as number `n` stands in slot `n` modulo the capacity.
-/

namespace TraceJit

/-- The latest reports. -/
structure Ring where
  level : Level
  capacity : Nat
  /-- The slots that were filled so far. -/
  slots : Array Event
  /-- Reports ever stored. -/
  total : Nat
  deriving Inhabited

namespace Ring

def defaultCapacity : Nat := 4096

def slotBytes : Nat := 104

def empty (capacity : Nat) (level : Level) : Ring := { level, capacity, slots := #[], total := 0 }

/-- An empty ring; a capacity that is not positive selects the default. -/
def new (capacity : Int) (level : Level) : Except SetupError Ring := do
  let n := if capacity ≤ 0 then defaultCapacity else capacity.toNat
  checkAllocation n slotBytes
  return .empty n level

/-- Store a report, in place of the oldest one where every slot is filled. -/
def push (r : Ring) (e : Event) : Ring :=
  { r with
    slots :=
      if r.slots.size < r.capacity then r.slots.push e
      else r.slots.setIfInBounds (r.total % r.capacity) e
    total := r.total + 1 }

/-- Number of reports that were overwritten. -/
def dropped (r : Ring) : Nat := r.total - r.capacity

/-- The reports still held, oldest first. -/
def snapshot (r : Ring) : List Event :=
  (List.range' r.dropped (r.total - r.dropped)).map fun i =>
    r.slots.getD (i % r.capacity) default

/-- The reports still held as text. Readers are told of overwritten ones first. -/
def dump (r : Ring) (format : EventFormat) : String :=
  (if 0 < r.dropped && format != .ndjson then
    "... " ++ toString r.dropped ++ " earlier events dropped\n" else "") ++
    String.join (r.snapshot.map (·.render format))

/-- Let the end reports of span `span` show `extra`, if they show notes at all. -/
def annotate (r : Ring) (span : Nat) (extra : List (String × String)) : Ring :=
  { r with slots := r.slots.map fun e =>
      if e.shared && e.span = span && !e.extra.isEmpty then { e with extra } else e }

end Ring

end TraceJit
