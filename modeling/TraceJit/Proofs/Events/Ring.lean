import Mathlib.Data.List.DropRight
import TraceJit.Events.Tracer

/-!
A ring shows the latest reports. Whatever else the tracer hands them to, the reports that pass at
the level of the ring are numbered and stored one after the other, and the ring shows as many of
them as it has slots for, those at the end, in the order in which they came.
-/

namespace TraceJit

/-- A report without its number, which it only gets when it is stored. -/
def Event.unnumbered (e : Event) : Event := { e with seq := 0 }

/-- A forced event passes unless there is no tracing at all. -/
theorem Event.passes_iff_of_forced {e : Event} (hForced : e.forced = true) (l : Level) :
    e.passes l = true ↔ l ≠ .off := by
  simp [Event.passes, Level.enabled, hForced]

namespace Ring

/-! ### Slots -/

/-- The ring has stored `events`. Those that were not overwritten stand in the slots of their
numbers. -/
structure Stored (r : Ring) (events : List Event) : Prop where
  total : r.total = events.length
  size : r.slots.size = min r.capacity events.length
  slot : ∀ i < events.length, events.length ≤ i + r.capacity →
    r.slots[i % r.capacity]? = events[i]?

section Slots

variable {r : Ring} {events : List Event}

theorem stored_empty (capacity : Nat) (level : Level) : (Ring.empty capacity level).Stored [] where
  total := rfl
  size := by simp [Ring.empty]
  slot := by simp

/-- Two reports have different slots if fewer reports than a whole turn lie between them. -/
theorem mod_ne_of_near {i n capacity : Nat} (hLess : i < n) (hNear : n < i + capacity) :
    i % capacity ≠ n % capacity := by
  intro hEq
  have hDvd : capacity ∣ n - i := Nat.dvd_of_mod_eq_zero (Nat.sub_mod_eq_zero_of_mod_eq hEq.symm)
  have hTurn := Nat.le_of_dvd (by omega) hDvd
  omega

/-- A report goes to the slot of its number, be that the next free one or one that is in use. -/
theorem Stored.getElem?_push (h : r.Stored events) (hRoom : 0 < r.capacity) (e : Event) (j : Nat) :
    (r.push e).slots[j]? = if j = r.total % r.capacity then some e else r.slots[j]? := by
  have hSize := h.size
  have hTotal := h.total
  rw [Ring.push]
  dsimp only
  split
  next hFree =>
      have hSlot : r.total % r.capacity = r.slots.size := by
        rw [Nat.mod_eq_of_lt] <;> omega
      rw [Array.getElem?_push, hSlot]
  next hFull =>
      have hSlot : r.total % r.capacity < r.slots.size := by
        have hBelow := Nat.mod_lt r.total hRoom
        omega
      rw [Array.getElem?_setIfInBounds, if_pos hSlot]
      simp only [eq_comm]

/-- A ring fills up to its capacity. -/
theorem Stored.size_push (h : r.Stored events) (e : Event) :
    (r.push e).slots.size = min r.capacity (events.length + 1) := by
  have hSize := h.size
  rw [Ring.push]
  dsimp only
  split
  next hFree => rw [Array.size_push]; omega
  next hFull => rw [Array.size_setIfInBounds]; omega

/-- One more report takes a place that no report still to be shown stands in. -/
theorem Stored.push (h : r.Stored events) (hRoom : 0 < r.capacity) (e : Event) :
    (r.push e).Stored (events ++ [e]) where
  total := by
    rw [List.length_append, List.length_singleton, ← h.total]
    rfl
  size := by
    rw [h.size_push, List.length_append, List.length_singleton]
    rfl
  slot i hi hNear := by
    rw [List.length_append, List.length_singleton] at hi hNear
    have hCapacity : (r.push e).capacity = r.capacity := rfl
    rw [hCapacity] at hNear ⊢
    rw [h.getElem?_push hRoom, h.total]
    by_cases hLast : i = events.length
    · rw [if_pos (by rw [hLast]), hLast, List.getElem?_concat_length]
    · have hLess : i < events.length := by omega
      rw [if_neg (mod_ne_of_near hLess (by omega)), h.slot i hLess (by omega),
        List.getElem?_append_left hLess]

/-- All reports are shown that were not overwritten. -/
theorem Stored.snapshot_eq (h : r.Stored events) :
    r.snapshot = events.drop (events.length - r.capacity) := by
  have hDropped : r.dropped = events.length - r.capacity := by rw [dropped, h.total]
  rw [snapshot, hDropped, h.total]
  refine List.ext_getElem (by simp) fun j hj hj' => ?_
  rw [List.length_drop] at hj'
  have hSlot := h.slot (events.length - r.capacity + j) (by omega) (by omega)
  rw [List.getElem?_eq_getElem (by omega)] at hSlot
  rw [List.getElem_map, List.getElem_range', Nat.one_mul, Array.getD_eq_getD_getElem?, hSlot,
    Option.getD_some, List.getElem_drop]

end Slots

/-! ### Text -/

/-- What readers are told of reports that were overwritten. -/
def note (r : Ring) : String := "... " ++ toString r.dropped ++ " earlier events dropped\n"

/-- The text of a ring: a note on what is lost, then what is left. -/
theorem dump_text (r : Ring) :
    r.dump .text =
      (if 0 < r.dropped then r.note else "") ++ String.join (r.snapshot.map (·.text)) := by
  simp [dump, note, Event.render]

/-- No line of a report begins in the way that the note does. -/
theorem note_prefix_dump_iff (r : Ring) :
    r.note.toList <+: (r.dump .text).toList ↔ 0 < r.dropped := by
  rw [dump_text, String.toList_append]
  constructor
  · intro hPrefix
    by_contra hNone
    rw [if_neg hNone, String.toList_empty, List.nil_append] at hPrefix
    cases hShown : r.snapshot with
    | nil => simp [hShown, note, String.join] at hPrefix
    | cons e rest => simp [hShown, note, String.toList_join, Event.text] at hPrefix
  · intro hSome
    rw [if_pos hSome]
    exact List.prefix_append _ _

/-! ### The latest reports -/

/-- Of the reports that passed, the ring shows the latest in their order, as many as it has room
for, under rising numbers. It counts the others, and as text it lists those that it shows behind a
note of the others, if there are any. -/
structure ShowsLatest (r : Ring) (capacity : Nat) (passed : List Event) : Prop where
  snapshot : r.snapshot.map (·.unnumbered) =
    (passed.map (·.unnumbered)).rtake (min capacity passed.length)
  rising : (r.snapshot.map (·.seq)).Pairwise (· < ·)
  dropped : r.dropped = passed.length - min capacity passed.length
  noted : r.note.toList <+: (r.dump .text).toList ↔ 0 < r.dropped
  dump : r.dump .text =
    (if 0 < r.dropped then r.note else "") ++ String.join (r.snapshot.map (·.text))

/-- The ring has stored the reports that passed under rising numbers, none of them above `seq`. -/
structure Recorded (r : Ring) (capacity : Nat) (level : Level) (passed : List Event) (seq : Nat) :
    Prop where
  capacity_eq : r.capacity = capacity
  level_eq : r.level = level
  stored : ∃ events, r.Stored events ∧
    events.map (·.unnumbered) = passed.map (·.unnumbered) ∧
    (events.map (·.seq)).Pairwise (· < ·) ∧ ∀ e ∈ events, e.seq ≤ seq

namespace Recorded

variable {r : Ring} {capacity seq n : Nat} {level : Level} {passed : List Event}

theorem mono (h : r.Recorded capacity level passed seq) (hMore : seq ≤ n) :
    r.Recorded capacity level passed n where
  capacity_eq := h.capacity_eq
  level_eq := h.level_eq
  stored := by
    obtain ⟨events, hStored, hSame, hRising, hBelow⟩ := h.stored
    exact ⟨events, hStored, hSame, hRising, fun e he => Nat.le_trans (hBelow e he) hMore⟩

/-- An event that passes becomes the last that the ring holds. -/
theorem push (h : r.Recorded capacity level passed seq) (hRoom : 0 < capacity) (e : Event) :
    (r.push { e with seq := seq + 1 }).Recorded capacity level (passed ++ [e]) (seq + 1) where
  capacity_eq := h.capacity_eq
  level_eq := h.level_eq
  stored := by
    obtain ⟨events, hStored, hSame, hRising, hBelow⟩ := h.stored
    refine ⟨_, hStored.push (h.capacity_eq ▸ hRoom) { e with seq := seq + 1 }, ?_, ?_, ?_⟩
    · rw [List.map_append, List.map_append, hSame]
      rfl
    · rw [List.map_append, List.pairwise_append]
      refine ⟨hRising, List.pairwise_singleton _ _, ?_⟩
      simpa [Nat.lt_succ_iff] using hBelow
    · simp only [List.forall_mem_append, List.forall_mem_singleton]
      exact ⟨fun x hx => Nat.le_succ_of_le (hBelow x hx), Nat.le_refl _⟩

theorem showsLatest (h : r.Recorded capacity level passed seq) : r.ShowsLatest capacity passed := by
  obtain ⟨events, hStored, hSame, hRising, _⟩ := h.stored
  have hSnapshot := hStored.snapshot_eq
  have hLength : events.length = passed.length := by simpa using congrArg List.length hSame
  have hCut : passed.length - min capacity passed.length = passed.length - capacity := by omega
  rw [h.capacity_eq, hLength] at hSnapshot
  refine ⟨?_, ?_, ?_, r.note_prefix_dump_iff, r.dump_text⟩
  · rw [hSnapshot, List.map_drop, hSame, List.rtake, List.length_map, hCut]
  · rw [hSnapshot, List.map_drop]
    exact hRising.sublist (List.drop_sublist _ _)
  · rw [Ring.dropped, hStored.total, h.capacity_eq, hLength, hCut]

end Recorded

end Ring

/-! ### Handing reports out -/

namespace Tracer

theorem seq_le_store (seq : Nat) (e : Event) (s : Sink) : seq ≤ (store seq e s).1 := by
  cases s with
  | stream s =>
      rw [store]
      split
      · exact Nat.le_succ seq
      · exact Nat.le_refl seq
  | ring r =>
      rw [store]
      split
      · exact Nat.le_succ seq
      · exact Nat.le_refl seq

/-- Sequence numbers never go back. -/
theorem seq_le_storeAll (e : Event) (seq : Nat) (sinks : List Sink) :
    seq ≤ (storeAll e seq sinks).1 := by
  induction sinks generalizing seq with
  | nil => exact Nat.le_refl _
  | cons s rest ih => exact Nat.le_trans (seq_le_store seq e s) (ih _)

/-- What a ring among other sinks takes. The sinks before it may use numbers up, so that it goes on
from some larger number. -/
theorem storeAll_ring {sinks : List Sink} {k : Nat} {r : Ring} (hRing : sinks[k]? = some (.ring r))
    (e : Event) (seq : Nat) :
    ∃ n, seq ≤ n ∧ (store n e (.ring r)).1 ≤ (storeAll e seq sinks).1 ∧
      (storeAll e seq sinks).2.2[k]? = some (store n e (.ring r)).2.2 := by
  induction sinks generalizing k seq with
  | nil => simp at hRing
  | cons s rest ih =>
      cases k with
      | zero =>
          rw [List.getElem?_cons_zero, Option.some.injEq] at hRing
          subst hRing
          exact ⟨seq, Nat.le_refl _, seq_le_storeAll e _ rest, rfl⟩
      | succ k =>
          obtain ⟨n, hMore, hBelow, hStored⟩ := ih hRing (store seq e s).1
          exact ⟨n, Nat.le_trans (seq_le_store seq e s) hMore, hBelow, hStored⟩

variable {t : Tracer} {k capacity : Nat} {level : Level} {passed : List Event} {r : Ring}

/-- One report more: the ring stores it exactly if it passes. -/
theorem exists_recorded_emit (hRoom : 0 < capacity) (hRing : t.sinks[k]? = some (.ring r))
    (h : r.Recorded capacity level passed t.seq) (e : Event) :
    ∃ r', (t.emit e).sinks[k]? = some (.ring r') ∧
      r'.Recorded capacity level (passed ++ [e].filter (·.passes level)) (t.emit e).seq := by
  obtain ⟨n, hMore, hBelow, hStored⟩ := storeAll_ring hRing e t.seq
  cases hPasses : e.passes level with
  | true =>
      simp only [store, h.level_eq, hPasses, if_true] at hBelow hStored
      rw [List.filter_cons_of_pos hPasses]
      exact ⟨_, hStored, ((h.mono hMore).push hRoom e).mono hBelow⟩
  | false =>
      simp only [store, h.level_eq, hPasses, Bool.false_eq_true, if_false] at hBelow hStored
      rw [List.filter_cons_of_neg (by simp [hPasses]), List.filter_nil, List.append_nil]
      exact ⟨r, hStored, (h.mono hMore).mono hBelow⟩

/-- A ring among the sinks holds the end of the events that pass its level. -/
theorem exists_recorded_foldl (hRoom : 0 < capacity) (hRing : t.sinks[k]? = some (.ring r))
    (h : r.Recorded capacity level passed t.seq) (events : List Event) :
    ∃ r', (events.foldl emit t).sinks[k]? = some (.ring r') ∧
      r'.Recorded capacity level (passed ++ events.filter (·.passes level))
        (events.foldl emit t).seq := by
  induction events generalizing t r passed with
  | nil => exact ⟨r, hRing, by rwa [List.filter_nil, List.append_nil]⟩
  | cons e events ih =>
      obtain ⟨r', hRing', h'⟩ := exists_recorded_emit hRoom hRing h e
      obtain ⟨r'', hRing'', h''⟩ := ih hRing' h'
      refine ⟨r'', hRing'', ?_⟩
      rwa [List.append_assoc, ← List.filter_append, List.singleton_append] at h''

/-- A ring of any capacity and level, wherever it stands among the sinks of a tracer, shows the
latest of the reports that pass at its level. A forced report passes at every level but `off`. -/
theorem ring_shows_latest (hRoom : 0 < capacity)
    (hRing : t.sinks[k]? = some (.ring (.empty capacity level))) (events : List Event) :
    (∀ e ∈ events, e.forced = true → (e.passes level = true ↔ level ≠ .off)) ∧
    ∃ r, (events.foldl emit t).sinks[k]? = some (.ring r) ∧
      r.ShowsLatest capacity (events.filter (·.passes level)) := by
  have hEmpty : (Ring.empty capacity level).Recorded capacity level [] t.seq :=
    ⟨rfl, rfl, [], Ring.stored_empty capacity level, rfl, List.Pairwise.nil, by simp⟩
  obtain ⟨r, hFinal, hRecorded⟩ := exists_recorded_foldl hRoom hRing hEmpty events
  refine ⟨fun e _ hForced => Event.passes_iff_of_forced hForced level, r, hFinal, ?_⟩
  rw [List.nil_append] at hRecorded
  exact hRecorded.showsLatest

/-- A stream that writes everything, and behind it a ring with two slots. -/
def streamAndRing : Tracer :=
  { level := .debug, sinks := [.stream ⟨.debug, .text, {}⟩, .ring (.empty 2 .phase)] }

/-- Four reports, of which the second is too fine for the ring and the third is forced. -/
def mixedReports : List Event :=
  [{ (default : Event) with scope := .attempt, name := "a" },
    { (default : Event) with scope := .instr, name := "b" },
    { (default : Event) with scope := .instr, name := "c", forced := true },
    { (default : Event) with scope := .attempt, name := "d" }]

/-- The ring turns over once, and the stream takes numbers of its own. -/
theorem ring_shows_latest_mixed :
    streamAndRing.sinks[1]? = some (.ring (.empty 2 .phase)) ∧
    (mixedReports.filter (·.passes .phase)).map (·.name) = ["a", "c", "d"] ∧
    ∃ r, (mixedReports.foldl emit streamAndRing).sinks[1]? = some (.ring r) ∧
      r.ShowsLatest 2 (mixedReports.filter (·.passes .phase)) :=
  ⟨rfl, by decide, (ring_shows_latest (by decide) rfl mixedReports).2⟩

end Tracer

end TraceJit
