import Mathlib.Data.List.Induction
import TraceJit.Display.Progress
import TraceJit.Proofs.Compiler.Batch

/-!
Progress while several workers report. No event about a request follows its final one; so whatever
order the events about different requests come in, the counts on the screen are those of the items
below them.
-/

namespace TraceJit

namespace Progress

open BatchEvent

def after (p : Progress) (events : List BatchEvent) : Progress := events.foldl onEvent p

@[simp] theorem after_nil (p : Progress) : p.after [] = p := by
  simp [after]

@[simp] theorem after_append (p : Progress) (a b : List BatchEvent) :
    p.after (a ++ b) = (p.after a).after b := List.foldl_append ..

/-- The counts are those of the items. -/
structure Counted (p : Progress) : Prop where
  finished : p.finished =
    p.items.countP fun item => item.status = .done ∨ item.status = .failed
  failed : p.failed = p.items.countP fun item => item.status = .failed

section Events

variable {p : Progress} {e : BatchEvent} {i : Nat}

theorem isFinal_iff (s : Status) : s.isFinal = true ↔ s = .done ∨ s = .failed := by
  cases s <;> simp [Status.isFinal]

/-- An event about an item changes that item, and the counts if it is the item's last. -/
theorem onEvent_of_item {item : ProgressItem} (hIndex : e.index = (i : Int))
    (hItem : p.items[i]? = some item) :
    p.onEvent e =
      { p with
        items := p.items.set i (item.after e)
        finished := p.finished + (if e.status.isFinal && !item.status.isFinal then 1 else 0)
        failed := p.failed + (if (e.status.isFinal && !item.status.isFinal) && e.status = .failed
          then 1 else 0) } := by
  unfold onEvent
  rw [if_neg (by omega)]
  simp only [hIndex, Int.toNat_natCast, hItem]

/-- An event about no item changes nothing. -/
theorem onEvent_of_none (hIndex : e.index = (i : Int)) (hItem : p.items[i]? = none) :
    p.onEvent e = p := by
  unfold onEvent
  rw [if_neg (by omega)]
  simp only [hIndex, Int.toNat_natCast, hItem]

/-- An event about a request that is not finished keeps the counts right. -/
theorem Counted.onEvent (h : p.Counted) (hIndex : e.index = (i : Int))
    (hOpen : ∀ item, p.items[i]? = some item → item.status.isFinal = false) :
    (p.onEvent e).Counted := by
  cases hItem : p.items[i]? with
  | none =>
      rw [onEvent_of_none hIndex hItem]
      exact h
  | some item =>
      obtain ⟨hLength, hAt⟩ := List.getElem?_eq_some_iff.mp hItem
      have hStatus := hOpen item hItem
      have hNotFinal : ¬(item.status = .done ∨ item.status = .failed) := by
        rw [← isFinal_iff, hStatus]
        exact Bool.false_ne_true
      have hAfter : (item.after e).status = e.status := rfl
      rw [onEvent_of_item hIndex hItem]
      constructor
      · simp only [List.countP_set hLength, hAt, hAfter, hStatus, h.finished]
        simp [hNotFinal, ← isFinal_iff]
      · simp only [List.countP_set hLength, hAt, hAfter, hStatus, h.failed]
        cases e.status <;> simp_all [Status.isFinal]

/-- No event takes a finished item back. -/
theorem finished_le_onEvent (p : Progress) (e : BatchEvent) :
    p.finished ≤ (p.onEvent e).finished := by
  unfold Progress.onEvent
  split
  next => exact Nat.le_refl _
  next =>
      split
      next => exact Nat.le_refl _
      next => exact Nat.le_add_right ..

theorem length_onEvent (p : Progress) (e : BatchEvent) :
    (p.onEvent e).items.length = p.items.length := by
  unfold Progress.onEvent
  split
  next => rfl
  next =>
      split
      next => rfl
      next => exact List.length_set ..

/-- The status of an item after an event, which is that of the event if it is about the item. -/
theorem status_onEvent (p : Progress) (e : BatchEvent) (i : Nat) :
    ((p.onEvent e).items[i]?).map ProgressItem.status =
      (p.items[i]?).map fun item => if e.index = (i : Int) then e.status else item.status := by
  by_cases hIndex : e.index = (i : Int)
  · cases hItem : p.items[i]? with
    | none =>
        rw [onEvent_of_none hIndex hItem, hItem]
        rfl
    | some item =>
        obtain ⟨hLength, -⟩ := List.getElem?_eq_some_iff.mp hItem
        rw [onEvent_of_item hIndex hItem]
        simp [hLength, hIndex, ProgressItem.after]
  · simp only [if_neg hIndex]
    unfold onEvent
    split
    next => rfl
    next hPos =>
        split
        next => rfl
        next =>
            have hNe : e.index.toNat ≠ i := by omega
            simp [hNe]

end Events

section Runs

variable (p : Progress) (events : List BatchEvent)

/-- Items stay finished. -/
theorem finished_le_after : p.finished ≤ (p.after events).finished := by
  induction events generalizing p with
  | nil => exact Nat.le_refl _
  | cons e rest ih => exact Nat.le_trans (finished_le_onEvent p e) (ih (p.onEvent e))

theorem length_after : (p.after events).items.length = p.items.length := by
  induction events generalizing p with
  | nil => rfl
  | cons e rest ih => exact (ih (p.onEvent e)).trans (length_onEvent p e)

/-- An item has the status of the last event about it. -/
theorem status_after (i : Nat) :
    ((p.after events).items[i]?).map ProgressItem.status =
      (p.items[i]?).map fun item =>
        ((about events i).getLast?.map BatchEvent.status).getD item.status := by
  induction events using List.reverseRecOn with
  | nil => simp [about]
  | append_singleton events e ih =>
      rw [after_append]
      change (((p.after events).onEvent e).items[i]?).map _ = _
      by_cases hIndex : e.index = (i : Int)
      · have hAbout : about [e] i = [e] := by simp [about, hIndex]
        have hSame := congrArg (Option.map fun _ => e.status) ih
        simp only [Option.map_map, Function.comp_def] at hSame
        rw [status_onEvent, about_append, hAbout, List.getLast?_append]
        simpa [hIndex] using hSame
      · have hAbout : about [e] i = [] := by simp [about, hIndex]
        rw [status_onEvent, about_append, hAbout, List.append_nil, ← ih]
        simp only [if_neg hIndex]

variable {p events}

/-- A request is not finished as long as none of the events about it is final. -/
theorem isFinal_after (hOpen : ∀ item ∈ p.items, item.status.isFinal = false) {i : Nat}
    (hEvents : ∀ e ∈ about events i, e.status.isFinal = false) :
    ∀ item, (p.after events).items[i]? = some item → item.status.isFinal = false := by
  intro item hItem
  have hStatus := status_after p events i
  rw [hItem, Option.map_some, eq_comm, Option.map_eq_some_iff] at hStatus
  obtain ⟨first, hFirst, hStatus⟩ := hStatus
  rw [← hStatus]
  cases hLast : (about events i).getLast? with
  | none => exact hOpen first (List.mem_of_getElem? hFirst)
  | some e => exact hEvents e (List.mem_of_getLast? hLast)

/-- Orderly events keep the counts right. -/
theorem Counted.after (h : p.Counted) (hOpen : ∀ item ∈ p.items, item.status.isFinal = false)
    (hKnown : ∀ e ∈ events, ∃ i : Nat, e.index = (i : Int)) (hOrder : Orderly events) :
    (p.after events).Counted := by
  induction events using List.reverseRecOn with
  | nil => exact h
  | append_singleton events e ih =>
      obtain ⟨hBefore, -, hLast⟩ := List.pairwise_append.mp hOrder
      obtain ⟨i, hIndex⟩ := hKnown e (by simp)
      have hCounted := ih (fun e he => hKnown e (by simp [he])) hBefore
      rw [after_append]
      refine hCounted.onEvent hIndex (isFinal_after hOpen fun a ha => ?_)
      obtain ⟨hMem, hSame⟩ := mem_about.mp ha
      exact hLast a hMem e List.mem_cons_self (hSame.trans hIndex.symm)

/-- No more items are finished than there are. -/
theorem Counted.finished_le (h : p.Counted) : p.finished ≤ p.items.length :=
  h.finished ▸ List.countP_le_length

end Runs

/-! ### Batches -/

section Batch

variable {requests : List Request} {later : List BatchEvent} (title : String)

theorem counted_new (names : List String) : (Progress.new title names).Counted := by
  constructor
  · simp [Progress.new, Function.comp_def]
  · simp [Progress.new, Function.comp_def]

theorem isFinal_new {names : List String} :
    ∀ item ∈ (Progress.new title names).items, item.status.isFinal = false := by
  simp [Progress.new, Status.isFinal]

/-- Every event of a batch is about one of its requests. -/
theorem known_events (h : Merged requests later) :
    ∀ e ∈ queued requests ++ later, ∃ i : Nat, e.index = (i : Int) := by
  intro e he
  rcases List.mem_append.mp he with hQueued | hLater
  · obtain ⟨-, i, -, hIndex⟩ := status_of_mem_queued hQueued
    exact ⟨i, hIndex⟩
  · obtain ⟨i, -, hIndex⟩ := h.known e hLater
    exact ⟨i, hIndex⟩

/-- The counts are right at every moment of a batch. -/
theorem counted_of_prefix (h : Merged requests later) {seen : List BatchEvent}
    (hSeen : seen <+: queued requests ++ later) :
    ((Progress.new title (requests.map Request.name)).after seen).Counted :=
  (counted_new title _).after (isFinal_new title)
    (fun e he => known_events h e (hSeen.subset he)) (h.orderly.sublist hSeen.sublist)

/-- The last word on a request that was not canceled is final. -/
theorem final_of_stream {r : Request} {i : Nat} {events : List BatchEvent}
    (h : r.Stream i events) (hSome : events ≠ []) :
    ∃ e, events.getLast? = some e ∧ e.status.isFinal = true := by
  cases h with
  | canceled => exact absurd rfl hSome
  | done => exact ⟨_, rfl, rfl⟩
  | failed => exact ⟨_, rfl, rfl⟩

/-- Once every request has had its last event, all items are finished. -/
theorem finished_eq_length (h : Merged requests later)
    (hAll : ∀ i < requests.length, about later i ≠ []) :
    ((Progress.new title (requests.map Request.name)).after (queued requests ++ later)).finished =
      requests.length := by
  have hCounted := counted_of_prefix title h (List.prefix_refl _)
  have hLength : ((Progress.new title (requests.map Request.name)).after
      (queued requests ++ later)).items.length = requests.length := by
    rw [length_after]
    simp [Progress.new]
  rw [hCounted.finished, ← hLength, List.countP_eq_length]
  intro item hItem
  obtain ⟨i, hi, hAt⟩ := List.getElem_of_mem hItem
  have hRange : i < requests.length := hLength ▸ hi
  obtain ⟨e, hLast, hFinal⟩ := final_of_stream
    (h.streams i _ (List.getElem?_eq_getElem hRange)) (hAll i hRange)
  have hStatus := status_after (Progress.new title (requests.map Request.name))
    (queued requests ++ later) i
  rw [List.getElem?_eq_getElem hi, hAt, about_append, List.getLast?_append, hLast, Option.map_some,
    eq_comm, Option.map_eq_some_iff] at hStatus
  obtain ⟨first, -, hStatus⟩ := hStatus
  simp only [Option.some_or, Option.map_some, Option.getD_some] at hStatus
  rw [← hStatus]
  simpa [isFinal_iff] using hFinal

/-- Progress is counted right however the workers of a batch take turns. What one worker says is
such a turn-taking, wherever the caller gives up; and in every one of them, whenever one looks, the
counts are those of the items, they never go down, and in the end all requests are finished if none
was canceled. -/
theorem batch_counts (requests : List Request) :
    (∀ {σ : Type} (c : Compiler σ) (ctx : BatchContext), ∃ later,
      (c.batch ctx requests false).events = queued requests ++ later ∧
        Merged requests later ∧
          ((∀ j, ctx.gone j = false) → ∀ i < requests.length, about later i ≠ [])) ∧
    ∀ later, Merged requests later →
      let start := Progress.new title (requests.map Request.name)
      (∀ seen, seen <+: queued requests ++ later → (start.after seen).Counted ∧
        (start.after seen).finished ≤ (start.after seen).items.length) ∧
      (∀ seen more, seen <+: more → more <+: queued requests ++ later →
        (start.after seen).finished ≤ (start.after more).finished) ∧
      ((∀ i < requests.length, about later i ≠ []) →
        (start.after (queued requests ++ later)).finished = requests.length) := by
  refine ⟨fun c ctx => c.merged_batch ctx requests, fun later hMerged => ⟨?_, ?_, ?_⟩⟩
  · intro seen hSeen
    have hCounted := counted_of_prefix title hMerged hSeen
    exact ⟨hCounted, hCounted.finished_le⟩
  · rintro seen _ ⟨rest, rfl⟩ _
    rw [after_append]
    exact finished_le_after _ rest
  · exact finished_eq_length title hMerged

/-- The events of two requests of which the second is done before the first has failed. -/
def crossed : List BatchEvent :=
  [{ index := 1, name := "b", status := .compiling },
    { index := 0, name := "a", status := .compiling },
    { index := 1, name := "b", status := .done },
    { index := 0, name := "a", status := .failed, error := some "jit: nil trace" }]

/-- The events of two requests that overlap, in an order they can come in. -/
theorem merged_crossed : Merged [.noTrace "a", .noTrace "b"] crossed where
  known := by
    simp only [crossed, List.forall_mem_cons]
    exact ⟨⟨1, by decide, rfl⟩, ⟨0, by decide, rfl⟩, ⟨1, by decide, rfl⟩, ⟨0, by decide, rfl⟩,
      by simp⟩
  streams i r hr := by
    match i with
    | 0 =>
        obtain rfl := Option.some.inj hr
        exact .failed {} "jit: nil trace"
    | 1 =>
        obtain rfl := Option.some.inj hr
        exact .done {}
    | i + 2 => cases hr

theorem batch_counts_crossed :
    let p := (Progress.new "" ["a", "b"]).after (queued [.noTrace "a", .noTrace "b"] ++ crossed)
    p.Counted ∧ p.finished = 2 ∧ p.failed = 1 := by
  obtain ⟨hCounts, -, hAll⟩ :=
    (batch_counts "" [.noTrace "a", .noTrace "b"]).2 crossed merged_crossed
  refine ⟨(hCounts _ (List.prefix_refl _)).1, hAll fun i hi => ?_, rfl⟩
  match i, hi with
  | 0, _ => exact List.cons_ne_nil _ _
  | 1, _ => exact List.cons_ne_nil _ _

end Batch

end Progress

end TraceJit
