import TraceJit.Compiler.Batch

/-!
What a batch says of its requests. Each request is queued, then compiled, then done or failed. A
batch on one worker compiles the requests in turn; with several workers the events about different
requests come in any order.
-/

namespace TraceJit

/-! ### The events of a batch -/

/-- What is said of request `i` once all requests are queued: nothing if the caller gives up
first, else that it is compiled and how that came out. -/
inductive Request.Stream (r : Request) (i : Nat) : List BatchEvent → Prop where
  | canceled : Stream r i []
  | done (result : CompileResult) :
      Stream r i [{ index := i, name := r.name, status := .compiling },
        { index := i, name := r.name, status := .done, result }]
  | failed (result : CompileResult) (message : String) :
      Stream r i [{ index := i, name := r.name, status := .compiling },
        { index := i, name := r.name, status := .failed, result, error := some message }]

namespace BatchEvent

/-- The events that are about request `i`, in their order. -/
def about (events : List BatchEvent) (i : Nat) : List BatchEvent :=
  events.filter fun e => e.index == (i : Int)

/-- All requests become queued, in order. -/
def queued (requests : List Request) : List BatchEvent :=
  requests.mapIdx fun i r => { index := i, name := r.name, status := .queued }

/-- What comes after all requests are queued: the streams of the requests, merged in any way. -/
structure Merged (requests : List Request) (later : List BatchEvent) : Prop where
  known : ∀ e ∈ later, ∃ i < requests.length, e.index = (i : Int)
  streams : ∀ (i : Nat) (r : Request), requests[i]? = some r → r.Stream i (about later i)

/-- No event follows a final one about the same request. -/
def Orderly (events : List BatchEvent) : Prop :=
  events.Pairwise fun a b => a.index = b.index → a.status.isFinal = false

section Order

variable {requests : List Request} {later : List BatchEvent}

@[simp] theorem about_append (a b : List BatchEvent) (i : Nat) :
    about (a ++ b) i = about a i ++ about b i := List.filter_append ..

theorem mem_about {events : List BatchEvent} {i : Nat} {e : BatchEvent} :
    e ∈ about events i ↔ e ∈ events ∧ e.index = (i : Int) := by
  simp [about]

theorem about_eq_nil {events : List BatchEvent} {i : Nat}
    (h : ∀ e ∈ events, e.index ≠ (i : Int)) : about events i = [] :=
  List.filter_eq_nil_iff.mpr fun e he => by simpa using h e he

/-- Order among the events of each request is all that matters. -/
theorem orderly_of_about {events : List BatchEvent}
    (hKnown : ∀ e ∈ events, ∃ i : Nat, e.index = (i : Int))
    (hAbout : ∀ i, (about events i).Pairwise fun a _ => a.status.isFinal = false) :
    Orderly events := by
  induction events with
  | nil => exact .nil
  | cons e rest ih =>
      refine .cons (fun b hb hSame => ?_) (ih (fun b hb => hKnown b (.tail _ hb)) fun i => ?_)
      · obtain ⟨i, hi⟩ := hKnown e List.mem_cons_self
        have hFirst := hAbout i
        rw [about, List.filter_cons_of_pos (by simpa using hi)] at hFirst
        exact List.rel_of_pairwise_cons hFirst (mem_about.mpr ⟨hb, hSame ▸ hi⟩)
      · exact (hAbout i).sublist ((List.sublist_cons_self e rest).filter _)

/-- A batch begins with one event for each request, in the state of waiting. -/
theorem status_of_mem_queued {e : BatchEvent} (he : e ∈ queued requests) :
    e.status = .queued ∧ ∃ i < requests.length, e.index = (i : Int) := by
  obtain ⟨i, hi, rfl⟩ := List.mem_mapIdx.mp he
  exact ⟨rfl, i, hi, rfl⟩

/-- Before its last event a request is not finished. -/
theorem pairwise_of_stream {r : Request} {i : Nat} {events : List BatchEvent}
    (h : r.Stream i events) : events.Pairwise fun a _ => a.status.isFinal = false := by
  cases h with
  | canceled => exact .nil
  | done => simp [Status.isFinal]
  | failed => simp [Status.isFinal]

/-- No event is about more than there are requests. -/
theorem Merged.about_of_le (h : Merged requests later) {i : Nat} (hi : requests.length ≤ i) :
    about later i = [] :=
  about_eq_nil fun e he => by
    obtain ⟨j, hj, hIndex⟩ := h.known e he
    omega

/-- The events of a batch, in any order they can come in, begin with the queue. -/
theorem Merged.orderly (h : Merged requests later) : Orderly (queued requests ++ later) := by
  refine List.pairwise_append.mpr ⟨?_, ?_, fun a ha b _ _ => ?_⟩
  · refine List.pairwise_of_forall_mem_list fun a ha b _ _ => ?_
    rw [(status_of_mem_queued ha).1]
    rfl
  · refine orderly_of_about (fun e he => ?_) fun i => ?_
    · obtain ⟨i, -, hIndex⟩ := h.known e he
      exact ⟨i, hIndex⟩
    · cases hRequest : requests[i]? with
      | none =>
          rw [h.about_of_le (List.getElem?_eq_none_iff.mp hRequest)]
          exact .nil
      | some r => exact pairwise_of_stream (h.streams i r hRequest)
  · rw [(status_of_mem_queued ha).1]
    rfl

end Order

end BatchEvent

/-! ### One worker -/

section OneWorker

variable {σ : Type}

/-- What is said of a request at position `index` that was compiled. -/
def Compiled.events (o : Compiled σ) (r : Request) (index : Nat) : List BatchEvent :=
  [{ index, name := r.name, status := .compiling },
    { index, name := r.name, status := if o.error.isSome then .failed else .done
      result := o.result, error := o.error.map (·.message) }]

/-- What is known of a batch after one more request. -/
def BatchEnd.extended (b : BatchEnd σ) (index : Nat) (r : Request) (o : Compiled σ) : BatchEnd σ :=
  { b with
    compiler := o.compiler
    outcomes := b.outcomes ++ [{ request := r, result := o.result, error := o.error }]
    events := b.events ++ o.events r index
    aborts := b.aborts ++ o.abort.toList
    left := false }

theorem Compiled.index_of_mem_events {o : Compiled σ} {r : Request} {index : Nat} {e : BatchEvent}
    (he : e ∈ o.events r index) : e.index = (index : Int) := by
  simp only [Compiled.events, List.mem_cons, List.not_mem_nil, or_false] at he
  rcases he with rfl | rfl
  · rfl
  · rfl

/-- What a call says about its request. -/
theorem Compiled.stream_events (o : Compiled σ) (r : Request) (index : Nat) :
    r.Stream index (o.events r index) := by
  unfold Compiled.events
  cases o.error with
  | none => exact .done o.result
  | some e => exact .failed o.result e.message

namespace Compiler

open BatchEvent

variable {ctx : BatchContext}

/-- A batch that broken invariants do not stop goes on behind each of its requests. -/
theorem runRequests_cons {index : Nat} (hHere : ctx.gone index = false) (r : Request)
    (rest : List Request) (arena : Arena) (b : BatchEnd σ) :
    runRequests ctx false index (r :: rest) arena b =
      runRequests ctx false (index + 1) rest
        (b.compiler.compile arena (ctx.request index) r).arena
        (b.extended index r (b.compiler.compile arena (ctx.request index) r)) := by
  rw [runRequests, hHere]
  simp [BatchEnd.extended, Compiled.events]

/-- The events about requests that are compiled one after the other, the first of which has position
`index`. There are some about each of them unless the caller gives up. -/
structure InTurn (ctx : BatchContext) (index : Nat) (requests : List Request)
    (later : List BatchEvent) : Prop where
  known : ∀ e ∈ later, ∃ i < requests.length, e.index = ((index + i : Nat) : Int)
  streams : ∀ (i : Nat) (r : Request), requests[i]? = some r →
    r.Stream (index + i) (about later (index + i)) ∧
      ((∀ j, ctx.gone j = false) → about later (index + i) ≠ [])

/-- A caller who has given up hears nothing more. -/
theorem InTurn.of_gone {index : Nat} {requests : List Request} (hGone : ctx.gone index = true) :
    InTurn ctx index requests [] where
  known := by simp
  streams _ _ _ := ⟨.canceled, fun hNever => absurd (hNever index) (by simp [hGone])⟩

/-- A request comes before all others. -/
theorem InTurn.cons {index : Nat} {requests : List Request} {later : List BatchEvent}
    (h : InTurn ctx (index + 1) requests later) (r : Request) (o : Compiled σ) :
    InTurn ctx index (r :: requests) (o.events r index ++ later) where
  known e he := by
    rcases List.mem_append.mp he with hHere | hThere
    · exact ⟨0, Nat.succ_pos _, Compiled.index_of_mem_events hHere⟩
    · obtain ⟨i, hi, hAt⟩ := h.known e hThere
      exact ⟨i + 1, Nat.succ_lt_succ hi, by omega⟩
  streams i s hs := by
    rw [about_append]
    cases i with
    | zero =>
        obtain rfl := Option.some.inj hs
        have hAll : about (o.events r index) index = o.events r index :=
          List.filter_eq_self.mpr fun e he => beq_iff_eq.mpr (Compiled.index_of_mem_events he)
        have hNone : about later index = [] := about_eq_nil fun e he => by
          obtain ⟨i, -, hAt⟩ := h.known e he
          omega
        rw [Nat.add_zero, hAll, hNone, List.append_nil]
        exact ⟨o.stream_events r index, fun _ => by simp [Compiled.events]⟩
    | succ i =>
        have hNone : about (o.events r index) (index + (i + 1)) = [] := about_eq_nil fun e he => by
          have hAt := Compiled.index_of_mem_events he
          omega
        rw [hNone, List.nil_append, ← Nat.add_assoc, Nat.add_right_comm]
        exact h.streams i s hs

/-- With one job the requests are done in their order, each behind the one before. -/
theorem inTurn_runRequests (index : Nat) (requests : List Request) (arena : Arena)
    {b : BatchEnd σ} (hOn : b.left = false) :
    ∃ later, (runRequests ctx false index requests arena b).events = b.events ++ later ∧
      (runRequests ctx false index requests arena b).left = false ∧
        InTurn ctx index requests later := by
  induction requests generalizing index arena b with
  | nil => exact ⟨[], (List.append_nil _).symm, hOn, ⟨by simp, by simp⟩⟩
  | cons r rest ih =>
      cases hGone : ctx.gone index with
      | true =>
          rw [runRequests, if_pos hGone]
          exact ⟨[], (List.append_nil _).symm, hOn, .of_gone hGone⟩
      | false =>
          rw [runRequests_cons hGone]
          generalize b.compiler.compile arena (ctx.request index) r = o
          obtain ⟨later, hEvents, hLeft, hTurn⟩ := ih (index + 1) o.arena
            (b := b.extended index r o) rfl
          refine ⟨o.events r index ++ later, ?_, hLeft, hTurn.cons r o⟩
          rw [hEvents, BatchEnd.extended, List.append_assoc]

/-- A batch on one worker says what a batch on several could say, also if the caller gives up in the
midst of it. -/
theorem merged_batch (c : Compiler σ) (ctx : BatchContext) (requests : List Request) :
    ∃ later, (c.batch ctx requests false).events = queued requests ++ later ∧
      Merged requests later ∧
        ((∀ j, ctx.gone j = false) → ∀ i < requests.length, about later i ≠ []) := by
  unfold batch
  split
  next hNone =>
      obtain rfl := List.isEmpty_iff.mp hNone
      exact ⟨[], rfl, ⟨by simp, by simp⟩, by simp⟩
  next =>
      let inner : BatchContext := { ctx with span := (c.beginSpan .driver "batch" ctx.span).1.id }
      let start : BatchEnd σ :=
        { compiler := (c.beginSpan .driver "batch" ctx.span).2, outcomes := []
          events := queued requests, aborts := [] }
      obtain ⟨later, hEvents, hLeft, hTurn⟩ :
          ∃ later, (runRequests inner false 0 requests {} start).events = start.events ++ later ∧
            (runRequests inner false 0 requests {} start).left = false ∧
            InTurn inner 0 requests later := inTurn_runRequests 0 requests {} rfl
      refine ⟨later, ?_, ⟨?_, ?_⟩, fun hNever i hi => ?_⟩
      · simp only [inner, start, queued] at hEvents hLeft
        simp [hLeft, hEvents, queued]
      · simpa using hTurn.known
      · intro i r hr
        simpa using (hTurn.streams i r hr).1
      · simpa using (hTurn.streams i _ (List.getElem?_eq_getElem hi)).2 hNever

end Compiler

end OneWorker

end TraceJit
