import TraceJit.Proofs.Compiler.Verbosity
import TraceJit.Proofs.Graph.Reports

/-!
Every call, every batch on one worker and every list of requests ends the spans that it begins, on
every way out, and puts each one into the innermost span that is open. Spans are begun and ended by
hand, and the number of the one around is handed down; so each function is followed along its ways
out, with what it has told the tracer so far.
-/

namespace TraceJit

open Tracer (Inside Tells)

/-! ### Backends -/

/-- The backend ends its spans, which are passes or finer and lie in the span of the unit. -/
def Backend.Nests {σ : Type} (backend : Backend σ) : Prop :=
  ∀ state canceled u, ∃ events,
    Tells Scope.pass.depth u.span u.tracer events (backend state canceled u).tracer

/-- The assembler tells its own span and ends it on every path. -/
theorem Assembler.nests_compile : Assembler.compile.Nests := by
  have hFine : Scope.pass.depth ≤ Scope.pass.depth := UInt8.le_refl _
  intro a canceled u
  unfold Assembler.compile
  cases canceled with
  | true => exact ⟨[], .refl ..⟩
  | false =>
      rcases hLowering : u.tracer.beginSpan .pass "lower" u.span with ⟨lowering, t⟩
      have hLowered := (Inside.begin hLowering).finish hFine ""
      rcases hAssembling : (t.endSpan lowering "").beginSpan .pass "assemble" u.span with
        ⟨assembling, v⟩
      have hInside := Inside.begin hAssembling
      simp only [Bool.false_eq_true, if_false]
      cases u.lower with
      | error e => exact hLowered
      | ok p =>
          simp only [hAssembling]
          cases a.assemble p with
          | error e => exact Tells.exists_trans hLowered (hInside.finish hFine e.message)
          | ok r =>
              exact Tells.exists_trans hLowered
                ((hInside.noted "bytes" (toString r.1.size.toNat)).finish hFine "")

namespace Compiler

variable {σ : Type}

/-! ### Calls -/

/-- Whatever the level, what a compiler tells behind the beginning of a span is inside of it. -/
theorem inside_beginSpan {c d : Compiler σ} {scope : Scope} {name : String} {parent : Nat}
    {span : Span} (hBegun : c.beginSpan scope name parent = (span, d)) :
    Inside c.tracer scope name parent span d.tracer := by
  cases hBegun
  exact .begin rfl

/-- Units report to the tracer of their compiler, inside the span that they are given. -/
theorem tracer_prepared (c : Compiler σ) (span : Nat) (u : WorkUnit) :
    (c.prepared span u).tracer = c.tracer ∧ (c.prepared span u).span = span := by
  unfold prepared
  cases c.filter with
  | none => exact ⟨rfl, rfl⟩
  | some f => exact ⟨rfl, rfl⟩

theorem eq_ok_of_checked {b : Build} {u : WorkUnit} (h : checked b = .ok u) : b = .ok u := by
  cases b with
  | error s => cases h
  | ok v =>
      unfold checked at h
      dsimp only at h
      split at h
      · cases h
      · exact congrArg Except.ok (Except.ok.inj h)

section Ends

variable {t : Tracer} {name : String} {parent : Nat} {span : Span} {c : Compiler σ}
  (hInside : Inside t .driver name parent span c.tracer) (arena : Arena) (result : CompileResult)

include hInside

/-- A failed call ends its span before it reports a broken invariant. -/
theorem tells_failed (e : CompileError) (detail : String) :
    ∃ events, Tells Scope.driver.depth parent t events
      (c.failed arena result e detail span).compiler.tracer := by
  have hEnded := hInside.finish (UInt8.le_refl _) detail
  unfold failed
  cases e.isInvariant with
  | false => exact hEnded
  | true => exact Tells.exists_trans hEnded ((Tracer.points_fatal _ "abort" e.message).tells ..)

/-- A success is told in points. -/
theorem tells_succeeded :
    ∃ events, Tells Scope.driver.depth parent t events
      (c.succeeded arena result span).compiler.tracer :=
  hInside.finish (UInt8.le_refl _) ""

end Ends

/-- A unit was built in a span and is now listed and handed to the backend. -/
theorem inside_reply {backend : Backend σ} (hBackend : backend.Nests) {t : Tracer} {scope : Scope}
    {name : String} {parent : Nat} {span : Span} {u : WorkUnit}
    (hInside : Inside t scope name parent span u.tracer) (hSpan : u.span = span.id)
    (hCoarse : scope.depth ≤ Scope.pass.depth) (state : σ) (canceled : Bool) :
    Inside t scope name parent span (backend state canceled u.dump).tracer := by
  have hReply := hBackend state canceled u.dump
  rw [u.points_dump.span, hSpan] at hReply
  exact (hInside.points u.points_dump.tracer).tells hReply hCoarse

/-- However an attempt ends, it ends its span. -/
theorem tells_attemptTrace {c : Compiler σ} (hBackend : c.backend.Nests) (arena : Arena)
    (canceled : Bool) (t : Trace) (ceiling : Int) (parent : Nat) :
    ∃ events, Tells Scope.attempt.depth parent c.tracer events
      (c.attemptTrace arena canceled t ceiling parent).compiler.tracer := by
  have hFine : Scope.attempt.depth ≤ Scope.attempt.depth := UInt8.le_refl _
  rcases hBegun : c.beginSpan .attempt "attempt" parent with ⟨begun, d⟩
  have hOpen := (inside_beginSpan hBegun).noted "ceiling" (toString ceiling)
  obtain ⟨tracer, rfl⟩ := beginSpan_eq hBegun
  unfold attemptTrace
  simp only [hBegun, newUnit_eq]
  generalize begun.noted "ceiling" (toString ceiling) = span at hOpen ⊢
  cases WorkUnit.new t.method with
  | error e => exact hOpen.finish hFine _
  | ok u =>
      simp only [Except.map]
      obtain ⟨hTracer, hSpan⟩ := ({ c with tracer } : Compiler σ).tracer_prepared span.id u
      generalize ({ c with tracer } : Compiler σ).prepared span.id u = v at hTracer hSpan ⊢
      have hBuilt := ({ v with trace := some t } : WorkUnit).points_buildTrace ceiling
      generalize ({ v with trace := some t } : WorkUnit).buildTrace ceiling = build at hBuilt ⊢
      have hInside := (hTracer ▸ hOpen).points hBuilt.tracer
      cases hChecked : checked build with
      | error e => exact hInside.finish hFine _
      | ok w =>
          obtain rfl := eq_ok_of_checked hChecked
          have hReplied := inside_reply hBackend hInside (hBuilt.span.trans hSpan) (by decide)
            c.state canceled
          dsimp only
          split
          next e _ =>
              exact (hReplied.points (WorkUnit.points_sayEnd { w.dump with tracer := _ }
                (CompileError.backend e).isTooLarge).tracer).finish hFine _
          next =>
              exact ((hReplied.points (WorkUnit.points_sayEnd { w.dump with tracer := _ }
                false).tracer).noted "insns" _).finish hFine ""

/-- Attempts lie one behind the other in the span of their call. -/
theorem tells_attempts (canceled : Nat → Bool) (t : Trace) (fuel : Nat) {before : Tracer}
    {name : String} {parent : Nat} {span : Span} {c : Compiler σ} (hBackend : c.backend.Nests)
    (hInside : Inside before .driver name parent span c.tracer) (arena : Arena) (ceiling : Int)
    (result : CompileResult) :
    ∃ events, Tells Scope.driver.depth parent before events
      (attempts canceled t span fuel c arena ceiling result).compiler.tracer := by
  -- the span of the call is open, and the attempts so far lie inside
  induction fuel generalizing c arena ceiling result with
  | zero => exact tells_failed hInside ..
  | succ fuel ih =>
      rw [attempts]
      split
      next => exact tells_failed hInside ..
      next =>
          have hMore := hInside.tells (tells_attemptTrace hBackend arena
            (canceled result.ceilings.length) t ceiling span.id) (by decide)
          have hKept := c.attemptTrace_backend arena (canceled result.ceilings.length) t ceiling
            span.id
          dsimp only
          split
          next => exact tells_succeeded (hMore.noted "attempts" _) ..
          next =>
              split
              next => exact ih (c := Compiler.count _ _) (hKept ▸ hBackend) hMore _ _ _
              next => exact tells_failed hMore ..

section Calls

variable {c : Compiler σ} (hBackend : c.backend.Nests) (arena : Arena) (ctx : Context)

include hBackend

/-- A call for a trace begins and ends its spans under that of its context. -/
theorem tells_compileTrace (t : Trace) :
    ∃ events, Tells Scope.driver.depth ctx.span c.tracer events
      (c.compileTrace arena ctx t).compiler.tracer := by
  unfold compileTrace
  cases hFound : c.lookup.peek? t.key with
  | some f =>
      simp only [find_of_found hFound]
      exact ⟨[], .refl ..⟩
  | none =>
      have hOpened : (c.count fun n => { n with traces := n.traces + 1 }) = c.traceOpened := rfl
      rcases hBegun : c.traceOpened.beginSpan .driver "trace" ctx.span with ⟨span, d⟩
      have hOpen := inside_beginSpan hBegun
      obtain ⟨tracer, rfl⟩ := beginSpan_eq hBegun
      simp only [find_of_missing hFound, hOpened, hBegun]
      exact tells_attempts ctx.canceled t _ (c := { c.traceOpened with tracer }) hBackend hOpen
        arena _ _

/-- So does a call for a method. -/
theorem tells_compileMethod (m : Method) :
    ∃ events, Tells Scope.driver.depth ctx.span c.tracer events
      (c.compileMethod arena ctx m).compiler.tracer := by
  unfold compileMethod
  cases hFound : c.lookup.peek? ("method:" ++ m.ref) with
  | some f =>
      simp only [find_of_found hFound]
      exact ⟨[], .refl ..⟩
  | none =>
      have hOpened : (c.count fun n => { n with methods := n.methods + 1 }) = c.methodOpened := rfl
      rcases hBegun : c.methodOpened.beginSpan .driver "method" ctx.span with ⟨span, d⟩
      have hOpen := inside_beginSpan hBegun
      obtain ⟨tracer, rfl⟩ := beginSpan_eq hBegun
      simp only [find_of_missing hFound, hOpened, hBegun, newUnit_eq]
      cases WorkUnit.new m with
      | error e => exact tells_failed hOpen ..
      | ok u =>
          simp only [Except.map]
          obtain ⟨hTracer, hSpan⟩ := tracer_prepared { c.methodOpened with tracer } span.id u
          generalize Compiler.prepared _ span.id u = v at hTracer hSpan ⊢
          have hBuilt := v.points_buildMethod
          generalize v.buildMethod = build at hBuilt ⊢
          have hInside := (hTracer ▸ hOpen).points hBuilt.tracer
          cases hChecked : checked build with
          | error e => exact tells_failed hInside ..
          | ok w =>
              obtain rfl := eq_ok_of_checked hChecked
              have hReplied := inside_reply hBackend hInside (hBuilt.span.trans hSpan) (by decide)
                c.state (ctx.canceled 0)
              dsimp only
              split
              next => exact tells_failed hReplied ..
              next => exact tells_succeeded hReplied ..

/-- However a call ends, it ends its spans. -/
theorem tells_compile (r : Request) :
    ∃ events, Tells Scope.driver.depth ctx.span c.tracer events
      (c.compile arena ctx r).compiler.tracer := by
  cases r with
  | trace t => exact tells_compileTrace hBackend arena ctx t
  | method m => exact tells_compileMethod hBackend arena ctx m
  | noTrace label => exact ⟨[], .refl ..⟩
  | noMethod => exact ⟨[], .refl ..⟩

end Calls

/-- No call changes the backend. -/
theorem compile_backend (c : Compiler σ) (arena : Arena) (ctx : Context) (r : Request) :
    (c.compile arena ctx r).compiler.backend = c.backend :=
  c.answer_backend ⟨r, arena, ctx⟩

/-! ### Many requests -/

/-- Calls lie one behind the other in the span of the caller, whether the requests are worked off
to the end, the caller gives up or a broken invariant ends them. -/
theorem tells_runRequests (ctx : BatchContext) (stopAtAbort : Bool) (index : Nat)
    (requests : List Request) (arena : Arena) {b : BatchEnd σ}
    (hBackend : b.compiler.backend.Nests) :
    (∃ events, Tells Scope.driver.depth ctx.span b.compiler.tracer events
      (runRequests ctx stopAtAbort index requests arena b).compiler.tracer) ∧
    (runRequests ctx stopAtAbort index requests arena b).compiler.backend =
      b.compiler.backend := by
  induction requests generalizing index arena b with
  | nil => exact ⟨⟨[], .refl ..⟩, rfl⟩
  | cons r rest ih =>
      have hCall := tells_compile hBackend arena (ctx.request index) r
      have hKept := b.compiler.compile_backend arena (ctx.request index) r
      rw [runRequests]
      split
      next => exact ⟨⟨[], .refl ..⟩, rfl⟩
      next =>
          dsimp only
          split
          next => exact ⟨hCall, hKept⟩
          next =>
              obtain ⟨hRest, hKeptRest⟩ := ih (index + 1)
                (b.compiler.compile arena (ctx.request index) r).arena
                (b := { compiler := (b.compiler.compile arena (ctx.request index) r).compiler
                        outcomes := _, events := _, aborts := _, canceled := _, left := _ })
                (hKept ▸ hBackend)
              exact ⟨Tells.exists_trans hCall hRest, hKeptRest.trans hKept⟩

/-- Requests are left at a broken invariant only where that is asked for. -/
theorem left_runRequests (ctx : BatchContext) (index : Nat) (requests : List Request)
    (arena : Arena) {b : BatchEnd σ} (hOn : b.left = false) :
    (runRequests ctx false index requests arena b).left = false := by
  induction requests generalizing index arena b with
  | nil => exact hOn
  | cons r rest ih =>
      rw [runRequests]
      split
      next => exact hOn
      next => exact ih _ _ rfl

/-- A batch has a span of its own around its calls. -/
theorem tells_batch {c : Compiler σ} (hBackend : c.backend.Nests) (ctx : BatchContext)
    (requests : List Request) :
    (∃ events, Tells Scope.driver.depth ctx.span c.tracer events
      (c.batch ctx requests false).compiler.tracer) ∧
    (c.batch ctx requests false).compiler.backend = c.backend := by
  unfold batch
  split
  next => exact ⟨⟨[], .refl ..⟩, rfl⟩
  next =>
      rcases hBegun : c.beginSpan .driver "batch" ctx.span with ⟨span, d⟩
      have hOpen := inside_beginSpan hBegun
      obtain ⟨tracer, rfl⟩ := beginSpan_eq hBegun
      let start : BatchEnd σ :=
        { compiler := { c with tracer }, outcomes := [], aborts := []
          events := requests.mapIdx fun i r => { index := i, name := r.name, status := .queued } }
      have hOn := left_runRequests { ctx with span := span.id } 0 requests {} (b := start) rfl
      obtain ⟨hCalls, hKept⟩ := tells_runRequests { ctx with span := span.id } false 0 requests {}
        (b := start) hBackend
      have hInside := (hOpen.tells hCalls (UInt8.le_refl _)).noted "requests"
        (toString requests.length)
      simp only [start] at hOn hInside hKept
      simp only [hOn, Bool.false_eq_true, if_false]
      exact ⟨hInside.finish (UInt8.le_refl _) "", hKept⟩

/-- What a compiler is put to: a call, a batch on one worker, or requests that are worked off one
after the other up to a broken invariant. -/
inductive Work where
  | call (k : Call)
  | batch (ctx : BatchContext) (requests : List Request)
  | all (ctx : BatchContext) (requests : List Request)

/-- Number of the span that the caller stands in. -/
def Work.span : Work → Nat
  | .call k => k.context.span
  | .batch ctx _ => ctx.span
  | .all ctx _ => ctx.span

def work (c : Compiler σ) : Work → Compiler σ
  | .call k => (c.answer k).compiler
  | .batch ctx requests => (c.batch ctx requests false).compiler
  | .all ctx requests => (c.compileAll ctx requests).compiler

/-- Every piece of work begins and ends its spans under that of its caller. -/
theorem tells_work {c : Compiler σ} (hBackend : c.backend.Nests) (w : Work) :
    (∃ events, Tells Scope.driver.depth w.span c.tracer events (c.work w).tracer) ∧
      (c.work w).backend = c.backend := by
  cases w with
  | call k => exact ⟨tells_compile hBackend k.arena k.context k.request, c.answer_backend k⟩
  | batch ctx requests => exact tells_batch hBackend ctx requests
  | all ctx requests =>
      exact tells_runRequests ctx true 0 requests {}
        (b := { compiler := c, outcomes := [], events := [], aborts := [] }) hBackend

/-- What pieces of work tell, one after the other, is nested piece by piece. -/
theorem exists_nested_works {c : Compiler σ} (hBackend : c.backend.Nests) (works : List Work) :
    ∃ told : List (List Event),
      List.Forall₂ (fun w events => Event.Nested w.span events) works told ∧
        c.tracer.Emits told.flatten (works.foldl work c).tracer := by
  induction works generalizing c with
  | nil => exact ⟨[], .nil, .refl _⟩
  | cons w rest ih =>
      obtain ⟨⟨events, hTells⟩, hKept⟩ := tells_work hBackend w
      obtain ⟨told, hNested, hEmits⟩ := ih (c := c.work w) (hKept ▸ hBackend)
      exact ⟨events :: told, .cons (hTells.nested w.span [] fun _ => rfl) hNested,
        hTells.emits.trans hEmits⟩

/-- Spans are well nested. Whatever the tracer, and whatever the calls, batches and lists of
requests come to, each of these ends all spans that it begins, the innermost one first and under its
own number, parent, scope and name; each span begins inside the innermost one that is open, or else
in that of the caller; and numbers of spans ascend. The reports are those that the sinks have taken
and the streams have written, and an empty ring at the level of the tracer shows them, beginnings
and ends of spans all included. -/
theorem spans_wellNested (c : Compiler Assembler) (hNative : c.backend = Assembler.compile)
    (works : List Work) :
    ∃ told : List (List Event),
      List.Forall₂ (fun w events => Event.Nested w.span events) works told ∧
      (Event.begun told.flatten).Pairwise (· < ·) ∧
      (∀ id ∈ Event.begun told.flatten, c.tracer.spans < id) ∧
      (works.foldl work c).tracer.sinks = (told.flatten.foldl Tracer.emit c.tracer).sinks ∧
      (c.tracer.Plain →
        (works.foldl work c).tracer.output =
          (told.flatten.foldl Tracer.emit c.tracer).output) ∧
      (∀ e ∈ told.flatten, e.kind = .spanBegin ∨ e.kind = .spanEnd →
        e.passes c.tracer.level = true) ∧
      ∀ (k capacity : Nat), 0 < capacity →
        c.tracer.sinks[k]? = some (.ring (.empty capacity c.tracer.level)) →
        ∃ r, (works.foldl work c).tracer.sinks[k]? = some (.ring r) ∧
          r.ShowsLatest capacity (told.flatten.filter (·.passes c.tracer.level)) := by
  obtain ⟨told, hNested, hEmits⟩ := exists_nested_works (c := c)
    (hNative ▸ Assembler.nests_compile) works
  refine ⟨told, hNested, ?_, fun id hId => ?_, hEmits.sinks, hEmits.output, hEmits.passes,
    fun k capacity hRoom hRing => ?_⟩
  · rw [hEmits.begun]
    exact List.pairwise_lt_range'
  · rw [hEmits.begun, List.mem_range'_1] at hId
    omega
  · have hEmpty : (Ring.empty capacity c.tracer.level).Recorded capacity c.tracer.level []
        c.tracer.seq :=
      ⟨rfl, rfl, [], Ring.stored_empty capacity _, rfl, List.Pairwise.nil, by simp⟩
    obtain ⟨r, hFinal, hRecorded⟩ := Tracer.exists_recorded_foldl hRoom hRing hEmpty told.flatten
    exact ⟨r, hEmits.sinks ▸ hFinal, hRecorded.showsLatest⟩

/-- A compiler that reports everything to a ring and has begun seven spans. -/
def watched : Compiler Assembler :=
  { idle with tracer := { level := .debug, sinks := [.ring (.empty 32 .debug)], spans := 7 } }

/-- A trace that fits at the second attempt, called from within span 7; a batch in which the caller
gives up after the first request, which is canceled; and a request that nothing comes of. -/
def triedWorks : List Work :=
  [.call { request := .trace WorkUnit.loopTrace, context := { span := 7 } },
    .batch { gone := (· = 1), canceled := fun _ _ => true }
      [.method WorkUnit.loopTrace.method, .noMethod],
    .all {} [.noMethod]]

/-- A batch with a trace that is too large at first and with a method, and a call on its own, seen
by a ring of full detail. -/
theorem spans_wellNested_tried :
    watched.backend = Assembler.compile ∧
    (triedWorks.foldl work watched).tracer.ring?.map (fun r =>
        r.snapshot.map fun e => (e.kind, e.span, e.parent)) =
      some [(.spanBegin, 8, 7), (.spanBegin, 9, 8), (.spanBegin, 10, 9), (.spanEnd, 10, 9),
        (.spanBegin, 11, 9), (.spanEnd, 11, 9), (.spanEnd, 9, 8), (.spanBegin, 12, 8),
        (.spanBegin, 13, 12), (.spanEnd, 13, 12), (.spanBegin, 14, 12), (.spanEnd, 14, 12),
        (.spanEnd, 12, 8), (.spanEnd, 8, 7), (.spanBegin, 15, 0), (.spanBegin, 16, 15),
        (.spanEnd, 16, 15), (.spanEnd, 15, 0)] ∧
    ∃ told : List (List Event),
      List.Forall₂ (fun w events => Event.Nested w.span events) triedWorks told ∧
      (triedWorks.foldl work watched).tracer.sinks =
        (told.flatten.foldl Tracer.emit watched.tracer).sinks := by
  obtain ⟨told, hNested, -, -, hSinks, -⟩ := spans_wellNested watched rfl triedWorks
  exact ⟨rfl, by decide +kernel, told, hNested, hSinks⟩

end Compiler

end TraceJit
