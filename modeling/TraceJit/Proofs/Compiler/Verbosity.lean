import Mathlib.Data.List.Forall2
import TraceJit.Compiler.Batch
import TraceJit.Proofs.Compiler.History
import TraceJit.Proofs.Graph.Verbosity

/-!
Verbosity makes no difference to what is compiled. A compiler prints or not, and reports to one
tracer or another, in the midst of every attempt; but two compilers that differ in nothing else
build the same units up to their reports, so they do the same in every attempt and in every call,
and differ in nothing else afterwards.
-/

namespace TraceJit

def Settings.withPrint (b : Bool) (s : Settings) : Settings := { s with print := b }

/-- The compiler with printing set to `b`, reporting to `tracer`. -/
def Compiler.reporting {σ : Type} (b : Bool) (tracer : Tracer) (c : Compiler σ) : Compiler σ :=
  { c with settings := c.settings.withPrint b, tracer }

/-- The compiler without its tracer and without printing. -/
def Compiler.quiet {σ : Type} (c : Compiler σ) : Compiler σ := c.reporting false .nop

/-- Two attempts end alike. Only what was reported may differ. -/
structure Attempt.Matches {σ : Type} (a a' : Attempt σ) : Prop where
  compiler : a'.compiler.quiet = a.compiler.quiet
  arena : a'.arena = a.arena
  compiled : a'.compiled = a.compiled
  result : a'.result = a.result
  phases : a'.phases = a.phases

/-- Two calls end alike. Only what was reported may differ. -/
structure Compiled.Matches {σ : Type} (o o' : Compiled σ) : Prop where
  compiler : o'.compiler.quiet = o.compiler.quiet
  arena : o'.arena = o.arena
  result : o'.result = o.result
  error : o'.error = o.error
  abort : o'.abort = o.abort

/-- Two calls ask for the same on the same arena, and are canceled at the same times. Their callers
may stand in different spans. -/
structure Call.Matches (k k' : Call) : Prop where
  request : k'.request = k.request
  arena : k'.arena = k.arena
  canceled : k'.context.canceled = k.context.canceled

/-! ### Units -/

/-- Builds that are alike up to reports have come to the same end. -/
theorem Build.cases_of_quiet_eq {x y : Build} (h : y.quiet = x.quiet) :
    (∃ u v, x = .ok u ∧ y = .ok v ∧ v.quiet = u.quiet) ∨
      ∃ g k, x = .error g ∧ y = .error k ∧ k.stop = g.stop := by
  cases x with
  | ok u =>
      cases y with
      | ok v => exact .inl ⟨u, v, rfl, rfl, Except.ok.inj h⟩
      | error k => cases h
  | error g =>
      cases y with
      | ok v => cases h
      | error k =>
          simp only [quiet, Except.error.injEq, Halted.mk.injEq] at h
          exact .inr ⟨g, k, rfl, rfl, h.1⟩

theorem Build.unit_of_quiet_eq {x y : Build} (h : y.quiet = x.quiet) :
    y.unit.quiet = x.unit.quiet := by
  have hUnit (z : Build) : z.unit.quiet = z.quiet.unit := by cases z <;> rfl
  rw [hUnit, hUnit, h]

namespace Compiler

variable {σ : Type}

/-- The checks of builds that are alike up to reports come out alike. -/
theorem checked_cases {x y : Build} (h : y.quiet = x.quiet) :
    (∃ u v, checked x = .ok u ∧ checked y = .ok v ∧ v.quiet = u.quiet) ∨
      ∃ e, checked x = .error e ∧ checked y = .error e := by
  rcases Build.cases_of_quiet_eq h with ⟨u, v, rfl, rfl, hQuiet⟩ | ⟨g, k, rfl, rfl, hStop⟩
  · have hInvalid : v.invalid? = u.invalid? := by
      rw [← WorkUnit.invalid?_quiet, hQuiet, WorkUnit.invalid?_quiet]
    simp only [checked, hInvalid]
    cases u.invalid? with
    | none => exact .inl ⟨u, v, rfl, rfl, hQuiet⟩
    | some message => exact .inr ⟨_, rfl, rfl⟩
  · exact .inr ⟨.build g.stop, rfl, by rw [checked, hStop]⟩

/-- The backend replies alike to units that are alike up to reports. -/
theorem reply_eq {backend : Backend σ} (hBackend : backend.IgnoresReports) {u v : WorkUnit}
    (hQuiet : v.quiet = u.quiet) (state : σ) (canceled : Bool) :
    (backend state canceled v.dump).result = (backend state canceled u.dump).result ∧
      (backend state canceled v.dump).state = (backend state canceled u.dump).state := by
  have hDump : v.dump.quiet = u.dump.quiet := hQuiet
  obtain ⟨hResult, hState⟩ := hBackend state canceled v.dump
  obtain ⟨hResult', hState'⟩ := hBackend state canceled u.dump
  rw [hResult, hState, hResult', hState', hDump]
  exact ⟨rfl, rfl⟩

section Alike

variable {c d : Compiler σ}

/-- Compilers that are alike up to reports differ in printing and in their tracers. -/
theorem exists_reporting (hSame : d.quiet = c.quiet) : ∃ b tracer, d = c.reporting b tracer := by
  obtain ⟨s, backend, state, filter, lookup, counters, tracer⟩ := d
  obtain ⟨s', _, _, _, _, _, _⟩ := c
  obtain ⟨insns, print, size, methods, base, bytes, maxBytes, jobs⟩ := s
  obtain ⟨_, _, _, _, _, _, _, _⟩ := s'
  simp only [quiet, reporting, Settings.withPrint, mk.injEq, Settings.mk.injEq] at hSame
  obtain ⟨⟨rfl, -, rfl, rfl, rfl, rfl, rfl, rfl⟩, rfl, rfl, rfl, rfl, rfl, -⟩ := hSame
  exact ⟨print, tracer, rfl⟩

theorem prepared_quiet (hSame : d.quiet = c.quiet) (span span' : Nat) (u : WorkUnit) :
    (d.prepared span' u).quiet = (c.prepared span u).quiet := by
  obtain ⟨b, tracer, rfl⟩ := exists_reporting hSame
  unfold prepared
  rw [show (c.reporting b tracer).filter = c.filter from rfl]
  cases c.filter with
  | none => rfl
  | some f => rfl

theorem count_quiet (hSame : d.quiet = c.quiet) (f : Counters → Counters) :
    (d.count f).quiet = (c.count f).quiet :=
  congrArg (fun c : Compiler σ => c.count f) hSame

/-- A span changes nothing but reports. -/
theorem beginSpan_quiet {scope : Scope} {name : String} {parent : Nat} {span : Span}
    {e : Compiler σ} (hBegun : c.beginSpan scope name parent = (span, e)) : e.quiet = c.quiet := by
  obtain ⟨tracer, rfl⟩ := beginSpan_eq hBegun
  rfl

theorem traceUnit_quiet (hSame : d.quiet = c.quiet) (parent parent' : Nat) (t : Trace)
    (u : WorkUnit) : (d.traceUnit parent' t u).quiet = (c.traceUnit parent t u).quiet := by
  rcases hBegun : c.beginSpan .attempt "attempt" parent with ⟨span, c₁⟩
  rcases hBegun' : d.beginSpan .attempt "attempt" parent' with ⟨span', d₁⟩
  have hBoth : d₁.quiet = c₁.quiet := by
    rw [beginSpan_quiet hBegun, beginSpan_quiet hBegun', hSame]
  rw [traceUnit, traceUnit, hBegun, hBegun']
  exact congrArg (fun v : WorkUnit => { v with trace := some t })
    (prepared_quiet hBoth span.id span'.id u)

theorem methodUnit_quiet (hSame : d.quiet = c.quiet) (parent parent' : Nat) (u : WorkUnit) :
    (d.methodUnit parent' u).quiet = (c.methodUnit parent u).quiet := by
  rcases hBegun : c.methodOpened.beginSpan .driver "method" parent with ⟨span, c₁⟩
  rcases hBegun' : d.methodOpened.beginSpan .driver "method" parent' with ⟨span', d₁⟩
  have hBoth : d₁.quiet = c₁.quiet := by
    rw [beginSpan_quiet hBegun, beginSpan_quiet hBegun']
    exact count_quiet hSame _
  rw [methodUnit, methodUnit, hBegun, hBegun']
  exact prepared_quiet hBoth span.id span'.id u

/-! ### Attempts and calls -/

/-- Two attempts that differ in reports have the same end. -/
theorem attemptTrace_matches (hBackend : c.backend.IgnoresReports) (hSame : d.quiet = c.quiet)
    (arena : Arena) (canceled : Bool) (t : Trace) (ceiling : Int) (parent parent' : Nat) :
    (c.attemptTrace arena canceled t ceiling parent).Matches
      (d.attemptTrace arena canceled t ceiling parent') := by
  have hUnits := traceUnit_quiet hSame parent parent' t
  obtain ⟨b, other, rfl⟩ := exists_reporting hSame
  rcases hBegun : c.beginSpan .attempt "attempt" parent with ⟨span, c₁⟩
  obtain ⟨tracer, rfl⟩ := beginSpan_eq hBegun
  rcases hBegun' : (c.reporting b other).beginSpan .attempt "attempt" parent' with ⟨span', d₁⟩
  obtain ⟨tracer', rfl⟩ := beginSpan_eq hBegun'
  simp only [traceUnit, hBegun, hBegun'] at hUnits
  unfold attemptTrace
  simp only [hBegun, hBegun', newUnit_eq, Span.noted_id]
  cases WorkUnit.new t.method with
  | error e => exact ⟨rfl, rfl, rfl, rfl, rfl⟩
  | ok u =>
      have hBuild := congrArg (fun x : WorkUnit => x.buildTrace ceiling) (hUnits u)
      simp only [WorkUnit.buildTrace_quiet] at hBuild
      simp only [Except.map]
      generalize ({ ({ c with tracer } : Compiler σ).prepared span.id u with
        trace := some t } : WorkUnit).buildTrace ceiling = x at hBuild ⊢
      generalize ({ ({ c.reporting b other with tracer := tracer' } : Compiler σ).prepared span'.id
        u with trace := some t } : WorkUnit).buildTrace ceiling = y at hBuild ⊢
      have hLeft := Build.unit_of_quiet_eq hBuild
      have hArena : y.unit.footprint = x.unit.footprint :=
        (congrArg WorkUnit.footprint hLeft :)
      have hInsts : y.unit.numInsts = x.unit.numInsts :=
        (congrArg WorkUnit.numInsts hLeft :)
      rw [hArena]
      rcases checked_cases hBuild with ⟨v, w, hv, hw, hQuiet⟩ | ⟨e, hx, hy⟩
      · obtain ⟨hResult, hState⟩ := reply_eq hBackend hQuiet c.state canceled
        have hCount : w.dump.numInsts = v.dump.numInsts :=
          (congrArg WorkUnit.numInsts hQuiet :)
        have hReply : ({ c with tracer } : Compiler σ).started.backend
          ({ c with tracer } : Compiler σ).started.state canceled v.dump =
            c.backend c.state canceled v.dump := rfl
        have hReply' : ({ c.reporting b other with tracer := tracer' } : Compiler σ).started.backend
          ({ c.reporting b other with tracer := tracer' } : Compiler σ).started.state canceled
            w.dump = c.backend c.state canceled w.dump := rfl
        simp only [hv, hw, hReply, hReply', hResult, hState, WorkUnit.sayEnd_numInsts, hCount]
        cases (c.backend c.state canceled v.dump).result with
        | error e => exact ⟨rfl, rfl, rfl, rfl, rfl⟩
        | ok f => exact ⟨rfl, rfl, rfl, rfl, rfl⟩
      · simp only [hx, hy, hInsts]
        exact ⟨rfl, rfl, rfl, rfl, rfl⟩

theorem attemptTrace_backend (c : Compiler σ) (arena : Arena) (canceled : Bool) (t : Trace)
    (ceiling : Int) (parent : Nat) :
    (c.attemptTrace arena canceled t ceiling parent).compiler.backend = c.backend := by
  rcases hBegun : c.beginSpan .attempt "attempt" parent with ⟨span, d⟩
  obtain ⟨tracer, rfl⟩ := beginSpan_eq hBegun
  unfold attemptTrace
  simp only [hBegun, newUnit_eq]
  cases WorkUnit.new t.method with
  | error e => rfl
  | ok u =>
      simp only [Except.map]
      split
      next => rfl
      next =>
          split
          next => rfl
          next => rfl

/-- Two calls that fail alike have the same end. -/
theorem failed_matches (hSame : d.quiet = c.quiet) (arena : Arena) (result : CompileResult)
    (e : CompileError) (detail detail' : String) (span span' : Span) :
    (c.failed arena result e detail span).Matches (d.failed arena result e detail' span') := by
  obtain ⟨b, tracer, rfl⟩ := exists_reporting hSame
  unfold failed
  cases e.isInvariant with
  | true => exact ⟨rfl, rfl, rfl, rfl, rfl⟩
  | false => exact ⟨rfl, rfl, rfl, rfl, rfl⟩

theorem succeeded_matches (hSame : d.quiet = c.quiet) (arena : Arena) (result : CompileResult)
    (span span' : Span) :
    (c.succeeded arena result span).Matches (d.succeeded arena result span') := by
  obtain ⟨b, tracer, rfl⟩ := exists_reporting hSame
  exact ⟨rfl, rfl, rfl, rfl, rfl⟩

/-- Two calls that are served have the same end. -/
theorem served_matches (hSame : d.quiet = c.quiet) (key : String) (arena : Arena)
    (result : CompileResult) (f : Fragment) :
    ((c.touched key).served arena result f).Matches ((d.touched key).served arena result f) := by
  obtain ⟨b, tracer, rfl⟩ := exists_reporting hSame
  exact ⟨rfl, rfl, rfl, rfl, rfl⟩

/-- The ceilings that are tried are the same, and so is what comes of them. -/
theorem attempts_matches (canceled : Nat → Bool) (t : Trace) (fuel : Nat)
    (hBackend : c.backend.IgnoresReports) (hSame : d.quiet = c.quiet) (arena : Arena)
    (ceiling : Int) (result : CompileResult) (span span' : Span) :
    (attempts canceled t span fuel c arena ceiling result).Matches
      (attempts canceled t span' fuel d arena ceiling result) := by
  induction fuel generalizing c d arena ceiling result with
  | zero => exact failed_matches hSame arena result _ _ _ span span'
  | succ fuel ih =>
      rw [attempts, attempts]
      split
      next => exact failed_matches hSame arena result _ _ _ span span'
      next =>
          have h := attemptTrace_matches hBackend hSame arena (canceled result.ceilings.length) t
            ceiling span.id span'.id
          have hKept := c.attemptTrace_backend arena (canceled result.ceilings.length) t ceiling
            span.id
          generalize c.attemptTrace arena (canceled result.ceilings.length) t ceiling span.id = a
            at h hKept
          dsimp only
          simp only [h.result, h.phases, h.compiled, h.arena]
          cases a.result with
          | ok f => exact succeeded_matches h.compiler a.arena _ _ _
          | error e =>
              dsimp only
              split
              next => exact ih (hKept ▸ hBackend) (count_quiet h.compiler _) a.arena _ _
              next => exact failed_matches h.compiler a.arena _ e _ _ _ _

theorem attempts_backend (canceled : Nat → Bool) (t : Trace) (fuel : Nat) (c : Compiler σ)
    (arena : Arena) (ceiling : Int) (result : CompileResult) (span : Span) :
    (attempts canceled t span fuel c arena ceiling result).compiler.backend = c.backend := by
  induction fuel generalizing c arena ceiling result with
  | zero => exact failed_backend ..
  | succ fuel ih =>
      rw [attempts]
      split
      next => exact failed_backend ..
      next =>
          have hKept := c.attemptTrace_backend arena (canceled result.ceilings.length) t ceiling
            span.id
          dsimp only
          split
          next => exact hKept
          next =>
              split
              next => rw [ih, count_backend, hKept]
              next => rw [failed_backend, hKept]

theorem answer_backend (c : Compiler σ) (k : Call) : (c.answer k).compiler.backend = c.backend := by
  unfold answer
  cases k.request with
  | trace t =>
      change (c.compileTrace k.arena k.context t).compiler.backend = _
      unfold compileTrace
      cases hFound : c.lookup.peek? t.key with
      | some f =>
          simp only [find_of_found hFound]
          rfl
      | none =>
          simp only [find_of_missing hFound]
          exact attempts_backend ..
  | method m => exact (kept_compileMethod c k.arena k.context m).1
  | noTrace => rfl
  | noMethod => rfl

end Alike

section Calls

variable {c d : Compiler σ} (hBackend : c.backend.IgnoresReports) (hSame : d.quiet = c.quiet)
  (arena : Arena) {ctx ctx' : Context} (hCanceled : ctx'.canceled = ctx.canceled)

include hBackend hSame hCanceled

/-- Two calls for one trace have the same end. -/
theorem compileTrace_matches (t : Trace) :
    (c.compileTrace arena ctx t).Matches (d.compileTrace arena ctx' t) := by
  have hLookup : d.lookup = c.lookup := (congrArg Compiler.lookup hSame :)
  unfold compileTrace
  cases hFound : c.lookup.peek? t.key with
  | some f =>
      have hFound' : d.lookup.peek? t.key = some f := hLookup ▸ hFound
      simp only [find_of_found hFound, find_of_found hFound']
      exact served_matches hSame t.key arena (traceResult t) f
  | none =>
      have hFound' : d.lookup.peek? t.key = none := hLookup ▸ hFound
      simp only [find_of_missing hFound, find_of_missing hFound']
      rcases hBegun : (c.count fun n => { n with traces := n.traces + 1 }).beginSpan .driver "trace"
        ctx.span with ⟨span, c₁⟩
      rcases hBegun' : (d.count fun n => { n with traces := n.traces + 1 }).beginSpan .driver
        "trace" ctx'.span with ⟨span', d₁⟩
      have hBoth : d₁.quiet = c₁.quiet := by
        rw [beginSpan_quiet hBegun, beginSpan_quiet hBegun']
        exact count_quiet hSame _
      have hBackend' : c₁.backend.IgnoresReports := by
        obtain ⟨tracer, rfl⟩ := beginSpan_eq hBegun
        exact hBackend
      have hCeiling : d₁.settings.maxTraceInsns = c₁.settings.maxTraceInsns :=
        (congrArg (fun c : Compiler σ => c.settings.maxTraceInsns) hBoth :)
      dsimp only
      rw [hCanceled, hCeiling]
      exact attempts_matches ctx.canceled t _ hBackend' hBoth arena _ _ span span'

/-- Two calls for one method have the same end. -/
theorem compileMethod_matches (m : Method) :
    (c.compileMethod arena ctx m).Matches (d.compileMethod arena ctx' m) := by
  have hLookup : d.lookup = c.lookup := (congrArg Compiler.lookup hSame :)
  have hUnits := methodUnit_quiet hSame ctx.span ctx'.span
  unfold compileMethod
  cases hFound : c.lookup.peek? ("method:" ++ m.ref) with
  | some f =>
      have hFound' : d.lookup.peek? ("method:" ++ m.ref) = some f := hLookup ▸ hFound
      simp only [find_of_found hFound, find_of_found hFound']
      exact served_matches hSame ("method:" ++ m.ref) arena (methodResult m) f
  | none =>
      have hFound' : d.lookup.peek? ("method:" ++ m.ref) = none := hLookup ▸ hFound
      have hOpened (e : Compiler σ) :
        (e.count fun n => { n with methods := n.methods + 1 }) = e.methodOpened := rfl
      simp only [find_of_missing hFound, find_of_missing hFound', hOpened]
      rcases hBegun : c.methodOpened.beginSpan .driver "method" ctx.span with ⟨span, c₁⟩
      rcases hBegun' : d.methodOpened.beginSpan .driver "method" ctx'.span with ⟨span', d₁⟩
      have hBoth : d₁.quiet = c₁.quiet := by
        rw [beginSpan_quiet hBegun, beginSpan_quiet hBegun']
        exact count_quiet hSame _
      simp only [methodUnit, hBegun, hBegun'] at hUnits
      simp only [newUnit_eq]
      cases WorkUnit.new m with
      | error e => exact failed_matches hBoth _ _ _ _ _ _ _
      | ok u =>
          have hBuild := congrArg WorkUnit.buildMethod (hUnits u)
          simp only [WorkUnit.buildMethod_quiet] at hBuild
          simp only [Except.map, hCanceled]
          generalize (c₁.prepared span.id u).buildMethod = x at hBuild ⊢
          generalize (d₁.prepared span'.id u).buildMethod = y at hBuild ⊢
          have hLeft := Build.unit_of_quiet_eq hBuild
          have hArena : y.unit.footprint = x.unit.footprint :=
            (congrArg WorkUnit.footprint hLeft :)
          have hStarted := count_quiet hBoth fun n => { n with units := n.units + 1 }
          rw [hArena]
          rcases checked_cases hBuild with ⟨v, w, hv, hw, hQuiet⟩ | ⟨e, hx, hy⟩
          · have hKeptBackend : c₁.backend = c.backend ∧ c₁.state = c.state := by
              obtain ⟨tracer, rfl⟩ := beginSpan_eq hBegun
              exact ⟨rfl, rfl⟩
            have hBackend' : d₁.backend = c₁.backend := (congrArg Compiler.backend hBoth :)
            have hState' : d₁.state = c₁.state := (congrArg Compiler.state hBoth :)
            have hCount : w.dump.numInsts = v.dump.numInsts :=
              (congrArg WorkUnit.numInsts hQuiet :)
            obtain ⟨hResult, hState⟩ := reply_eq hBackend hQuiet c.state (ctx.canceled 0)
            have hReply (e : Compiler σ) (z : WorkUnit) : e.started.backend e.started.state
              (ctx.canceled 0) z = e.backend e.state (ctx.canceled 0) z := rfl
            simp only [hv, hw, hReply, hBackend', hState', hKeptBackend.1, hKeptBackend.2, hResult,
              hState, hCount]
            have hStored := congrArg (fun e : Compiler σ =>
              { e with state := (c.backend c.state (ctx.canceled 0) v.dump).state }) hStarted
            cases (c.backend c.state (ctx.canceled 0) v.dump).result with
            | error e =>
                refine failed_matches ?_ _ _ _ _ _ _ _
                exact hStored
            | ok f =>
                refine succeeded_matches ?_ _ _ _ _
                exact hStored
          · simp only [hx, hy]
            refine failed_matches ?_ _ _ _ _ _ _ _
            exact hStarted

end Calls

/-- Two matching calls have matching ends. -/
theorem answer_matches {c d : Compiler σ} (hBackend : c.backend.IgnoresReports)
    (hSame : d.quiet = c.quiet) {k k' : Call} (hCalls : k.Matches k') :
    (c.answer k).Matches (d.answer k') := by
  obtain ⟨hRequest, hArena, hCanceled⟩ := hCalls
  obtain ⟨b, tracer, rfl⟩ := exists_reporting hSame
  unfold answer compile
  rw [hRequest, hArena]
  cases k.request with
  | trace t => exact compileTrace_matches hBackend hSame k.arena hCanceled t
  | method m => exact compileMethod_matches hBackend hSame k.arena hCanceled m
  | noTrace => exact ⟨rfl, rfl, rfl, rfl, rfl⟩
  | noMethod => exact ⟨rfl, rfl, rfl, rfl, rfl⟩

/-! ### Runs -/

def answers (c : Compiler σ) : List Call → List (Compiled σ)
  | [] => []
  | k :: rest => c.answer k :: (c.answer k).compiler.answers rest

/-- Compilers that are alike up to reports do the same in any calls. -/
theorem answers_matches {c d : Compiler σ} (hBackend : c.backend.IgnoresReports)
    (hSame : d.quiet = c.quiet) {calls calls' : List Call}
    (hCalls : List.Forall₂ Call.Matches calls calls') :
    List.Forall₂ Compiled.Matches (c.answers calls) (d.answers calls') ∧
      (d.afterCalls calls').quiet = (c.afterCalls calls).quiet := by
  induction hCalls generalizing c d with
  | nil => exact ⟨.nil, hSame⟩
  | @cons k k' _ _ hCall _ ih =>
      have hAnswer := answer_matches hBackend hSame hCall
      obtain ⟨hRest, hEnd⟩ := ih ((c.answer_backend k).symm ▸ hBackend) hAnswer.compiler
      exact ⟨.cons hAnswer hRest, hEnd⟩

theorem backend_of_withCache {settings : Settings} {backend : Backend Assembler} {tracer : Tracer}
    {c : Compiler Assembler} (hNew : Compiler.withCache settings (some backend) tracer = .ok c) :
    c.backend = backend := by
  unfold Compiler.withCache at hNew
  cases hCache : CodeCache.new settings.codeCacheBase settings.codeCacheBytes with
  | error e =>
      rw [hCache] at hNew
      cases hNew
  | ok cache =>
      rw [hCache] at hNew
      cases hCompiler : Compiler.new settings (some backend)
        (Assembler.new cache settings.maxFragmentBytes) tracer with
      | error e =>
          simp only [bind, Except.bind, hCompiler] at hNew
          cases hNew
      | ok d =>
          simp only [bind, Except.bind, hCompiler] at hNew
          obtain rfl := Except.ok.inj hNew
          rw [(new_ok hCompiler).2]

/-- Printing and reporting decide nothing about whether a compiler can be set up. -/
theorem withCache_reporting (settings : Settings) (backend : Option (Backend Assembler)) (b : Bool)
    (tracer tracer' : Tracer) :
    Compiler.withCache (settings.withPrint b) backend tracer' =
      (Compiler.withCache settings backend tracer).map (reporting b tracer') := by
  have hInvalid : (settings.withPrint b).invalid? = settings.invalid? := rfl
  unfold Compiler.withCache Compiler.new
  rw [hInvalid]
  change (CodeCache.new settings.codeCacheBase settings.codeCacheBytes >>= _) = _
  cases CodeCache.new settings.codeCacheBase settings.codeCacheBytes with
  | error e => rfl
  | ok cache =>
      cases settings.invalid? with
      | some e => rfl
      | none => cases backend <;> rfl

/-- Verbosity does not change compilation. Two compilers with the same settings but for printing,
and with any tracers, are set up or refused alike; and for any calls, whatever spans their callers
stand in, they give the same results and errors, and end with the same code cache, lookup cache and
counters. -/
theorem run_verbosity (settings : Settings) (b b' : Bool) (tracer tracer' : Tracer) :
    (∀ e, Compiler.withCache (settings.withPrint b) (some Assembler.compile) tracer = .error e ↔
      Compiler.withCache (settings.withPrint b') (some Assembler.compile) tracer' = .error e) ∧
    ∀ c c', Compiler.withCache (settings.withPrint b) (some Assembler.compile) tracer = .ok c →
      Compiler.withCache (settings.withPrint b') (some Assembler.compile) tracer' = .ok c' →
      ∀ calls calls', List.Forall₂ Call.Matches calls calls' →
        List.Forall₂ Compiled.Matches (c.answers calls) (c'.answers calls') ∧
          (c'.afterCalls calls').state = (c.afterCalls calls).state ∧
          (c'.afterCalls calls').lookup = (c.afterCalls calls).lookup ∧
          (c'.afterCalls calls').counters = (c.afterCalls calls).counters := by
  have hNew := withCache_reporting (settings.withPrint b) (some Assembler.compile) b' tracer tracer'
  change Compiler.withCache (settings.withPrint b') _ _ = _ at hNew
  rw [hNew]
  cases hFirst : Compiler.withCache (settings.withPrint b) (some Assembler.compile) tracer with
  | error e => simp [Except.map]
  | ok c =>
      refine ⟨fun e => by simp [Except.map], ?_⟩
      rintro _ _ ⟨⟩ ⟨⟩ calls calls' hCalls
      have hBackend : c.backend.IgnoresReports := by
        rw [backend_of_withCache hFirst]
        exact Assembler.ignoresReports_compile
      obtain ⟨hAnswers, hEnd⟩ := answers_matches hBackend
        (d := c.reporting b' tracer') rfl hCalls
      exact ⟨hAnswers, (congrArg Compiler.state hEnd :), (congrArg Compiler.lookup hEnd :),
        (congrArg Compiler.counters hEnd :)⟩

/-- A call for a trace, by a caller who stands in span 3. -/
def spannedCall : Call := { request := .trace WorkUnit.loopTrace, context := { span := 3 } }

/-- A trace is compiled in silence, and once more with 14 reports to a ring. -/
theorem run_verbosity_loop :
    ∃ c c', Compiler.withCache (Settings.withPrint false {}) (some Assembler.compile) .nop =
        .ok c ∧
      Compiler.withCache (Settings.withPrint true {}) (some Assembler.compile)
        (.ofRing (.empty 64 .debug)) = .ok c' ∧
      (c.afterCalls [{ request := .trace WorkUnit.loopTrace }]).tracer.seq = 0 ∧
      (c'.afterCalls [spannedCall]).tracer.seq = 14 ∧
      List.Forall₂ Compiled.Matches (c.answers [{ request := .trace WorkUnit.loopTrace }])
        (c'.answers [spannedCall]) := by
  have hSilent : (Compiler.withCache (Settings.withPrint false {}) (some Assembler.compile)
      .nop).toOption.any (fun c =>
        (c.afterCalls [{ request := .trace WorkUnit.loopTrace }]).tracer.seq = 0) = true := by
    decide +kernel
  have hLoud : (Compiler.withCache (Settings.withPrint true {}) (some Assembler.compile)
      (.ofRing (.empty 64 .debug))).toOption.any (fun c =>
        (c.afterCalls [spannedCall]).tracer.seq = 14) = true := by
    decide +kernel
  cases hFirst : Compiler.withCache (Settings.withPrint false {}) (some Assembler.compile) .nop with
  | error e =>
      rw [hFirst] at hSilent
      cases hSilent
  | ok c =>
      cases hSecond : Compiler.withCache (Settings.withPrint true {}) (some Assembler.compile)
          (.ofRing (.empty 64 .debug)) with
      | error e =>
          rw [hSecond] at hLoud
          cases hLoud
      | ok c' =>
          rw [hFirst] at hSilent
          rw [hSecond] at hLoud
          have hCalls : List.Forall₂ Call.Matches [{ request := .trace WorkUnit.loopTrace }]
            [spannedCall] := .cons ⟨rfl, rfl, rfl⟩ .nil
          exact ⟨c, c', rfl, rfl, of_decide_eq_true hSilent, of_decide_eq_true hLoud,
            ((run_verbosity {} false true .nop (.ofRing (.empty 64 .debug))).2 c c' hFirst hSecond
              _ _ hCalls).1⟩

end Compiler

end TraceJit
