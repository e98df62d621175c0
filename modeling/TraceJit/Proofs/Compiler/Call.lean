import TraceJit.Compiler.Batch
import TraceJit.Proofs.Graph.TraceEnds

/-!
What one call of the compiler does, step by step. An attempt ends in one of three ways; the loop
over ceilings is followed round by round, without a bound on their number; and a call for a method
ends in one of five ways. Everything that is said about calls is derived from this.
-/

namespace TraceJit

theorem WorkUnit.trace_of_new {m : Method} {u : WorkUnit} (hNew : WorkUnit.new m = .ok u) :
    u.trace = none := by
  unfold WorkUnit.new at hNew
  split at hNew
  next => cases hNew
  next =>
      split at hNew
      next => cases hNew
      next =>
          cases hNew
          rfl

theorem WorkUnit.sayEnd_numInsts (u : WorkUnit) (tooLarge : Bool) :
    (u.sayEnd tooLarge).numInsts = u.numInsts := by
  cases tooLarge <;> rfl

theorem Settings.problems_of_valid {s : Settings} (hValid : s.invalid? = none) :
    s.problems = [] := by
  unfold invalid? at hValid
  split at hValid
  next hEmpty => exact hEmpty
  next => cases hValid

/-- Valid settings leave room for an instruction and for a translation. -/
theorem Settings.pos_of_valid {s : Settings} (hValid : s.invalid? = none) :
    0 < s.maxTraceInsns ∧ 0 < s.lookupCacheSize := by
  have hNone := problems_of_valid hValid
  simp only [problems, List.append_eq_nil_iff] at hNone
  obtain ⟨⟨⟨⟨hInsns, hSize⟩, _⟩, _⟩, _⟩ := hNone
  constructor
  · by_contra hNot
    rw [if_pos (Int.not_lt.mp hNot)] at hInsns
    cases hInsns
  · by_contra hNot
    rw [if_pos (Int.not_lt.mp hNot)] at hSize
    cases hSize

/-- Valid settings leave room for more than a header. -/
theorem Settings.headerBytes_lt_of_valid {s : Settings} (hValid : s.invalid? = none) :
    (headerBytes : Int) < s.maxFragmentBytes := by
  have hNone := problems_of_valid hValid
  simp only [problems, List.append_eq_nil_iff] at hNone
  by_contra hNot
  rw [if_pos (Int.not_lt.mp hNot)] at hNone
  cases hNone.1.2

theorem Span.noted_id (s : Span) (key value : String) : (s.noted key value).id = s.id := by
  unfold noted
  split <;> rfl

namespace Compiler

variable {σ : Type}

/-- A compiler that has done nothing yet, with room for little code. -/
def idle : Compiler Assembler :=
  { settings := {}, backend := Assembler.compile, state := .new (.empty 0x1000 64) 64,
    filter := none, lookup := .new 2, counters := {}, tracer := .nop }

/-- A compiler that is set up begins with nothing. -/
theorem new_ok {settings : Settings} {backend : Backend σ} {state : σ} {tracer : Tracer}
    {c : Compiler σ} (hNew : Compiler.new settings (some backend) state tracer = .ok c) :
    settings.invalid? = none ∧
      c = { settings, backend, state, filter := MethodFilter.ofSettings settings.filter,
            lookup := .new settings.lookupCacheSize.toNat, counters := {}, tracer } := by
  unfold Compiler.new at hNew
  cases hValid : settings.invalid? with
  | some e =>
      rw [hValid] at hNew
      cases hNew
  | none =>
      rw [hValid] at hNew
      exact ⟨rfl, (Except.ok.inj hNew).symm⟩

/-! ### Ends of a call -/

section Ends

variable (c : Compiler σ) (arena : Arena) (result : CompileResult) (e : CompileError)
  (detail : String) (span : Span)

@[simp] theorem count_backend (g : Counters → Counters) : (c.count g).backend = c.backend := rfl

/-- A failed call counts its failure and reports it, and a broken invariant to the caller too. -/
theorem failed_eq :
    ∃ (counters : Counters) (tracer : Tracer), c.failed arena result e detail span =
      { compiler := { c with counters, tracer }, arena, result, error := some e
        abort := if e.isInvariant then some e.message else none } := by
  unfold failed
  cases e.isInvariant with
  | true => exact ⟨_, _, rfl⟩
  | false => exact ⟨_, _, rfl⟩

@[simp] theorem failed_state :
    (c.failed arena result e detail span).compiler.state = c.state := by
  obtain ⟨_, _, hEnd⟩ := c.failed_eq arena result e detail span
  rw [hEnd]

@[simp] theorem failed_lookup :
    (c.failed arena result e detail span).compiler.lookup = c.lookup := by
  obtain ⟨_, _, hEnd⟩ := c.failed_eq arena result e detail span
  rw [hEnd]

@[simp] theorem failed_backend :
    (c.failed arena result e detail span).compiler.backend = c.backend := by
  obtain ⟨_, _, hEnd⟩ := c.failed_eq arena result e detail span
  rw [hEnd]

@[simp] theorem failed_settings :
    (c.failed arena result e detail span).compiler.settings = c.settings := by
  obtain ⟨_, _, hEnd⟩ := c.failed_eq arena result e detail span
  rw [hEnd]

@[simp] theorem failed_arena : (c.failed arena result e detail span).arena = arena := by
  obtain ⟨_, _, hEnd⟩ := c.failed_eq arena result e detail span
  rw [hEnd]

@[simp] theorem failed_result : (c.failed arena result e detail span).result = result := by
  obtain ⟨_, _, hEnd⟩ := c.failed_eq arena result e detail span
  rw [hEnd]

@[simp] theorem failed_error : (c.failed arena result e detail span).error = some e := by
  obtain ⟨_, _, hEnd⟩ := c.failed_eq arena result e detail span
  rw [hEnd]

@[simp] theorem failed_abort :
    (c.failed arena result e detail span).abort =
      if e.isInvariant then some e.message else none := by
  obtain ⟨_, _, hEnd⟩ := c.failed_eq arena result e detail span
  rw [hEnd]

end Ends

/-! ### Units -/

/-- The compiler once it has made one more unit. -/
def started (c : Compiler σ) : Compiler σ := c.count fun n => { n with units := n.units + 1 }

/-- A new unit with its number and its flags, in the span with number `span`. -/
def prepared (c : Compiler σ) (span : Nat) (u : WorkUnit) : WorkUnit :=
  let u :=
    { u with
      id := c.started.counters.units.toUInt64, print := c.settings.print, tracer := c.tracer, span }
  match c.filter with
  | some f => f.apply u
  | none => u

/-- The unit of an attempt at a trace that is made inside the span with number `parent`. -/
def traceUnit (c : Compiler σ) (parent : Nat) (t : Trace) (u : WorkUnit) : WorkUnit :=
  let (span, c) := c.beginSpan .attempt "attempt" parent
  { c.prepared span.id u with trace := some t }

theorem newUnit_eq (c : Compiler σ) (m : Method) (span : Nat) :
    c.newUnit m span = (WorkUnit.new m).map fun u => (c.prepared span u, c.started) := rfl

/-- A begun span shows in the tracer only. -/
theorem beginSpan_eq {c d : Compiler σ} {scope : Scope} {name : String} {parent : Nat} {span : Span}
    (hBegun : c.beginSpan scope name parent = (span, d)) :
    ∃ tracer, d = { c with tracer } := by
  cases hBegun
  exact ⟨_, rfl⟩

/-- Preparing a unit sets its number and how it is reported on and stepped, and nothing else. -/
theorem prepared_eq (c : Compiler σ) (span : Nat) (u : WorkUnit) :
    ∃ id print singleStep tracer,
      c.prepared span u = { u with id, print, singleStep, tracer, span } := by
  unfold prepared
  cases c.filter with
  | none => exact ⟨_, _, _, _, rfl⟩
  | some f => exact ⟨_, _, _, _, rfl⟩

section Units

variable (c : Compiler σ) (span parent : Nat) {u : WorkUnit} (t : Trace)

theorem fresh_prepared (hFresh : u.Fresh) : (c.prepared span u).Fresh := by
  obtain ⟨_, _, _, _, hUnit⟩ := c.prepared_eq span u
  rw [hUnit]
  exact ⟨hFresh.blocks, hFresh.nodes, hFresh.numInsts, hFresh.traceSize⟩

theorem trace_prepared : (c.prepared span u).trace = u.trace := by
  obtain ⟨_, _, _, _, hUnit⟩ := c.prepared_eq span u
  rw [hUnit]

/-- The unit of a trace is prepared and has the trace. -/
theorem traceUnit_eq (u : WorkUnit) :
    ∃ id print singleStep tracer span, c.traceUnit parent t u =
      { u with id, print, singleStep, tracer, span, trace := some t } := by
  rcases hBegun : c.beginSpan .attempt "attempt" parent with ⟨span, d⟩
  obtain ⟨id, print, singleStep, tracer, hUnit⟩ := d.prepared_eq span.id u
  refine ⟨id, print, singleStep, tracer, span.id, ?_⟩
  rw [traceUnit, hBegun]
  dsimp only
  rw [hUnit]

theorem fresh_traceUnit (hFresh : u.Fresh) : (c.traceUnit parent t u).Fresh := by
  obtain ⟨_, _, _, _, _, hUnit⟩ := c.traceUnit_eq parent t u
  rw [hUnit]
  exact ⟨hFresh.blocks, hFresh.nodes, hFresh.numInsts, hFresh.traceSize⟩

theorem code_traceUnit : (c.traceUnit parent t u).code = u.code := by
  obtain ⟨_, _, _, _, _, hUnit⟩ := c.traceUnit_eq parent t u
  rw [hUnit]

end Units

/-! ### Attempts -/

/-- The three ends of an attempt at a trace. Whatever they are, the attempt may have reported
something. -/
inductive AttemptEnds (c : Compiler σ) (arena : Arena) (canceled : Bool) (t : Trace)
    (ceiling : Int) (parent : Nat) (a : Attempt σ) : Prop where
  /-- There is no unit for the method. -/
  | refused {e : UnitError} {tracer : Tracer} (hNew : WorkUnit.new t.method = .error e)
      (hCompiler : a.compiler = { c with tracer }) (hArena : a.arena = arena.reset)
      (hCompiled : a.compiled = 0) (hResult : a.result = .error (.unit e))
  /-- The build breaks off. -/
  | unbuilt {u : WorkUnit} {h : Halted} {tracer : Tracer} (hNew : WorkUnit.new t.method = .ok u)
      (hNot : ¬t.Buildable u.code ceiling.toNat)
      (hBuild : (c.traceUnit parent t u).buildTrace ceiling = .error h)
      (hStop : h.stop.isInvariant = false) (hCompiler : a.compiler = { c.started with tracer })
      (hArena : a.arena = (arena.charge h.unit.footprint).reset)
      (hCompiled : a.compiled = h.unit.numInsts)
      (hBounds : 0 ≤ h.unit.numInsts ∧ h.unit.numInsts ≤ ceiling)
      (hResult : a.result = .error (.build h.stop))
  /-- The unit is built and valid, and the backend has replied. -/
  | replied {u v : WorkUnit} {tracer : Tracer} (hNew : WorkUnit.new t.method = .ok u)
      (hBuildable : t.Buildable u.code ceiling.toNat)
      (hBuild : (c.traceUnit parent t u).buildTrace ceiling = .ok v) (hValid : v.invalid? = none)
      (hInsts : v.numInsts = (min ceiling.toNat (u.code.traceOffsets t.runs).length : Nat))
      (hCompiler : a.compiler =
        { c.started with tracer, state := (c.backend c.state canceled v.dump).state })
      (hArena : a.arena = (arena.charge v.footprint).reset) (hCompiled : a.compiled = v.numInsts)
      (hResult : a.result = (c.backend c.state canceled v.dump).result.mapError .backend)

section Attempts

variable {c : Compiler σ} {arena : Arena} {canceled : Bool} {t : Trace} {ceiling : Int}
  {parent : Nat} {a : Attempt σ}

/-- Every attempt ends in one of the ways listed. -/
theorem attemptEnds (c : Compiler σ) (arena : Arena) (canceled : Bool) (t : Trace) (parent : Nat)
    (hPos : 0 < ceiling) (hWord : ceiling < 2 ^ 63) :
    c.AttemptEnds arena canceled t ceiling parent
      (c.attemptTrace arena canceled t ceiling parent) := by
  obtain ⟨w, rfl⟩ : ∃ w : Int64, w.toInt = ceiling :=
    ⟨Int64.ofInt ceiling, Int64.toInt_ofInt_of_le (by omega) (by omega)⟩
  rcases hBegun : c.beginSpan .attempt "attempt" parent with ⟨span, d⟩
  obtain ⟨tracer, rfl⟩ := beginSpan_eq hBegun
  unfold attemptTrace
  simp only [hBegun, newUnit_eq, Span.noted_id]
  cases hNew : WorkUnit.new t.method with
  | error e => exact .refused hNew rfl rfl rfl rfl
  | ok u =>
      have hFresh := c.fresh_traceUnit parent t (WorkUnit.fresh_of_new hNew)
      have hCode : (c.traceUnit parent t u).code = u.code := c.code_traceUnit parent t
      have hUnit : { ({ c with tracer } : Compiler σ).prepared span.id u with trace := some t } =
          c.traceUnit parent t u := by
        rw [traceUnit, hBegun]
      simp only [Except.map, hUnit]
      by_cases hBuildable : t.Buildable (c.traceUnit parent t u).code w.toInt.toNat
      · obtain ⟨v, hBuild, hValid, hInsts⟩ :=
          WorkUnit.buildTrace_finished hFresh rfl hPos hBuildable
        have hBackend : ({ c with tracer } : Compiler σ).started.backend
            ({ c with tracer } : Compiler σ).started.state canceled v.dump =
              c.backend c.state canceled v.dump := rfl
        simp only [hBuild, checked, hValid, hBackend, WorkUnit.sayEnd_numInsts]
        rw [hCode] at hBuildable hInsts
        cases hReply : (c.backend c.state canceled v.dump).result with
        | error e =>
            refine .replied hNew hBuildable hBuild hValid hInsts rfl rfl rfl ?_
            exact (congrArg (Except.mapError CompileError.backend) hReply).symm
        | ok f =>
            refine .replied hNew hBuildable hBuild hValid hInsts rfl rfl rfl ?_
            exact (congrArg (Except.mapError CompileError.backend) hReply).symm
      · obtain ⟨h, hBuild, hStop, hBounds⟩ :=
          WorkUnit.buildTrace_broken_off hFresh rfl hPos hBuildable
        simp only [hBuild, checked]
        rw [hCode] at hBuildable
        exact .unbuilt hNew hBuildable hBuild hStop rfl rfl rfl hBounds rfl

/-- An attempt compiles no more than its ceiling allows. -/
theorem AttemptEnds.compiled_le (h : c.AttemptEnds arena canceled t ceiling parent a)
    (hPos : 0 < ceiling) : 0 ≤ a.compiled ∧ a.compiled ≤ ceiling := by
  cases h with
  | refused _ _ _ hCompiled => omega
  | unbuilt _ _ _ _ _ _ hCompiled hBounds => omega
  | replied _ _ _ _ hInsts _ _ hCompiled => omega

end Attempts

/-! ### The loop over ceilings -/

/-- Where the loop over ceilings stands. -/
structure Round (σ : Type) where
  compiler : Compiler σ
  arena : Arena
  ceiling : Int
  result : CompileResult
  /-- The span of the whole call. -/
  span : Span

namespace Round

variable (canceled : Nat → Bool) (t : Trace) (r : Round σ)

def attempt : Attempt σ :=
  r.compiler.attemptTrace r.arena (canceled r.result.ceilings.length) t r.ceiling r.span.id

def noted : CompileResult :=
  { r.result with
    ceilings := r.result.ceilings ++ [r.ceiling]
    phases := r.result.phases ++ (r.attempt canceled t).phases }

/-- The round after this one. -/
def next : Round σ where
  compiler := (r.attempt canceled t).compiler.count fun n =>
    { n with tooLarge := n.tooLarge + 1, retries := n.retries + 1 }
  arena := (r.attempt canceled t).arena
  ceiling := (r.attempt canceled t).compiled / 2
  result := r.noted canceled t
  span := r.span

/-- The loop from a round on, with the rounds in which it makes an attempt and with its end. It
goes on for as long as the backend asks for less, and no bound is set on how long that is. -/
inductive Runs : Round σ → List (Round σ) → Compiled σ → Prop where
  | exhausted {r : Round σ} (hCeiling : r.ceiling ≤ 0) :
      Runs r [] (r.compiler.failed r.arena r.result (.traceTooLarge r.result.key) "too large"
        r.span)
  | accepted {r : Round σ} {f : Fragment} (hCeiling : 0 < r.ceiling)
      (hResult : (r.attempt canceled t).result = .ok f) :
      Runs r [r] ((r.attempt canceled t).compiler.succeeded (r.attempt canceled t).arena
        { r.noted canceled t with fragment := f, insts := (r.attempt canceled t).compiled }
        (r.span.noted "attempts" (toString (r.noted canceled t).ceilings.length)))
  | failed {r : Round σ} {e : CompileError} (hCeiling : 0 < r.ceiling)
      (hResult : (r.attempt canceled t).result = .error e) (hOther : e.isTooLarge = false) :
      Runs r [r] ((r.attempt canceled t).compiler.failed (r.attempt canceled t).arena
        (r.noted canceled t) e e.message r.span)
  | again {r : Round σ} {e : CompileError} {rest : List (Round σ)} {o : Compiled σ}
      (hCeiling : 0 < r.ceiling) (hResult : (r.attempt canceled t).result = .error e)
      (hLarge : e.isTooLarge = true) (hRest : Runs (r.next canceled t) rest o) :
      Runs r (r :: rest) o

variable {r}

theorem attemptEnds (hPos : 0 < r.ceiling) (hWord : r.ceiling < 2 ^ 63) :
    r.compiler.AttemptEnds r.arena (canceled r.result.ceilings.length) t r.ceiling r.span.id
      (r.attempt canceled t) :=
  r.compiler.attemptEnds r.arena _ t r.span.id hPos hWord

/-- Ceilings go down by half at least. -/
theorem next_ceiling_lt (hPos : 0 < r.ceiling) (hWord : r.ceiling < 2 ^ 63) :
    (r.next canceled t).ceiling < r.ceiling := by
  have hBounds := (attemptEnds canceled t hPos hWord).compiled_le hPos
  change (r.attempt canceled t).compiled / 2 < r.ceiling
  omega

/-- Ceilings stay within a word. -/
theorem next_ceiling_word (hPos : 0 < r.ceiling) (hWord : r.ceiling < 2 ^ 63) :
    (r.next canceled t).ceiling < 2 ^ 63 :=
  Int.lt_trans (next_ceiling_lt canceled t hPos hWord) hWord

/-- The loop with as much fuel as its ceiling comes to its end. -/
theorem runs_attempts {fuel : Nat} (hFuel : r.ceiling.toNat < fuel) (hWord : r.ceiling < 2 ^ 63) :
    ∃ tried, Runs canceled t r tried
      (attempts canceled t r.span fuel r.compiler r.arena r.ceiling r.result) := by
  induction fuel generalizing r with
  | zero => omega
  | succ fuel ih =>
      rw [attempts]
      by_cases hCeiling : r.ceiling ≤ 0
      · rw [if_pos hCeiling]
        exact ⟨_, .exhausted hCeiling⟩
      · have hPos : 0 < r.ceiling := Int.lt_of_not_ge hCeiling
        have hAttempt : r.compiler.attemptTrace r.arena (canceled r.result.ceilings.length) t
            r.ceiling r.span.id = r.attempt canceled t := rfl
        rw [if_neg hCeiling]
        simp only [hAttempt]
        cases hResult : (r.attempt canceled t).result with
        | ok f => exact ⟨_, .accepted hPos hResult⟩
        | error e =>
            dsimp only
            cases hLarge : e.isTooLarge with
            | false => exact ⟨_, .failed hPos hResult hLarge⟩
            | true =>
                have hLess := next_ceiling_lt canceled t hPos hWord
                have hBounds := (attemptEnds canceled t hPos hWord).compiled_le hPos
                have hHalf : Int.tdiv (r.attempt canceled t).compiled 2 =
                    (r.attempt canceled t).compiled / 2 := Int.tdiv_eq_ediv_of_nonneg hBounds.1
                obtain ⟨rest, hRest⟩ := ih (r := r.next canceled t) (by omega)
                  (next_ceiling_word canceled t hPos hWord)
                rw [if_pos rfl, hHalf]
                exact ⟨_, .again hPos hResult hLarge hRest⟩

variable {canceled t}

/-- The ceilings of all attempts are noted in the result. -/
theorem Runs.result_eq {tried : List (Round σ)} {o : Compiled σ} (h : Runs canceled t r tried o) :
    o.result.ceilings = r.result.ceilings ++ tried.map (·.ceiling) ∧
      o.result.mode = r.result.mode ∧ o.result.cached = r.result.cached := by
  induction h with
  | exhausted => simp
  | accepted => simp [succeeded, noted]
  | failed => simp [noted]
  | again _ _ _ _ ih =>
      obtain ⟨hCeilings, hMode, hCached⟩ := ih
      refine ⟨?_, hMode, hCached⟩
      rw [hCeilings]
      simp [next, noted]

end Round

/-! ### Calls -/

/-- The result of a call for a trace before anything is done. -/
def traceResult (t : Trace) : CompileResult :=
  { key := t.key, method := t.method.ref, mode := "trace" }

/-- The result of a call for a method before anything is done. -/
def methodResult (m : Method) : CompileResult :=
  { key := "method:" ++ m.ref, method := m.ref, mode := "method" }

/-- The compiler once a fragment was looked up. -/
def touched (c : Compiler σ) (key : String) : Compiler σ :=
  { c with lookup := c.lookup.touch key }

/-- Nothing is used again where nothing is found. -/
theorem touched_of_missing {c : Compiler σ} {key : String} (hMissing : c.lookup.peek? key = none) :
    c.touched key = c := by
  rw [touched, LookupCache.touch, hMissing]

/-- What is found is used. -/
theorem find_of_found {c : Compiler σ} {key : String} {f : Fragment}
    (hFound : c.lookup.peek? key = some f) : c.find key = (some f, c.touched key) := by
  rw [find, hFound, touched]

/-- Finding nothing changes nothing. -/
theorem find_of_missing {c : Compiler σ} {key : String} (hMissing : c.lookup.peek? key = none) :
    c.find key = (none, c) := by
  rw [find, hMissing]
  exact congrArg (none, ·) (touched_of_missing hMissing)

/-- The compiler once it has counted a call for a trace. -/
def traceOpened (c : Compiler σ) : Compiler σ := c.count fun n => { n with traces := n.traces + 1 }

/-- The loop of a call for a trace before its first round. -/
def firstRound (c : Compiler σ) (arena : Arena) (ctx : Context) (t : Trace) : Round σ where
  compiler := (c.traceOpened.beginSpan .driver "trace" ctx.span).2
  arena := arena
  ceiling := c.settings.maxTraceInsns
  result := traceResult t
  span := (c.traceOpened.beginSpan .driver "trace" ctx.span).1

/-- A call for a trace, with the rounds in which it makes an attempt and with its end. -/
inductive TraceCall (c : Compiler σ) (arena : Arena) (ctx : Context) (t : Trace) :
    List (Round σ) → Compiled σ → Prop where
  | hit {f : Fragment} (hFound : c.lookup.peek? t.key = some f) :
      TraceCall c arena ctx t [] ((c.touched t.key).served arena (traceResult t) f)
  | miss {tried : List (Round σ)} {o : Compiled σ} (hMissing : c.lookup.peek? t.key = none)
      (hRuns : Round.Runs ctx.canceled t (c.firstRound arena ctx t) tried o) :
      TraceCall c arena ctx t tried o

/-- A call for a trace comes to its end. -/
theorem traceCall_compileTrace {c : Compiler σ} (arena : Arena) (ctx : Context) (t : Trace)
    (hWord : c.settings.maxTraceInsns < 2 ^ 63) :
    ∃ tried, c.TraceCall arena ctx t tried (c.compileTrace arena ctx t) := by
  unfold compileTrace
  cases hFound : c.lookup.peek? t.key with
  | some f =>
      simp only [find_of_found hFound]
      exact ⟨[], .hit hFound⟩
  | none =>
      simp only [find_of_missing hFound]
      obtain ⟨tried, hRuns⟩ := Round.runs_attempts ctx.canceled t
        (r := c.firstRound arena ctx t) (Nat.lt_succ_self _) hWord
      exact ⟨tried, .miss hFound hRuns⟩

/-- The compiler once it has counted a call for a method. -/
def methodOpened (c : Compiler σ) : Compiler σ :=
  c.count fun n => { n with methods := n.methods + 1 }

/-- The unit of a call for a method that is made inside the span with number `parent`. -/
def methodUnit (c : Compiler σ) (parent : Nat) (u : WorkUnit) : WorkUnit :=
  let (span, c) := c.methodOpened.beginSpan .driver "method" parent
  c.prepared span.id u

section MethodUnit

variable (c : Compiler σ) (parent : Nat) {u : WorkUnit}

theorem fresh_methodUnit (hFresh : u.Fresh) : (c.methodUnit parent u).Fresh :=
  fresh_prepared _ _ hFresh

theorem trace_methodUnit : (c.methodUnit parent u).trace = u.trace := trace_prepared _ _

end MethodUnit

/-- The ends of a call for a method. Whatever they are, the call may have reported something. -/
inductive MethodCall (c : Compiler σ) (arena : Arena) (ctx : Context) (m : Method) :
    Compiled σ → Prop where
  | hit {f : Fragment} (hFound : c.lookup.peek? ("method:" ++ m.ref) = some f) :
      MethodCall c arena ctx m
        ((c.touched ("method:" ++ m.ref)).served arena (methodResult m) f)
  /-- There is no unit for the method. -/
  | refused {e : UnitError} {detail : String} {tracer : Tracer} {span : Span}
      (hMissing : c.lookup.peek? ("method:" ++ m.ref) = none)
      (hNew : WorkUnit.new m = .error e) :
      MethodCall c arena ctx m
        ({ c.methodOpened with tracer }.failed arena.reset (methodResult m) (.unit e) detail span)
  /-- The build breaks off. -/
  | unbuilt {u : WorkUnit} {h : Halted} {detail : String} {tracer : Tracer} {span : Span}
      (hMissing : c.lookup.peek? ("method:" ++ m.ref) = none) (hNew : WorkUnit.new m = .ok u)
      (hBuild : (c.methodUnit ctx.span u).buildMethod = .error h) :
      MethodCall c arena ctx m
        ({ c.methodOpened.started with tracer }.failed (arena.charge h.unit.footprint).reset
          { methodResult m with phases := [⟨"build", ""⟩] } (.build h.stop) detail span)
  /-- The unit is built and valid, but the backend has no code for it. -/
  | rejected {u v : WorkUnit} {e : BackendError} {detail : String} {tracer : Tracer} {span : Span}
      (hMissing : c.lookup.peek? ("method:" ++ m.ref) = none) (hNew : WorkUnit.new m = .ok u)
      (hBuild : (c.methodUnit ctx.span u).buildMethod = .ok v) (hValid : v.invalid? = none)
      (hReply : (c.backend c.state (ctx.canceled 0) v.dump).result = .error e) :
      MethodCall c arena ctx m
        ({ c.methodOpened.started with
            tracer, state := (c.backend c.state (ctx.canceled 0) v.dump).state }.failed
          (arena.charge v.footprint).reset
          { methodResult m with phases := [⟨"build", ""⟩, ⟨"backend", ""⟩] } (.backend e) detail
          span)
  /-- The unit is built and valid, and the backend has code for it. -/
  | accepted {u v : WorkUnit} {f : Fragment} {tracer : Tracer} {span : Span}
      (hMissing : c.lookup.peek? ("method:" ++ m.ref) = none) (hNew : WorkUnit.new m = .ok u)
      (hBuild : (c.methodUnit ctx.span u).buildMethod = .ok v) (hValid : v.invalid? = none)
      (hReply : (c.backend c.state (ctx.canceled 0) v.dump).result = .ok f) :
      MethodCall c arena ctx m
        ({ c.methodOpened.started with
            tracer, state := (c.backend c.state (ctx.canceled 0) v.dump).state }.succeeded
          (arena.charge v.footprint).reset
          { methodResult m with
            fragment := f, insts := v.numInsts, phases := [⟨"build", ""⟩, ⟨"backend", ""⟩] }
          span)

/-- Every call for a method ends in one of the ways listed. -/
theorem methodCall_compileMethod (c : Compiler σ) (arena : Arena) (ctx : Context) (m : Method) :
    c.MethodCall arena ctx m (c.compileMethod arena ctx m) := by
  unfold compileMethod
  cases hFound : c.lookup.peek? ("method:" ++ m.ref) with
  | some f =>
      simp only [find_of_found hFound]
      exact .hit hFound
  | none =>
      have hOpened : (c.count fun n => { n with methods := n.methods + 1 }) = c.methodOpened := rfl
      rcases hBegun : c.methodOpened.beginSpan .driver "method" ctx.span with ⟨span, d⟩
      obtain ⟨tracer, rfl⟩ := beginSpan_eq hBegun
      simp only [find_of_missing hFound, hOpened, hBegun, newUnit_eq]
      cases hNew : WorkUnit.new m with
      | error e => exact .refused hFound hNew
      | ok u =>
          have hUnit : ({ c.methodOpened with tracer } : Compiler σ).prepared span.id u =
              c.methodUnit ctx.span u := by
            rw [methodUnit, hBegun]
          simp only [Except.map, hUnit]
          cases hBuild : (c.methodUnit ctx.span u).buildMethod with
          | error h => exact .unbuilt hFound hNew hBuild
          | ok v =>
              have hTrace : (c.methodUnit ctx.span u).trace = none := by
                rw [trace_methodUnit, WorkUnit.trace_of_new hNew]
              have hFresh := c.fresh_methodUnit ctx.span (WorkUnit.fresh_of_new hNew)
              have hValid := hFresh.valid_of_buildMethod hTrace hBuild
              have hBackend : ({ c.methodOpened with tracer } : Compiler σ).started.backend
                  ({ c.methodOpened with tracer } : Compiler σ).started.state (ctx.canceled 0)
                    v.dump = c.backend c.state (ctx.canceled 0) v.dump := rfl
              simp only [checked, hValid, hBackend]
              cases hReply : (c.backend c.state (ctx.canceled 0) v.dump).result with
              | error e => exact .rejected hFound hNew hBuild hValid hReply
              | ok f => exact .accepted hFound hNew hBuild hValid hReply

end Compiler

end TraceJit
