import Mathlib.Data.List.Chain
import Mathlib.Data.Nat.Log
import TraceJit.Proofs.Compiler.Call

/-!
How often a trace is tried. From the second attempt on the ceiling is half of what the attempt
before compiled; the trace is known to be at least that long, and to be built up to there. So such
an attempt compiles exactly its ceiling, and the count is halved every time.
-/

namespace TraceJit

/-- How often a number can be halved until nothing is left. -/
def halvings (n : Nat) : Nat := if n = 0 then 0 else Nat.log 2 n + 1

/-- The steps from half of a number down to zero. -/
theorem halvings_half (n : Nat) : halvings (n / 2) = Nat.log 2 n := by
  unfold halvings
  by_cases hSmall : n < 2
  · rw [Nat.div_eq_of_lt hSmall, if_pos rfl, Nat.log_of_lt hSmall]
  · have hLarge : 2 ≤ n := Nat.le_of_not_lt hSmall
    rw [if_neg (by omega), Nat.log_of_one_lt_of_le (by decide) hLarge]

theorem halvings_of_pos {n : Nat} (hPos : 0 < n) : halvings n = Nat.log 2 n + 1 :=
  if_neg (Nat.ne_of_gt hPos)

namespace Compiler

variable {σ : Type} {c : Compiler σ} {arena : Arena} {canceled : Nat → Bool} {t : Trace}

namespace Round

/-- The attempt of this round builds `v`, which passes the check. -/
def Builds (t : Trace) (r : Round σ) (v : WorkUnit) : Prop :=
  ∃ u, WorkUnit.new t.method = .ok u ∧
    (r.compiler.traceUnit r.span.id t u).buildTrace r.ceiling = .ok v ∧ v.invalid? = none

/-- The backend finds the code of this round too large. -/
def Rejected (canceled : Nat → Bool) (t : Trace) (r : Round σ) : Prop :=
  ∃ size limit, (r.attempt canceled t).result = .error (.backend (.tooLarge size limit))

variable {r : Round σ} {tried : List (Round σ)} {o : Compiled σ}

theorem rejected_of_isTooLarge {e : CompileError}
    (hResult : (r.attempt canceled t).result = .error e) (hLarge : e.isTooLarge = true) :
    r.Rejected canceled t := by
  unfold CompileError.isTooLarge at hLarge
  split at hLarge
  next size limit => exact ⟨size, limit, hResult⟩
  next => cases hLarge

/-- Only the end of the loop says that a trace is too large. -/
theorem ne_traceTooLarge {e : CompileError} {key : String} (hPos : 0 < r.ceiling)
    (hWord : r.ceiling < 2 ^ 63) (hResult : (r.attempt canceled t).result = .error e) :
    e ≠ .traceTooLarge key := by
  rintro rfl
  cases attemptEnds canceled t hPos hWord with
  | refused _ _ _ _ hEnd => cases hEnd.symm.trans hResult
  | unbuilt _ _ _ _ _ _ _ _ hEnd => cases hEnd.symm.trans hResult
  | @replied _ v _ _ _ _ _ _ _ _ _ hEnd =>
      rw [hEnd] at hResult
      generalize (r.compiler.backend r.compiler.state (canceled r.result.ceilings.length)
        v.dump).result = reply at hResult
      cases reply <;> cases hResult

/-- A round whose unit is not built is the last one. -/
theorem isTooLarge_of_not_builds {e : CompileError} (hPos : 0 < r.ceiling)
    (hWord : r.ceiling < 2 ^ 63) (hNot : ¬∃ v, r.Builds t v)
    (hResult : (r.attempt canceled t).result = .error e) : e.isTooLarge = false := by
  cases attemptEnds canceled t hPos hWord with
  | refused _ _ _ _ hEnd =>
      cases hEnd.symm.trans hResult
      rfl
  | unbuilt _ _ _ _ _ _ _ _ hEnd =>
      cases hEnd.symm.trans hResult
      rfl
  | replied hNew _ hBuild hValid => exact absurd ⟨_, _, hNew, hBuild, hValid⟩ hNot

/-- A round builds a unit exactly if the trace can be built that far, and it compiles the unit. -/
theorem Builds.spec {v : WorkUnit} (h : r.Builds t v) (canceled : Nat → Bool)
    (hPos : 0 < r.ceiling) (hWord : r.ceiling < 2 ^ 63) :
    ∃ u, WorkUnit.new t.method = .ok u ∧ t.Buildable u.code r.ceiling.toNat ∧
      v.numInsts = (min r.ceiling.toNat (u.code.traceOffsets t.runs).length : Nat) ∧
      (r.attempt canceled t).compiled = v.numInsts := by
  obtain ⟨u, hNew, hBuild, _⟩ := h
  cases attemptEnds canceled t hPos hWord with
  | refused hNew' => cases hNew.symm.trans hNew'
  | unbuilt hNew' _ hBuild' =>
      obtain rfl := Except.ok.inj (hNew.symm.trans hNew')
      cases hBuild.symm.trans hBuild'
  | replied hNew' hBuildable hBuild' _ hInsts _ _ hCompiled =>
      obtain rfl := Except.ok.inj (hNew.symm.trans hNew')
      obtain rfl := Except.ok.inj (hBuild.symm.trans hBuild')
      exact ⟨u, hNew, hBuildable, hInsts, hCompiled⟩

/-- A trace whose instructions fit is built under every ceiling. -/
theorem exists_builds {u : WorkUnit} (hNew : WorkUnit.new t.method = .ok u)
    (hBuildable : t.Buildable u.code r.ceiling.toNat) (hPos : 0 < r.ceiling)
    (hWord : r.ceiling < 2 ^ 63) : ∃ v, r.Builds t v := by
  cases attemptEnds (fun _ => false) t hPos hWord with
  | refused hNew' => cases hNew.symm.trans hNew'
  | unbuilt hNew' hNot =>
      obtain rfl := Except.ok.inj (hNew.symm.trans hNew')
      exact absurd hBuildable hNot
  | replied hNew' _ hBuild hValid => exact ⟨_, _, hNew', hBuild, hValid⟩

namespace Runs

theorem eq_of_mem_head? (h : Runs canceled t r tried o) {x : Round σ} (hx : x ∈ tried.head?) :
    x = r := by
  cases h with
  | exhausted => cases hx
  | accepted => exact (Option.mem_some.mp hx).symm
  | failed => exact (Option.mem_some.mp hx).symm
  | again => exact (Option.mem_some.mp hx).symm

/-- Each ceiling is half of what the attempt before it has compiled. -/
theorem isChain (h : Runs canceled t r tried o) :
    tried.IsChain fun x y => y.ceiling = (x.attempt canceled t).compiled / 2 := by
  induction h with
  | exhausted => exact .nil
  | accepted => exact .singleton _
  | failed => exact .singleton _
  | again _ _ _ hRest ih =>
      refine List.isChain_cons.mpr ⟨fun y hy => ?_, ih⟩
      rw [hRest.eq_of_mem_head? hy]
      rfl

/-- No attempt compiles more than its ceiling. -/
theorem compiled_le (h : Runs canceled t r tried o) (hWord : r.ceiling < 2 ^ 63) :
    ∀ x ∈ tried, (x.attempt canceled t).compiled ≤ x.ceiling := by
  have hOwn : ∀ {x : Round σ}, 0 < x.ceiling → x.ceiling < 2 ^ 63 →
      (x.attempt canceled t).compiled ≤ x.ceiling :=
    fun hPos hWord => ((attemptEnds canceled t hPos hWord).compiled_le hPos).2
  induction h with
  | exhausted => simp
  | accepted hCeiling => simpa using hOwn hCeiling hWord
  | failed hCeiling => simpa using hOwn hCeiling hWord
  | again hCeiling _ _ _ ih =>
      refine List.forall_mem_cons.mpr ⟨hOwn hCeiling hWord, ih ?_⟩
      exact next_ceiling_word canceled t hCeiling hWord

/-- What is known of the rounds from some ceiling on. -/
structure Spent (canceled : Nat → Bool) (t : Trace) (bound : Nat) (tried : List (Round σ))
    (o : Compiled σ) : Prop where
  builds : ∀ x ∈ tried, ∃ v, x.Builds t v
  length_le : tried.length ≤ bound
  gaveUp : ∀ key, o.error = some (.traceTooLarge key) →
    tried.length = bound ∧ ∀ x ∈ tried, x.Rejected canceled t

/-- A round that builds a unit, and all rounds after it, given what those after it come to. -/
theorem spent_of_builds (h : Runs canceled t r tried o) (hPos : 0 < r.ceiling)
    (hWord : r.ceiling < 2 ^ 63) {v : WorkUnit} (hBuilds : r.Builds t v)
    (hLater : ∀ rest, Runs canceled t (r.next canceled t) rest o →
      Spent canceled t (Nat.log 2 v.numInsts.toNat) rest o) :
    Spent canceled t (Nat.log 2 v.numInsts.toNat + 1) tried o := by
  cases h with
  | exhausted hCeiling => exact absurd hPos (Int.not_lt.mpr hCeiling)
  | accepted => exact ⟨by simpa using ⟨v, hBuilds⟩, by simp, fun key hError => by cases hError⟩
  | failed _ hResult =>
      refine ⟨by simpa using ⟨v, hBuilds⟩, by simp, fun key hError => ?_⟩
      rw [failed_error] at hError
      exact absurd (Option.some.inj hError) (ne_traceTooLarge hPos hWord hResult)
  | again _ hResult hLarge hRest =>
      have hSpent := hLater _ hRest
      refine ⟨List.forall_mem_cons.mpr ⟨⟨v, hBuilds⟩, hSpent.builds⟩,
        Nat.succ_le_succ hSpent.length_le, fun key hError => ?_⟩
      obtain ⟨hLength, hRejected⟩ := hSpent.gaveUp key hError
      exact ⟨congrArg Nat.succ hLength,
        List.forall_mem_cons.mpr ⟨rejected_of_isTooLarge hResult hLarge, hRejected⟩⟩

/-- A trace that can be built up to the ceiling and is as long is halved in every round. -/
theorem spent (h : Runs canceled t r tried o) (hWord : r.ceiling < 2 ^ 63) {u : WorkUnit}
    (hNew : WorkUnit.new t.method = .ok u) (hBuildable : t.Buildable u.code r.ceiling.toNat)
    (hShort : r.ceiling.toNat ≤ (u.code.traceOffsets t.runs).length) :
    Spent canceled t (halvings r.ceiling.toNat) tried o := by
  induction hMeasure : r.ceiling.toNat using Nat.strongRecOn generalizing r tried with
  | ind n ih =>
      rcases Int.lt_or_le 0 r.ceiling with hPos | hCeiling
      · obtain ⟨v, hBuilds⟩ := exists_builds hNew hBuildable hPos hWord
        obtain ⟨u', hNew', _, hInsts, hCompiled⟩ := hBuilds.spec canceled hPos hWord
        obtain rfl := Except.ok.inj (hNew.symm.trans hNew')
        have hAll : v.numInsts.toNat = n := by omega
        have hHalf : (r.next canceled t).ceiling.toNat = n / 2 := by
          change ((r.attempt canceled t).compiled / 2).toNat = _
          omega
        rw [halvings_of_pos (by omega), ← hAll]
        refine h.spent_of_builds hPos hWord hBuilds fun rest hRest => ?_
        rw [← halvings_half, hAll]
        exact ih (n / 2) (by omega) hRest (next_ceiling_word canceled t hPos hWord)
          (hBuildable.mono (by omega)) (by omega) hHalf
      · have hZero : n = 0 := by omega
        cases h with
        | exhausted => exact ⟨by simp, by simp, by simp [hZero, halvings]⟩
        | accepted hPos => omega
        | failed hPos => omega
        | again hPos => omega

/-- The loop from a first round on that builds a unit. -/
theorem spent_first (h : Runs canceled t r tried o) (hPos : 0 < r.ceiling)
    (hWord : r.ceiling < 2 ^ 63) {v : WorkUnit} (hBuilds : r.Builds t v) :
    Spent canceled t (Nat.log 2 v.numInsts.toNat + 1) tried o := by
  obtain ⟨u, hNew, hBuildable, hInsts, hCompiled⟩ := hBuilds.spec canceled hPos hWord
  have hHalf : (r.next canceled t).ceiling.toNat = v.numInsts.toNat / 2 := by
    change ((r.attempt canceled t).compiled / 2).toNat = _
    omega
  refine h.spent_of_builds hPos hWord hBuilds fun rest hRest => ?_
  rw [← halvings_half, ← hHalf]
  exact hRest.spent (next_ceiling_word canceled t hPos hWord) hNew
    (hBuildable.mono (by omega)) (by omega)

/-- A first round that builds no unit is the only one, and not the loop but the attempt fails. -/
theorem single_of_not_builds (h : Runs canceled t r tried o) (hPos : 0 < r.ceiling)
    (hWord : r.ceiling < 2 ^ 63) (hNot : ¬∃ v, r.Builds t v) :
    tried = [r] ∧ ∀ key, o.error ≠ some (.traceTooLarge key) := by
  cases h with
  | exhausted hCeiling => exact absurd hPos (Int.not_lt.mpr hCeiling)
  | accepted => exact ⟨rfl, fun key hError => by cases hError⟩
  | failed _ hResult =>
      refine ⟨rfl, fun key hError => ?_⟩
      rw [failed_error] at hError
      exact ne_traceTooLarge hPos hWord hResult (Option.some.inj hError)
  | again _ hResult hLarge =>
      rw [isTooLarge_of_not_builds hPos hWord hNot hResult] at hLarge
      cases hLarge

/-- There is always a first attempt. -/
theorem exists_cons (h : Runs canceled t r tried o) (hPos : 0 < r.ceiling) :
    ∃ rest, tried = r :: rest := by
  cases h with
  | exhausted hCeiling => exact absurd hPos (Int.not_lt.mpr hCeiling)
  | accepted => exact ⟨[], rfl⟩
  | failed => exact ⟨[], rfl⟩
  | again => exact ⟨_, rfl⟩

end Runs

end Round

/-- What holds of the attempts of a call for a trace and of its end. -/
structure Halving (c : Compiler σ) (canceled : Nat → Bool) (t : Trace) (tried : List (Round σ))
    (o : Compiled σ) : Prop where
  /-- There is no attempt exactly if the fragment is found under its key. -/
  attempted : tried = [] ↔ ∃ f, c.lookup.peek? t.key = some f
  ceilings : o.result.ceilings = tried.map (·.ceiling)
  first : ∀ x ∈ tried.head?, x.ceiling = c.settings.maxTraceInsns
  halves : tried.IsChain fun x y => y.ceiling = (x.attempt canceled t).compiled / 2
  compiled_le : ∀ x ∈ tried, (x.attempt canceled t).compiled ≤ x.ceiling
  /-- No attempt after the first fails to build or to pass the check. -/
  builds : ∀ x ∈ tried.tail, ∃ v, x.Builds t v
  unbuilt : ∀ x ∈ tried.head?, (¬∃ v, x.Builds t v) → tried.length = 1
  length_le : ∀ x ∈ tried.head?, ∀ v, x.Builds t v →
    tried.length ≤ Nat.log 2 v.numInsts.toNat + 1
  /-- The call gives up only after all these attempts, each of them rejected for its size. -/
  gaveUp : ∀ key, o.error = some (.traceTooLarge key) →
    (∃ x ∈ tried.head?, ∃ v, x.Builds t v ∧ tried.length = Nat.log 2 v.numInsts.toNat + 1) ∧
    ∀ x ∈ tried, x.Rejected canceled t

/-- Every call for a trace goes down by halving. -/
theorem TraceCall.halving {ctx : Context} {tried : List (Round σ)} {o : Compiled σ}
    (h : c.TraceCall arena ctx t tried o) (hPos : 0 < c.settings.maxTraceInsns)
    (hWord : c.settings.maxTraceInsns < 2 ^ 63) : c.Halving ctx.canceled t tried o := by
  cases h with
  | hit hFound =>
      refine ⟨iff_of_true rfl ⟨_, hFound⟩, rfl, by simp, .nil, by simp, by simp, by simp, by simp,
        fun key hError => ?_⟩
      cases hError
  | miss hMissing hRuns =>
      obtain ⟨rest, rfl⟩ := hRuns.exists_cons hPos
      have hFirst : ∀ x ∈ (c.firstRound arena ctx t :: rest).head?, x = c.firstRound arena ctx t :=
        fun x hx => hRuns.eq_of_mem_head? hx
      refine ⟨iff_of_false (by simp) (by simp [hMissing]), hRuns.result_eq.1, fun x hx => ?_,
        hRuns.isChain, hRuns.compiled_le hWord, ?_, ?_, ?_, ?_⟩
      · rw [hFirst x hx]
        rfl
      · intro x hx
        by_cases hBuilds : ∃ v, (c.firstRound arena ctx t).Builds t v
        · obtain ⟨v, hBuilds⟩ := hBuilds
          exact (hRuns.spent_first hPos hWord hBuilds).builds x (List.mem_of_mem_tail hx)
        · rw [(hRuns.single_of_not_builds hPos hWord hBuilds).1] at hx
          cases hx
      · intro x hx hNot
        rw [hFirst x hx] at hNot
        rw [(hRuns.single_of_not_builds hPos hWord hNot).1, List.length_singleton]
      · intro x hx v hBuilds
        rw [hFirst x hx] at hBuilds
        exact (hRuns.spent_first hPos hWord hBuilds).length_le
      · intro key hError
        by_cases hBuilds : ∃ v, (c.firstRound arena ctx t).Builds t v
        · obtain ⟨v, hBuilds⟩ := hBuilds
          obtain ⟨hLength, hRejected⟩ :=
            (hRuns.spent_first hPos hWord hBuilds).gaveUp key hError
          exact ⟨⟨_, rfl, v, hBuilds, hLength⟩, hRejected⟩
        · exact absurd hError ((hRuns.single_of_not_builds hPos hWord hBuilds).2 key)

/-- Bounded retry. A call for a trace comes to its end, whatever the backend replies. Its ceilings
begin with the one that is set, and each other is half of what the attempt before compiled. After
the first attempt nothing goes wrong but in the backend, and if the first attempt builds `n`
instructions, there are at most `log n + 1` attempts, and as many if the call gives up. -/
theorem compileTrace_halving (c : Compiler σ) (hValid : c.settings.invalid? = none)
    (hWord : c.settings.maxTraceInsns < 2 ^ 63) (arena : Arena) (ctx : Context) (t : Trace) :
    ∃ tried, c.TraceCall arena ctx t tried (c.compileTrace arena ctx t) ∧
      c.Halving ctx.canceled t tried (c.compileTrace arena ctx t) := by
  obtain ⟨tried, hCall⟩ := traceCall_compileTrace arena ctx t hWord
  exact ⟨tried, hCall, hCall.halving (Settings.pos_of_valid hValid).1 hWord⟩

/-- A compiler whose backend rejects everything for its size, and counts how often it does. -/
def stubborn : Compiler Nat :=
  { settings := {}, state := 0, filter := none, lookup := .new 2, counters := {}, tracer := .nop
    backend := fun calls _ u =>
      { result := .error (.tooLarge 0 0), state := calls + 1, tracer := u.tracer } }

/-- A backend that never has room: the ceiling goes down to the single instruction. -/
theorem compileTrace_halving_stubborn :
    (stubborn.compileTrace {} {} WorkUnit.loopTrace).result.ceilings = [100, 1] ∧
    ∃ tried, tried.map (·.ceiling) = [100, 1] ∧
      stubborn.Halving (fun _ => false) WorkUnit.loopTrace tried
        (stubborn.compileTrace {} {} WorkUnit.loopTrace) := by
  have hCeilings :
      (stubborn.compileTrace {} {} WorkUnit.loopTrace).result.ceilings = [100, 1] := by
    decide +kernel
  obtain ⟨tried, _, hHalving⟩ :=
    compileTrace_halving stubborn (by decide) (by decide) {} {} WorkUnit.loopTrace
  exact ⟨hCeilings, tried, hHalving.ceilings.symm.trans hCeilings, hHalving⟩

end Compiler

end TraceJit
