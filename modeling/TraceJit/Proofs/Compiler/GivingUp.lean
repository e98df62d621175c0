import TraceJit.Proofs.Codegen.TraceSize
import TraceJit.Proofs.Compiler.Counters

/-!
When a trace is given up. The code is then too large at every length that was tried, down to the
first instruction alone. A length in between was not tried and may fit; but then it misses the
budget by little, for it still holds the first instruction.
-/

namespace TraceJit

namespace Compiler

variable {σ : Type}

/-- What a trace comes to at a ceiling, in an attempt inside the span with number `parent`: its
instructions, and the bytes of their code with the header. -/
def sizeAt? (c : Compiler σ) (parent : Nat) (t : Trace) (ceiling : Int) : Option (Int × Nat) :=
  match WorkUnit.new t.method with
  | .error _ => none
  | .ok u =>
    match (c.traceUnit parent t u).buildTrace ceiling with
    | .error _ => none
    | .ok v =>
      match v.lower with
      | .error _ => none
      | .ok p => some (v.numInsts, headerBytes + 4 * p.words.size)

/-- Bytes that the first `k` instructions of a trace take. -/
def bytesAt (c : Compiler σ) (t : Trace) (u : WorkUnit) (k : Nat) : Nat :=
  headerBytes + 4 * Stretch.words u.method.linkage (c.prepared 0 u).singleStep
    (u.code.stretches (Run.plan k t.runs))

section Sizes

variable {c : Compiler σ} {t : Trace} {u : WorkUnit} {k : Nat}

theorem method_traceUnit (c : Compiler σ) (parent : Nat) (t : Trace) (u : WorkUnit) :
    (c.traceUnit parent t u).method = u.method := by
  obtain ⟨_, _, _, _, _, hUnit⟩ := c.traceUnit_eq parent t u
  rw [hUnit]

/-- Whether slow code is wanted does not depend on where an attempt reports. -/
theorem singleStep_traceUnit (c : Compiler σ) (parent : Nat) (t : Trace) (u : WorkUnit) :
    (c.traceUnit parent t u).singleStep = (c.prepared 0 u).singleStep := by
  rcases hBegun : c.beginSpan .attempt "attempt" parent with ⟨span, d⟩
  obtain ⟨tracer, rfl⟩ := beginSpan_eq hBegun
  rw [traceUnit, hBegun]
  unfold prepared
  cases c.filter <;> rfl

/-- Only the filter of a compiler has a say in the size of its code. -/
theorem bytesAt_congr {d : Compiler σ} (hFilter : d.filter = c.filter) (t : Trace) (u : WorkUnit)
    (k : Nat) : d.bytesAt t u k = c.bytesAt t u k := by
  have hStep : (d.prepared 0 u).singleStep = (c.prepared 0 u).singleStep := by
    unfold prepared
    rw [hFilter]
    cases c.filter <;> rfl
  rw [bytesAt, bytesAt, hStep]

theorem bytesAt_min (hCounts : ∀ r ∈ t.runs, r.count ≠ 0) (c : Compiler σ) (u : WorkUnit)
    (k : Nat) : c.bytesAt t u (min k (u.code.traceOffsets t.runs).length) = c.bytesAt t u k := by
  rw [bytesAt, Run.plan_min u.code k hCounts, bytesAt]

/-- A single instruction takes at most 28 bytes more than any number of them. -/
theorem bytesAt_one_le (hBuildable : t.Buildable u.code k) (c : Compiler σ) (hPos : 0 < k) :
    c.bytesAt t u 1 ≤ c.bytesAt t u k + 28 := by
  have hWords := Stretch.words_one_le u.code u.method.linkage (c.prepared 0 u).singleStep
    hBuildable.runs hBuildable.counts hPos
  unfold bytesAt
  omega

/-- A trace that can be built up to the ceiling has the size of its plan. -/
theorem sizeAt?_eq (hNew : WorkUnit.new t.method = .ok u) (hBuildable : t.Buildable u.code k)
    (c : Compiler σ) (parent : Nat) (hPos : 0 < k) (hWord : k < 2 ^ 63) :
    c.sizeAt? parent t k =
      some (((min k (u.code.traceOffsets t.runs).length : Nat) : Int), c.bytesAt t u k) := by
  have hFresh := c.fresh_traceUnit parent t (WorkUnit.fresh_of_new hNew)
  have hCode : (c.traceUnit parent t u).code = u.code := c.code_traceUnit parent t
  have hFits := hBuildable.fits
  rw [← hCode] at hFits
  obtain ⟨v, pieces, hBuild, hBuilt⟩ :=
    WorkUnit.buildTrace_ok hFresh rfl hBuildable.runs hBuildable.counts hPos hWord hFits
  obtain ⟨p, hLower, hWords⟩ := hBuilt.lower
  have hInsts := (hBuilt.isTraceCode hFresh
    fun x hx => Run.pos_of_mem_plan hBuildable.counts hPos hx).numInsts
  rw [hCode, method_traceUnit, singleStep_traceUnit] at hWords
  rw [hCode] at hInsts
  simp only [sizeAt?, hNew, hBuild, hLower, hInsts, hWords, bytesAt]

end Sizes

/-! ### Rejected attempts -/

namespace Round

variable {canceled : Nat → Bool} {t : Trace} {r : Round Assembler}

/-- The code of a round that is rejected exceeds the budget. -/
theorem Rejected.lt_bytesAt (h : r.Rejected canceled t)
    (hBackend : r.compiler.backend = Assembler.compile) {u : WorkUnit}
    (hNew : WorkUnit.new t.method = .ok u) (hPos : 0 < r.ceiling) (hWord : r.ceiling < 2 ^ 63) :
    r.compiler.state.maxBytes < r.compiler.bytesAt t u r.ceiling.toNat := by
  obtain ⟨size, limit, hLarge⟩ := h
  cases attemptEnds canceled t hPos hWord with
  | refused hNew' => cases hNew.symm.trans hNew'
  | unbuilt _ _ _ _ _ _ _ _ hResult => cases hResult.symm.trans hLarge
  | @replied _ v _ hNew' hBuildable hBuild _ _ _ _ _ hResult =>
      obtain rfl := Except.ok.inj (hNew.symm.trans hNew')
      rw [hLarge, hBackend] at hResult
      cases hReply : (Assembler.compile r.compiler.state (canceled r.result.ceilings.length)
          v.dump).result with
      | ok f =>
          rw [hReply] at hResult
          cases hResult
      | error e =>
          rw [hReply] at hResult
          obtain rfl : .tooLarge size limit = e :=
            CompileError.backend.inj (Except.error.inj hResult)
          obtain ⟨p, hLower, hMore⟩ := Assembler.compile_tooLarge hReply
          rw [WorkUnit.lower_dump] at hLower
          have hSize := sizeAt?_eq hNew hBuildable r.compiler r.span.id (by omega) (by omega)
          rw [Int.toNat_of_nonneg (Int.le_of_lt hPos)] at hSize
          simp only [sizeAt?, hNew, hBuild, hLower, Option.some.injEq, Prod.mk.injEq] at hSize
          exact hSize.2 ▸ hMore

/-- Retrying leaves the filter alone. -/
theorem next_filter (hPos : 0 < r.ceiling) (hWord : r.ceiling < 2 ^ 63) :
    (r.next canceled t).compiler.filter = r.compiler.filter := by
  change (r.attempt canceled t).compiler.filter = _
  cases attemptEnds canceled t hPos hWord with
  | refused _ hCompiler => rw [hCompiler]
  | unbuilt _ _ _ _ hCompiler =>
      rw [hCompiler]
      rfl
  | replied _ _ _ _ _ hCompiler =>
      rw [hCompiler]
      rfl

/-- A loop that gives up has found the code too large at every half of its length. -/
theorem Runs.lt_bytesAt {tried : List (Round Assembler)} {o : Compiled Assembler}
    (h : Runs canceled t r tried o) (hUp : o.GaveUp) (hWord : r.ceiling < 2 ^ 63)
    (hBackend : r.compiler.backend = Assembler.compile) {u : WorkUnit}
    (hNew : WorkUnit.new t.method = .ok u) (hBuildable : t.Buildable u.code r.ceiling.toNat)
    (i : Nat)
    (hPos : 0 < min r.ceiling.toNat (u.code.traceOffsets t.runs).length / 2 ^ i) :
    r.compiler.state.maxBytes < r.compiler.bytesAt t u
      (min r.ceiling.toNat (u.code.traceOffsets t.runs).length / 2 ^ i) := by
  induction h generalizing i with
  | exhausted hCeiling =>
      rw [Int.toNat_of_nonpos hCeiling, Nat.zero_min, Nat.zero_div] at hPos
      omega
  | accepted =>
      obtain ⟨_, hError⟩ := hUp
      cases hError
  | failed hCeiling hResult =>
      obtain ⟨key, hError⟩ := hUp
      rw [failed_error] at hError
      exact absurd (Option.some.inj hError) (ne_traceTooLarge hCeiling hWord hResult)
  | @again r _ _ _ hCeiling hResult hLarge _ ih =>
      cases i with
      | zero =>
          rw [Nat.pow_zero, Nat.div_one, bytesAt_min hBuildable.counts]
          exact (rejected_of_isTooLarge hResult hLarge).lt_bytesAt hBackend hNew hCeiling hWord
      | succ i =>
          obtain ⟨v, hBuilds⟩ := exists_builds hNew hBuildable hCeiling hWord
          obtain ⟨u', hNew', _, hInsts, hCompiled⟩ := hBuilds.spec canceled hCeiling hWord
          obtain rfl := Except.ok.inj (hNew.symm.trans hNew')
          have hHalf : (r.next canceled t).ceiling.toNat =
              min r.ceiling.toNat (u.code.traceOffsets t.runs).length / 2 := by
            change ((r.attempt canceled t).compiled / 2).toNat = _
            omega
          have hInside : min (r.next canceled t).ceiling.toNat (u.code.traceOffsets t.runs).length =
              min r.ceiling.toNat (u.code.traceOffsets t.runs).length / 2 := by omega
          have hEnds := attemptEnds canceled t hCeiling hWord
          have hState : (r.next canceled t).compiler.state = r.compiler.state :=
            hEnds.of_error hBackend hResult
          have hNext := ih hUp (next_ceiling_word canceled t hCeiling hWord)
            (hEnds.kept.2.1.trans hBackend) (hBuildable.mono (by omega)) i
          rw [hInside, Nat.div_div_eq_div_mul, ← Nat.pow_succ', hState,
            bytesAt_congr (next_filter hCeiling hWord)] at hNext
          exact hNext hPos

end Round

/-! ### The whole call -/

section Calls

variable {c : Compiler Assembler}

/-- No call changes the limit. -/
theorem maxBytes_answer (hBackend : c.backend = Assembler.compile)
    (hWord : c.settings.maxTraceInsns < 2 ^ 63) (k : Call) :
    (c.answer k).compiler.state.maxBytes = c.state.maxBytes := by
  unfold answer
  cases hKey : k.request.key? with
  | none =>
      obtain ⟨e, hNothing⟩ := compile_nothing c k.arena k.context hKey
      rw [hNothing]
  | some key =>
      cases effect_compile hBackend hWord k.arena k.context hKey with
      | failed _ hState => rw [hState]
      | installed _ _ _ _ hAssemble => exact (Assembler.assemble_ok hAssemble).2.1
      | served _ _ _ _ _ hState => rw [hState]

/-- Calls change neither the settings nor the backend and its budget. -/
theorem afterCalls_kept (hBackend : c.backend = Assembler.compile)
    (hWord : c.settings.maxTraceInsns < 2 ^ 63) (calls : List Call) :
    (c.afterCalls calls).backend = Assembler.compile ∧
      (c.afterCalls calls).settings = c.settings ∧
      (c.afterCalls calls).state.maxBytes = c.state.maxBytes := by
  induction calls using List.reverseRecOn with
  | nil => exact ⟨hBackend, rfl, rfl⟩
  | append_singleton calls k ih =>
      obtain ⟨hBackend', hSettings, hBytes⟩ := ih
      have hWord' : (c.afterCalls calls).settings.maxTraceInsns < 2 ^ 63 := hSettings ▸ hWord
      obtain ⟨hKept, hSame⟩ := kept_answer hWord' k
      rw [afterCalls_concat]
      exact ⟨hKept.trans hBackend', hSame.trans hSettings,
        (maxBytes_answer hBackend' hWord' k).trans hBytes⟩

theorem div_pow_log {n : Nat} (hPos : 0 < n) : n / 2 ^ Nat.log 2 n = 1 := by
  have hLow := Nat.pow_log_le_self 2 (Nat.ne_of_gt hPos)
  have hHigh := Nat.lt_pow_succ_log_self (b := 2) (by decide) n
  rw [Nat.pow_succ] at hHigh
  exact Nat.div_eq_of_lt_le (by omega) (by omega)

/-- The sizes of a trace that is given up, at the lengths that were tried and at all others. -/
theorem sizes_of_gaveUp (hBackend : c.backend = Assembler.compile)
    (hValid : c.settings.invalid? = none) (hWord : c.settings.maxTraceInsns < 2 ^ 63)
    {arena : Arena} {ctx : Context} {t : Trace} (hUp : (c.compileTrace arena ctx t).GaveUp) :
    ∃ n : Nat, 0 < n ∧ n ≤ c.settings.maxTraceInsns ∧
      ∀ k : Nat, 0 < k → k ≤ c.settings.maxTraceInsns →
        ∃ bytes, c.sizeAt? ctx.span t k = some (((min k n : Nat) : Int), bytes) ∧
          c.state.maxBytes < bytes + 28 ∧
          ((∃ i, min k n = n / 2 ^ i) → c.state.maxBytes < bytes) := by
  have hPos := (Settings.pos_of_valid hValid).1
  obtain ⟨tried, hCall⟩ := traceCall_compileTrace arena ctx t hWord
  generalize c.compileTrace arena ctx t = o at hCall hUp
  cases hCall with
  | hit =>
      obtain ⟨_, hError⟩ := hUp
      cases hError
  | miss _ hRuns =>
      obtain ⟨v, hBuilds⟩ : ∃ v, (c.firstRound arena ctx t).Builds t v := by
        by_contra hNot
        obtain ⟨key, hError⟩ := hUp
        exact (hRuns.single_of_not_builds hPos hWord hNot).2 key hError
      obtain ⟨u, hNew, hBuildable, _⟩ := hBuilds.spec ctx.canceled hPos hWord
      have hAll := u.code.traceOffsets_pos hBuildable.runs hBuildable.counts
      have hTried := hRuns.lt_bytesAt hUp hWord hBackend hNew hBuildable
      have hFirst : (c.firstRound arena ctx t).ceiling = c.settings.maxTraceInsns := rfl
      have hState : (c.firstRound arena ctx t).compiler.state = c.state := rfl
      have hSame : (c.firstRound arena ctx t).compiler.filter = c.filter := rfl
      rw [hFirst] at hBuildable
      rw [hFirst, hState] at hTried
      simp only [bytesAt_congr hSame] at hTried
      generalize hLength : (u.code.traceOffsets t.runs).length = whole at hAll hTried
      refine ⟨min c.settings.maxTraceInsns.toNat whole, by omega, by omega, fun k hk hMax => ?_⟩
      have hShorter := hBuildable.mono (d := k) (by omega)
      have hSize := sizeAt?_eq hNew hShorter c ctx.span hk (by omega)
      have hMin : min k whole = min k (min c.settings.maxTraceInsns.toNat whole) := by omega
      rw [hLength, hMin] at hSize
      refine ⟨_, hSize, ?_, fun ⟨i, hi⟩ => ?_⟩
      · -- Halving comes down to the first instruction alone.
        have hOne := div_pow_log (n := min c.settings.maxTraceInsns.toNat whole) (by omega)
        have hLarge := hTried (Nat.log 2 (min c.settings.maxTraceInsns.toNat whole)) (by omega)
        rw [hOne] at hLarge
        exact Nat.lt_of_lt_of_le hLarge (bytesAt_one_le hShorter c hk)
      · have hLarge := hTried i (by omega)
        rw [← hi, ← hMin, ← hLength, bytesAt_min hBuildable.counts] at hLarge
        exact hLarge

end Calls

/-- When a trace is given up. It can be built for every ceiling up to the one that is set. If the
first attempt built `n` instructions, the code exceeds the budget at every ceiling that leaves `n`
of them, or `n` halved some number of times; and at any other it leaves less than 28 bytes of the
budget unused. -/
theorem compileTrace_gaveUp {settings : Settings} {cache : CodeCache} {c : Compiler Assembler}
    {tracer : Tracer}
    (hNew : Compiler.new settings (some Assembler.compile)
      (.new cache settings.maxFragmentBytes) tracer = .ok c)
    (hWord : settings.maxTraceInsns < 2 ^ 63) (calls : List Call) (arena : Arena) (ctx : Context)
    (t : Trace) (hUp : ((c.afterCalls calls).compileTrace arena ctx t).GaveUp) :
    ∃ n : Nat, 0 < n ∧ n ≤ settings.maxTraceInsns ∧
      ∀ k : Nat, 0 < k → k ≤ settings.maxTraceInsns →
        ∃ bytes, (c.afterCalls calls).sizeAt? ctx.span t k = some (((min k n : Nat) : Int), bytes) ∧
          settings.maxFragmentBytes < bytes + 28 ∧
          ((∃ i, min k n = n / 2 ^ i) → settings.maxFragmentBytes < bytes) := by
  obtain ⟨hValid, hShape⟩ := new_ok hNew
  have hBackend : c.backend = Assembler.compile := by rw [hShape]
  have hSettings : c.settings = settings := by rw [hShape]
  have hHeader := Settings.headerBytes_lt_of_valid hValid
  have hBudget : (c.state.maxBytes : Int) = settings.maxFragmentBytes := by
    rw [hShape]
    change ((if settings.maxFragmentBytes ≤ 0 then Assembler.defaultMaxBytes
      else settings.maxFragmentBytes.toNat : Nat) : Int) = _
    rw [if_neg (by omega)]
    omega
  obtain ⟨hBackend', hSettings', hBytes⟩ := afterCalls_kept hBackend (hSettings ▸ hWord) calls
  rw [hSettings] at hSettings'
  obtain ⟨n, hPos, hLess, hSizes⟩ := sizes_of_gaveUp hBackend' (hSettings' ▸ hValid)
    (hSettings' ▸ hWord) hUp
  rw [hSettings'] at hLess hSizes
  refine ⟨n, hPos, hLess, fun k hk hMax => ?_⟩
  obtain ⟨bytes, hSize, hNear, hTried⟩ := hSizes k hk hMax
  refine ⟨bytes, hSize, by omega, fun hHalf => ?_⟩
  have hLarge := hTried hHalf
  omega

/-- A conditional branch, a constant, a return, and a constant that is never reached. -/
def unevenCode : Code := ⟨#[0x0038, 0x0003, 0x0012, 0x000e, 0x0012], by decide⟩

def unevenTrace : Trace :=
  { name := "uneven", method := (WorkUnit.loose unevenCode none).method, runs := [⟨0, 4, true⟩] }

/-- A compiler with room for the first three instructions of this trace, but not for one, two or
four of them. -/
def narrow : Compiler Assembler :=
  { idle with
    settings := { lookupCacheSize := 2, maxFragmentBytes := 52 }
    state := .new (.empty 0x1000 64) 52 }

theorem new_narrow :
    Compiler.new narrow.settings (some Assembler.compile)
      (.new (.empty 0x1000 64) narrow.settings.maxFragmentBytes) .nop = .ok narrow := rfl

/-- The row of ceilings passes over one that would do. -/
theorem run_narrow :
    (narrow.compileTrace {} {} unevenTrace).error =
        some (.traceTooLarge unevenTrace.key) ∧
      (narrow.compileTrace {} {} unevenTrace).result.ceilings = [100, 2, 1] ∧
      narrow.sizeAt? 0 unevenTrace 3 = some (3, 52) := by
  decide +kernel

/-- The call gives up, though there was room at a ceiling of three. -/
theorem compileTrace_gaveUp_narrow :
    (narrow.compileTrace {} {} unevenTrace).GaveUp ∧
    ∃ n bytes : Nat, narrow.sizeAt? 0 unevenTrace 3 = some (((min 3 n : Nat) : Int), bytes) ∧
      (52 : Int) < bytes + 28 := by
  have hUp : (narrow.compileTrace {} {} unevenTrace).GaveUp := ⟨_, run_narrow.1⟩
  obtain ⟨n, _, _, hSizes⟩ := compileTrace_gaveUp new_narrow (by decide) [] {} {}
    unevenTrace hUp
  obtain ⟨bytes, hSize, hNear, _⟩ := hSizes 3 (by decide) (by decide)
  exact ⟨hUp, n, bytes, hSize, hNear⟩

/-- The trace is given up after four, two and one of its instructions, though three would fit. -/
theorem shorter_fits_narrow :
    Compiler.new narrow.settings (some Assembler.compile)
      (.new (.empty 0x1000 64) narrow.settings.maxFragmentBytes) .nop = .ok narrow ∧
    (narrow.compileTrace {} {} unevenTrace).error =
      some (.traceTooLarge unevenTrace.key) ∧
    (narrow.compileTrace {} {} unevenTrace).result.ceilings = [100, 2, 1] ∧
    narrow.sizeAt? 0 unevenTrace 3 = some (3, 52) ∧
    ¬∀ k : Nat, 0 < k → k ≤ narrow.settings.maxTraceInsns →
      ∃ insts bytes, narrow.sizeAt? 0 unevenTrace k = some (insts, bytes) ∧
        narrow.settings.maxFragmentBytes < bytes := by
  obtain ⟨hError, hCeilings, hSize⟩ := run_narrow
  refine ⟨new_narrow, hError, hCeilings, hSize, fun hAll => ?_⟩
  obtain ⟨insts, bytes, hSame, hLarge⟩ := hAll 3 (by decide) (by decide)
  obtain ⟨_, rfl⟩ := Prod.mk.inj (Option.some.inj (hSize.symm.trans hSame))
  exact absurd hLarge (by decide)

end Compiler

end TraceJit
