import TraceJit.Proofs.Graph.Validate

/-!
How the build of a trace ends. It is finished, keeps all rules and holds as many instructions as
the ceiling allows; or it breaks off, not by a broken invariant, and has counted no more than the
ceiling by then. A trace whose runs have instructions is not turned down for want of them.
-/

namespace TraceJit

/-- The trace can be built on `code` up to `c` instructions. -/
structure Trace.Buildable (t : Trace) (code : Code) (c : Nat) : Prop where
  runs : t.runs ≠ []
  counts : ∀ r ∈ t.runs, r.count ≠ 0
  fits : ∀ off ∈ (code.traceOffsets t.runs).take c, code.Fits off

/-- What can be built under a ceiling can be built under a lower one. -/
theorem Trace.Buildable.mono {t : Trace} {code : Code} {c d : Nat} (h : t.Buildable code c)
    (hLe : d ≤ c) : t.Buildable code d where
  runs := h.runs
  counts := h.counts
  fits off hOff := h.fits off ((List.take_prefix_take_left hLe).subset hOff)

/-- A stop that shows a defect of the builder itself. -/
def Stop.isInvariant : Stop → Bool
  | .failed (.invariant _) => true
  | _ => false

/-- A build that was turned down because there is nothing to decode. -/
def Stop.forNoInstructions : Stop → Bool
  | .failed (.noRuns _) => true
  | .failed (.malformed (.emptyRun _ _)) => true
  | _ => false

namespace WorkUnit

theorem numInsts_append (u : WorkUnit) (b : BlockId) (insn : Instruction) (off : UInt32) :
    (u.append b insn off).numInsts = u.numInsts ∨
      (u.append b insn off).numInsts = wrapCount (u.numInsts + 1) := by
  unfold append
  cases u.block? b with
  | none => exact .inl rfl
  | some blk =>
      dsimp only
      split
      next =>
          refine .inr ?_
          dsimp only
          rw [modifyBlock_numInsts, modifyNode_numInsts]
      next =>
          refine .inl ?_
          rw [modifyBlock_numInsts, modifyNode_numInsts]

/-- The count of a unit lies between zero and the ceiling. -/
def CountedUpTo (c : Nat) (u : WorkUnit) : Prop := 0 ≤ u.numInsts ∧ u.numInsts ≤ c

section Count

variable {c : Nat} {u : WorkUnit}

/-- A step below the ceiling stops where it is, or counts one more at most. -/
theorem countedUpTo_traceStep (hSmall : c < 2 ^ 63) (run : Nat) (cur : BlockId) (off : UInt32)
    (hCount : 0 ≤ u.numInsts) (hLess : u.numInsts < c) :
    (∃ stop, u.traceStep run cur off = .error ⟨stop, u⟩) ∨
      ∃ w next, u.traceStep run cur off = .ok (w, next) ∧ CountedUpTo c w := by
  unfold traceStep
  split
  next => exact .inl ⟨_, rfl⟩
  next =>
      dsimp only
      cases u.code.advance off (u.code.instructionAt off).width with
      | error e => exact .inl ⟨_, rfl⟩
      | ok next =>
          refine .inr ⟨_, _, rfl, ?_⟩
          obtain ⟨n, hn⟩ := Int.eq_ofNat_of_zero_le hCount
          rw [hn] at hLess
          have hNext : wrapCount (u.numInsts + 1) = (n + 1 : Nat) := by
            have hBelow : n + 1 < 2 ^ 63 := by omega
            rw [hn]
            exact wrapCount_natCast hBelow
          rcases u.numInsts_append cur (u.code.instructionAt off) off with hSame | hMore
          · rw [hn] at hSame
            change 0 ≤ (u.append ..).numInsts ∧ (u.append ..).numInsts ≤ c
            rw [hSame]
            omega
          · change 0 ≤ (u.append ..).numInsts ∧ (u.append ..).numInsts ≤ c
            rw [hMore, hNext]
            omega

/-- Decoding a run never counts beyond the ceiling. -/
theorem countedUpTo_traceRun (hSmall : c < 2 ^ 63) (run left : Nat) (cur : BlockId) (off : UInt32)
    (hCount : 0 ≤ u.numInsts) (hLess : u.numInsts < c) :
    CountedUpTo c (Build.unit (traceRun c run cur left u off)) := by
  induction left generalizing u off with
  | zero => exact ⟨hCount, Int.le_of_lt hLess⟩
  | succ left ih =>
      rw [traceRun]
      rcases countedUpTo_traceStep hSmall run cur off hCount hLess with
        ⟨stop, hStop⟩ | ⟨w, next, hStep, hCounted⟩
      · rw [hStop]
        exact ⟨hCount, Int.le_of_lt hLess⟩
      · rw [hStep]
        dsimp only
        split
        next => exact hCounted
        next hRoom => exact ih next hCounted.1 (Int.lt_of_not_ge hRoom)

/-- Nor does decoding all of them. -/
theorem countedUpTo_traceRuns (hSmall : c < 2 ^ 63) (run : Nat) (prior : BlockId)
    (runs : List Run) (hCount : 0 ≤ u.numInsts) (hLess : u.numInsts < c) :
    CountedUpTo c (Build.unit (traceRuns c run prior runs u)) := by
  induction runs generalizing u run prior with
  | nil => exact ⟨hCount, Int.le_of_lt hLess⟩
  | cons r rest ih =>
      have hEnter := u.numInsts_enterRun prior r.start
      have hRun := countedUpTo_traceRun hSmall run r.count.toNat u.nextBlock r.start
        (hEnter ▸ hCount) (hEnter ▸ hLess)
      rw [traceRuns_enter]
      cases hDecode : traceRun c run u.nextBlock r.count.toNat (u.enterRun prior r.start) r.start
        with
      | error h =>
          rw [hDecode] at hRun
          exact hRun
      | ok w =>
          rw [hDecode] at hRun
          dsimp only
          split
          next => exact hRun
          next hRoom =>
              simp only [Bool.or_eq_true, decide_eq_true_eq, not_or] at hRoom
              exact ih (run + 1) u.nextBlock hRun.1 (Int.lt_of_not_ge hRoom.1)

end Count

section Ends

variable {u : WorkUnit} {t : Trace} {c : Int64}

/-- A trace that is refused breaks no invariant. -/
theorem traceRefusal?_not_invariant {ceiling : Int} {e : BuildError}
    (hRefusal : u.traceRefusal? ceiling = some e) : Stop.isInvariant (.failed e) = false := by
  unfold traceRefusal? at hRefusal
  cases hTrace : u.trace with
  | none =>
      rw [hTrace] at hRefusal
      cases hRefusal
      rfl
  | some t =>
      rw [hTrace] at hRefusal
      dsimp only at hRefusal
      split at hRefusal
      next =>
          cases hRefusal
          rfl
      next =>
          split at hRefusal
          next =>
              cases hRefusal
              rfl
          next =>
              obtain ⟨i, _, rfl⟩ := Option.map_eq_some_iff.mp hRefusal
              rfl

variable (hFresh : u.Fresh) (hTrace : u.trace = some t) (hPos : 0 < c.toInt)

include hFresh hTrace hPos

/-- A trace whose instructions fit is built, and valid, up to the ceiling. -/
theorem buildTrace_finished (hBuildable : t.Buildable u.code c.toInt.toNat) :
    ∃ v, u.buildTrace c.toInt = .ok v ∧ v.invalid? = none ∧
      v.numInsts = (min c.toInt.toNat (u.code.traceOffsets t.runs).length : Nat) := by
  rcases buildTrace_cases hFresh hTrace hBuildable.runs hBuildable.counts
    (Int64.lt_iff_toInt_lt.mpr hPos) with ⟨_, v, m, hBuild, hCode⟩ | ⟨hUnfit, _⟩
  · exact ⟨v, hBuild, hFresh.valid_of_buildTrace hBuild, hCode.numInsts⟩
  · exact absurd hBuildable.fits hUnfit

/-- Any other is broken off, with no more instructions than the ceiling. -/
theorem buildTrace_broken_off (hNot : ¬t.Buildable u.code c.toInt.toNat) :
    ∃ h, u.buildTrace c.toInt = .error h ∧ h.stop.isInvariant = false ∧ 0 ≤ h.unit.numInsts ∧
      h.unit.numInsts ≤ c.toInt := by
  cases hRefusal : u.traceRefusal? c.toInt with
  | some e =>
      refine ⟨⟨.failed e, u⟩, by rw [buildTrace, hRefusal]; rfl,
        traceRefusal?_not_invariant hRefusal, ?_, ?_⟩
      · exact Int.le_of_eq hFresh.numInsts.symm
      · exact hFresh.numInsts ▸ Int.le_of_lt hPos
  | none =>
      obtain ⟨t', hTrace', hRuns, _, hCounts⟩ := traceRefusal?_eq_none_iff.mp hRefusal
      obtain rfl : t = t' := Option.some.inj (hTrace.symm.trans hTrace')
      have hUnfit : ∃ off ∈ (u.code.traceOffsets t.runs).take c.toInt.toNat,
          ¬u.code.Fits off := by
        by_contra hAll
        exact hNot ⟨hRuns, hCounts, by simpa using hAll⟩
      -- Only decoding can fail here; linking is not reached.
      have hCeiling := natCast_toNat_toInt hPos
      have hSome : 0 < c.toInt.toNat := Int.lt_toNat.mpr hPos
      have hCounted := countedUpTo_traceRuns (u := u) (toNat_toInt_lt c) 0 noBlock t.runs
        (Int.le_of_eq hFresh.numInsts.symm) (hFresh.numInsts ▸ Int.natCast_pos.mpr hSome)
      have hBuild := buildTrace_eq hTrace hRuns hCounts hSome
      obtain ⟨r, rest, hShape⟩ := List.exists_cons_of_ne_nil hRuns
      rw [← Run.planOffsets_eq, hShape] at hUnfit
      obtain ⟨e, w, hRun⟩ := traceRuns_stuck (toNat_toInt_lt c) 0 rest (hFresh.enterRun r.start)
        hFresh.represents.nextBlock_eq hFresh.numInsts hSome hUnfit
      rw [← hShape] at hRun
      rw [hRun] at hBuild hCounted
      rw [hCeiling] at hBuild
      rw [CountedUpTo, hCeiling] at hCounted
      exact ⟨_, hBuild, rfl, hCounted⟩

end Ends

section Stops

theorem traceStep_stop {u : WorkUnit} {run : Nat} {cur : BlockId} {off : UInt32} {h : Halted}
    (hStop : u.traceStep run cur off = .error h) : h.stop.forNoInstructions = false := by
  unfold traceStep at hStop
  split at hStop
  next =>
      cases hStop
      rfl
  next =>
      dsimp only at hStop
      split at hStop
      next =>
          cases hStop
          rfl
      next => cases hStop

theorem traceRun_stop {ceiling : Int} {run left : Nat} {cur : BlockId} {u : WorkUnit}
    {off : UInt32} {h : Halted} (hStop : traceRun ceiling run cur left u off = .error h) :
    h.stop.forNoInstructions = false := by
  induction left generalizing u off with
  | zero => cases hStop
  | succ left ih =>
      rw [traceRun] at hStop
      cases hStep : u.traceStep run cur off with
      | error g =>
          rw [hStep] at hStop
          obtain rfl := Except.error.inj hStop
          exact traceStep_stop hStep
      | ok w =>
          rw [hStep] at hStop
          dsimp only at hStop
          split at hStop
          next => cases hStop
          next => exact ih hStop

/-- Decoding stops only at an instruction that does not fit. -/
theorem traceRuns_stop {ceiling : Int} {run : Nat} {prior : BlockId} {runs : List Run}
    {u : WorkUnit} {h : Halted} (hStop : traceRuns ceiling run prior runs u = .error h) :
    h.stop.forNoInstructions = false := by
  induction runs generalizing u run prior with
  | nil => cases hStop
  | cons r rest ih =>
      rw [traceRuns_enter] at hStop
      cases hRun : traceRun ceiling run u.nextBlock r.count.toNat (u.enterRun prior r.start)
        r.start with
      | error g =>
          rw [hRun] at hStop
          obtain rfl := Except.error.inj hStop
          exact traceRun_stop hRun
      | ok w =>
          rw [hRun] at hStop
          dsimp only at hStop
          split at hStop
          next => cases hStop
          next => exact ih hStop

theorem linkTraceBlock_stop {u : WorkUnit} {id : BlockId} {h : Halted}
    (hStop : u.linkTraceBlock id = .error h) : h.stop = .fault := by
  unfold linkTraceBlock at hStop
  split at hStop
  next =>
      cases hStop
      rfl
  next => cases hStop

/-- Linking stops only at a block without instructions. -/
theorem linkTrace_stop {u : WorkUnit} {h : Halted} (hStop : u.linkTrace = .error h) :
    h.stop = .fault := by
  rw [linkTrace] at hStop
  generalize u.codeBlocks = ids at hStop
  induction ids generalizing u with
  | nil => cases hStop
  | cons id ids ih =>
      rw [List.foldlM_cons] at hStop
      cases hLink : u.linkTraceBlock id with
      | error g =>
          rw [hLink] at hStop
          obtain rfl := Except.error.inj hStop
          exact linkTraceBlock_stop hLink
      | ok w =>
          rw [hLink] at hStop
          exact ih hStop

/-- A trace that has runs and no empty one is never turned down for want of instructions. -/
theorem buildTrace_stop {u : WorkUnit} {t : Trace} {ceiling : Int} {stop : Stop}
    (hTrace : u.trace = some t) (hRuns : t.runs ≠ []) (hCounts : ∀ r ∈ t.runs, r.count ≠ 0)
    (hStop : (u.buildTrace ceiling).stop? = some stop) : stop.forNoInstructions = false := by
  rw [buildTrace] at hStop
  by_cases hPos : 0 < ceiling
  · rw [traceRefusal?_eq_none_iff.mpr ⟨t, hTrace, hRuns, hPos, hCounts⟩] at hStop
    dsimp only at hStop
    cases hDecode : traceRuns ceiling 0 noBlock ((u.trace.map (·.runs)).getD []) u with
    | error h =>
        rw [hDecode] at hStop
        obtain rfl : h.stop = stop := Option.some.inj hStop
        exact traceRuns_stop hDecode
    | ok w =>
        rw [hDecode] at hStop
        cases hLink : w.linkTrace with
        | error h =>
            have hEnd : Build.stop? (.error h) = some stop := by
              rw [← hStop, ← hLink]
              change _ = Build.stop? (w.linkTrace >>= _)
              rw [hLink]
              rfl
            obtain rfl : h.stop = stop := Option.some.inj hEnd
            rw [linkTrace_stop hLink]
            rfl
        | ok x =>
            change Build.stop? (w.linkTrace >>= _) = _ at hStop
            rw [hLink] at hStop
            cases hStop
  · have hRefused : u.traceRefusal? ceiling = some .badCeiling := by
      simp [traceRefusal?, hTrace, hRuns, Int.not_lt.mp hPos]
    rw [hRefused] at hStop
    obtain rfl : Stop.failed .badCeiling = stop := Option.some.inj hStop
    rfl

end Stops

end WorkUnit

end TraceJit
