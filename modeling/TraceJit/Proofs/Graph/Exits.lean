import TraceJit.Proofs.Graph.SideExits
import TraceJit.Proofs.Graph.Validate

/-!
Edges behind unconditional exits. Control never falls out of a return or a goto, and in a method no
block that ends with one has a fallthrough edge. In a trace the edge is searched for without a look
at the instruction: it is there exactly if a later run starts right behind the exit.
-/

namespace TraceJit

/-- The last instruction planned for a run leaves for good, and another run starts right behind. -/
def Run.BehindExit (code : Code) (x y : Run × Nat) : Prop :=
  (code.walked x.1.start.toNat (x.2 - 1)).insn.isUnconditionalExit = true ∧
    y.1.start = (code.walked x.1.start.toNat (x.2 - 1)).next

instance (code : Code) (x y : Run × Nat) : Decidable (Run.BehindExit code x y) :=
  inferInstanceAs (Decidable (_ ∧ _))

namespace WorkUnit

/-- Control falls from no code block that ends with an unconditional exit. -/
def NoFalseFall (v : WorkUnit) : Prop :=
  ∀ (i : Nat) (b : Block) (last : Placed), v.blocks[i]? = some b → b.kind = .code →
    (v.instructionsOf i).getLast? = some last → last.insn.isUnconditionalExit = true →
    b.fallThrough = noBlock

/-- A finished method never falls out of an instruction that control does not pass. -/
theorem MethodBuilt.noFalseFall {u v : WorkUnit} {n : Nat} {bodies : List (List Entry)}
    (h : u.MethodBuilt v n bodies) (hSize : u.code.size ≠ 0) : v.NoFalseFall := by
  intro i b last hBlock _ hLast hExit
  obtain ⟨last', hLast', _, _, hFall⟩ := h.edges hSize hBlock
  obtain rfl : last = last' := Option.some.inj (hLast.symm.trans hLast')
  rw [hFall, if_neg fun hMore => hMore.2 hExit]

namespace TraceBuilt

variable {u v : WorkUnit} {runs : List Run} {c i : Nat} {pieces : List (Run × List Entry)}
  {x : Run × Nat}

/-- The code blocks start where the planned runs do. -/
theorem codeAt_iff_plan (h : u.TraceBuilt v runs c pieces) (j : Nat) (off : UInt32) :
    v.CodeAt j off ↔ ∃ y, (Run.plan c runs)[j]? = some y ∧ y.1.start = off := by
  have hStarts := congrArg (fun l => (l.map (·.1.start))[j]?) h.carries
  simp only [List.map_map, List.getElem?_map] at hStarts
  rw [h.codeAt_iff, StartsAt]
  simp only [getElem?_runViews, Option.map_eq_some_iff]
  constructor
  · rintro ⟨_, ⟨z, hz, rfl⟩, _, rfl⟩
    rw [hz] at hStarts
    exact Option.map_eq_some_iff.mp hStarts.symm
  · rintro ⟨y, hy, rfl⟩
    rw [hy] at hStarts
    obtain ⟨z, hz, hStart⟩ := Option.map_eq_some_iff.mp hStarts
    exact ⟨_, ⟨z, hz, rfl⟩, rfl, hStart⟩

/-- A code block ends with the last instruction that is planned for its run. -/
theorem getLast?_of_plan (h : u.TraceBuilt v runs c pieces)
    (hPlanned : (Run.plan c runs)[i]? = some x) (hPos : 0 < x.2) :
    (v.instructionsOf i).getLast? = some (u.code.walked x.1.start.toNat (x.2 - 1)) := by
  obtain ⟨n, hn⟩ := Nat.exists_eq_succ_of_ne_zero (Nat.ne_of_gt hPos)
  rw [(h.instructionsOf_eq hPlanned).2, hn, Code.walk_succ, List.getLast?_concat]
  rfl

/-- An unconditional exit has a fallthrough edge exactly if a later run starts right behind it. -/
theorem fallThrough_eq_noBlock_iff (h : u.TraceBuilt v runs c pieces) {b : Block} {last : Placed}
    (hi : i < pieces.length) (hBlock : v.blocks[i]? = some b)
    (hLast : (v.instructionsOf i).getLast? = some last)
    (hExit : last.insn.isUnconditionalExit = true) :
    b.fallThrough = noBlock ↔ ∀ k, i < k → ¬v.CodeAt k last.next := by
  obtain ⟨b', last', hBlock', hLast', _, hFall⟩ := h.edges hi
  obtain rfl : b = b' := Option.some.inj (hBlock.symm.trans hBlock')
  obtain rfl : last = last' := Option.some.inj (hLast.symm.trans hLast')
  generalize b.fallThrough = e at hFall
  cases hFall with
  | inside hFirst =>
      exact iff_of_false (natCast_ne_noBlock _) fun hNone => hNone _ hFirst.1 hFirst.2.1
  | outside _ hStays => cases hStays.symm.trans hExit
  | nowhere hOutside => exact iff_of_true rfl hOutside

/-- Control falls from no unconditional exit of a finished trace exactly if no run begins behind
such an instruction at the end of one before it. -/
theorem noFalseFall_iff (h : u.TraceBuilt v runs c pieces)
    (hPlan : ∀ x ∈ Run.plan c runs, 0 < x.2) :
    v.NoFalseFall ↔ (Run.plan c runs).Pairwise fun x y => ¬Run.BehindExit u.code x y := by
  rw [List.pairwise_iff_getElem]
  constructor
  · intro hNone i k hi hk hLess hBehind
    have hPlanned := List.getElem?_eq_getElem hi
    have hBlocks := (h.instructionsOf_eq hPlanned).1
    obtain ⟨b, _, hBlock, _⟩ := h.edges hBlocks
    have hKind := (h.kind_eq_code_iff hBlock).mpr hBlocks
    have hLast := h.getLast?_of_plan hPlanned (hPlan _ (List.getElem_mem hi))
    have hNoBlock := hNone i b _ hBlock hKind hLast hBehind.1
    refine (h.fallThrough_eq_noBlock_iff hBlocks hBlock hLast hBehind.1).mp hNoBlock k hLess ?_
    exact (h.codeAt_iff_plan k _).mpr ⟨_, List.getElem?_eq_getElem hk, hBehind.2⟩
  · intro hPairs i b last hBlock hKind hLast hExit
    have hi := (h.kind_eq_code_iff hBlock).mp hKind
    obtain ⟨x, hPlanned⟩ := h.exists_planned hi
    have hLast' := h.getLast?_of_plan hPlanned (hPlan x (List.mem_of_getElem? hPlanned))
    obtain rfl := Option.some.inj (hLast.symm.trans hLast')
    refine (h.fallThrough_eq_noBlock_iff hi hBlock hLast hExit).mpr fun k hLess hAt => ?_
    obtain ⟨y, hy, hStart⟩ := (h.codeAt_iff_plan k _).mp hAt
    obtain ⟨hi', rfl⟩ := List.getElem?_eq_some_iff.mp hPlanned
    obtain ⟨hk, rfl⟩ := List.getElem?_eq_some_iff.mp hy
    exact hPairs i k hi' hk hLess ⟨hExit, hStart⟩

end TraceBuilt

/-- When control falls out of no unconditional exit. In a method that is built it never does; in a
trace it does not exactly if no run that is entered starts right behind the exit at the end of an
earlier one. -/
theorem noFalseFall_iff_behindExit {u v : WorkUnit} (hFresh : u.Fresh) :
    (u.buildMethod = .ok v → v.NoFalseFall) ∧
    ∀ (t : Trace) (c : Int64), u.trace = some t → u.buildTrace c.toInt = .ok v →
      (v.NoFalseFall ↔ (Run.plan c.toInt.toNat t.runs).Pairwise fun x y =>
        ¬Run.BehindExit u.code x y) := by
  constructor
  · intro hBuild
    obtain ⟨hSize, n, bodies, h⟩ := methodBuilt_of_ok hFresh hBuild
    exact h.noFalseFall hSize
  · intro t c hTrace hBuild
    obtain ⟨t', pieces, hTrace', h⟩ := hFresh.traceBuilt hBuild
    obtain rfl : t = t' := Option.some.inj (hTrace.symm.trans hTrace')
    obtain ⟨t', hTrace', _, hPos, hCounts⟩ := exists_trace_of_ok hBuild
    obtain rfl : t = t' := Option.some.inj (hTrace.symm.trans hTrace')
    exact h.noFalseFall_iff fun x hx => Run.pos_of_mem_plan hCounts (Int.lt_toNat.mpr hPos) hx

/-- The loop ends with a goto, and the run that is entered next starts at its target. -/
theorem noFalseFall_iff_behindExit_loop :
    (loose loopCode none).Fresh ∧ (loose loopCode (some loopTrace)).Fresh ∧
    (∃ v, (loose loopCode none).buildMethod = .ok v ∧ v.NoFalseFall) ∧
    ∃ v, (loose loopCode (some loopTrace)).buildTrace 3 = .ok v ∧
      (loopCode.walked 0 1).insn.isUnconditionalExit = true ∧ v.NoFalseFall := by
  have hAll : (loose loopCode none).buildMethod.stop? = none ∧
      (loopCode.walked 0 1).insn.isUnconditionalExit = true ∧
      (Run.plan 3 loopTrace.runs).Pairwise fun x y => ¬Run.BehindExit loopCode x y := by
    decide +kernel
  obtain ⟨hStop, hExit, hPairs⟩ := hAll
  have hMethod := fresh_loose loopCode none
  have hTrace := fresh_loose loopCode (some loopTrace)
  obtain ⟨v, hBuild⟩ := Build.stop?_eq_none_iff.mp hStop
  obtain ⟨w, _, hBuild', _⟩ := buildTrace_ok hTrace rfl (by decide) (by decide) (by decide)
    (by decide) fits_loopTrace
  exact ⟨hMethod, hTrace, ⟨v, hBuild, (noFalseFall_iff_behindExit hMethod).1 hBuild⟩, w, hBuild',
    hExit, ((noFalseFall_iff_behindExit hTrace).2 loopTrace 3 rfl hBuild').mpr hPairs⟩

def returnsCode : Code := ⟨#[0x000e, 0x000e], by decide⟩

/-- A run for each of them. -/
def returnsTrace : Trace :=
  { name := "returns", method := (loose returnsCode none).method,
    runs := [⟨0, 1, false⟩, ⟨1, 1, true⟩] }

/-- Control falls out of a return: the block of the first one leads on to that of the second. -/
theorem falseFall_returns :
    (loose returnsCode (some returnsTrace)).Fresh ∧
    ∃ v, (loose returnsCode (some returnsTrace)).buildTrace 100 = .ok v ∧
      v.instructionsOf 0 = [returnsCode.placedAt 0] ∧
      (returnsCode.placedAt 0).insn.isUnconditionalExit = true ∧
      v.blocks.toList.map (fun b => (b.kind, b.fallThrough)) =
        [(.code, 1), (.code, noBlock), (.pcReconstruction, noBlock),
          (.exceptionHandling, noBlock)] ∧
      ¬v.NoFalseFall := by
  have hAll : ((loose returnsCode (some returnsTrace)).buildTrace 100).stop? = none ∧
      ((loose returnsCode (some returnsTrace)).buildTrace 100).unit.instructionsOf 0 =
        [returnsCode.placedAt 0] ∧
      (returnsCode.placedAt 0).insn.isUnconditionalExit = true ∧
      ((loose returnsCode (some returnsTrace)).buildTrace 100).unit.blocks.toList.map
          (fun b => (b.kind, b.fallThrough)) =
        [(.code, 1), (.code, noBlock), (.pcReconstruction, noBlock),
          (.exceptionHandling, noBlock)] := by
    decide +kernel
  obtain ⟨hStop, hCode, hExit, hBlocks⟩ := hAll
  obtain ⟨v, hBuild⟩ := Build.stop?_eq_none_iff.mp hStop
  rw [hBuild] at hCode hBlocks
  refine ⟨fresh_loose .., v, hBuild, hCode, hExit, hBlocks, fun hNone => ?_⟩
  obtain ⟨b, hBlock, hView⟩ :
      ∃ b, v.blocks[0]? = some b ∧ (b.kind, b.fallThrough) = (.code, 1) := by
    obtain ⟨b, rest, hShape, hView, _⟩ := List.map_eq_cons_iff.mp hBlocks
    refine ⟨b, ?_, hView⟩
    rw [← Array.getElem?_toList]
    exact congrArg (·[0]?) hShape
  have hFall : b.fallThrough = 1 := congrArg Prod.snd hView
  have hNoBlock := hNone 0 b _ hBlock (congrArg Prod.fst hView) (congrArg List.getLast? hCode) hExit
  rw [hFall] at hNoBlock
  cases hNoBlock

end WorkUnit

end TraceJit
