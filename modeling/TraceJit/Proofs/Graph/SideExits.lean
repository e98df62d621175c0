import TraceJit.Proofs.Graph.TraceCode
import TraceJit.Proofs.Graph.TraceEdges

/-!
The side exits of a trace. Edges follow from the last instruction of a block only, and blocks are
cut where runs end, not where control branches. So a branch keeps its edge exactly if nothing of its
own run is compiled behind it.
-/

namespace TraceJit

/-- Of its first `n` instructions only the last one may branch. -/
def Run.Straight (code : Code) (l : Linkage) (r : Run) (n : Nat) : Prop :=
  ∀ k < n - 1, l.target? (code.walked r.start.toNat k) = none

instance (code : Code) (l : Linkage) (r : Run) (n : Nat) : Decidable (r.Straight code l n) :=
  inferInstanceAs (Decidable (∀ _ < _, _))

/-- A walk up to one of its instructions, and what is behind it. -/
theorem Code.walk_split (code : Code) (start : Nat) {k n : Nat} (hk : k < n) :
    ∃ after, code.walk start n = code.walk start k ++ code.walked start k :: after ∧
      after.length = n - 1 - k := by
  refine ⟨(code.walk start n).drop (k + 1), ?_, ?_⟩
  · have hLength : k < (code.walk start n).length := by simpa [walk] using hk
    have hTake : (code.walk start n).take k = code.walk start k := by
      rw [walk, ← List.map_take, List.take_range, Nat.min_eq_left (Nat.le_of_lt hk), walk]
    have hAt : (code.walk start n)[k] = code.walked start k := by simp [walk]
    rw [← hTake, ← hAt, ← List.drop_eq_getElem_cons hLength, List.take_append_drop]
  · rw [List.length_drop, length_walk]
    omega

namespace WorkUnit

/-- An edge of block `i` leads to a later block for `off`: a code block, or a chaining cell. -/
def LeadsTo (v : WorkUnit) (i : Nat) (e : BlockId) (off : UInt32) : Prop :=
  ∃ (j : Nat) (b : Block), e = j ∧ i < j ∧ v.blocks[j]? = some b ∧ b.start = off ∧
    (b.kind = .code ∨ b.kind.isCell = true)

/-- Every branch is the last instruction of its block, whose branch edge leads to the target. -/
def KeepsSideExits (v : WorkUnit) (l : Linkage) : Prop :=
  ∀ (i : Nat) (b : Block), v.blocks[i]? = some b → b.kind = .code →
    ∀ before p after off, v.instructionsOf i = before ++ p :: after → l.target? p = some off →
      after = [] ∧ v.LeadsTo i b.taken off

namespace TraceBuilt

variable {u v : WorkUnit} {runs : List Run} {c i : Nat} {pieces : List (Run × List Entry)}

/-- The code blocks hold what is planned for the runs, block by block. -/
theorem instructionsOf_eq (h : u.TraceBuilt v runs c pieces) {x : Run × Nat}
    (hx : (Run.plan c runs)[i]? = some x) :
    i < pieces.length ∧ v.instructionsOf i = u.code.walk x.1.start.toNat x.2 := by
  have hLength : pieces.length = (Run.plan c runs).length := by
    simpa using congrArg List.length h.carries
  have hi : i < pieces.length := hLength ▸ (List.getElem?_eq_some_iff.mp hx).1
  obtain ⟨_, _, _, _, hCode⟩ := h.exists_block (List.getElem?_eq_getElem hi)
  obtain ⟨n, hPlanned, hWalk⟩ := h.carries.getElem? (List.getElem?_eq_getElem hi)
  obtain rfl := Option.some.inj (hPlanned.symm.trans hx)
  exact ⟨hi, hCode.trans hWalk⟩

/-- Every piece of a trace was planned. -/
theorem exists_planned (h : u.TraceBuilt v runs c pieces) (hi : i < pieces.length) :
    ∃ x, (Run.plan c runs)[i]? = some x := by
  obtain ⟨n, hPlanned, _⟩ := h.carries.getElem? (List.getElem?_eq_getElem hi)
  exact ⟨_, hPlanned⟩

/-- The branch at the end of a block has its edge. -/
theorem leadsTo_of_last (h : u.TraceBuilt v runs c pieces) (hi : i < pieces.length) {b : Block}
    (hBlock : v.blocks[i]? = some b) {before : List Placed} {p : Placed} {off : UInt32}
    (hLast : v.instructionsOf i = before ++ [p]) (hTarget : u.method.linkage.target? p = some off) :
    v.LeadsTo i b.taken off := by
  obtain ⟨b', last, hBlock', hEnd, hTaken, _⟩ := h.edges hi
  obtain rfl : b = b' := Option.some.inj (hBlock.symm.trans hBlock')
  rw [hLast, List.getLast?_concat] at hEnd
  obtain rfl : p = last := Option.some.inj hEnd
  generalize b.taken = e at hTaken
  cases hTaken with
  | inside hTarget' hFirst =>
      obtain rfl := Option.some.inj (hTarget.symm.trans hTarget')
      obtain ⟨hBehind, ⟨b', hAt, hKind, hStart⟩, _⟩ := hFirst
      exact ⟨_, b', rfl, hBehind, hAt, hStart, .inl hKind⟩
  | branch hTarget' _ hCell =>
      obtain rfl := Option.some.inj (hTarget.symm.trans hTarget')
      have hNotCode : (if p.insn.isGoto then BlockKind.chainHot else .chainNormal) ≠ .code := by
        split <;> decide
      have hBehind := (h.behind_of_cellAt hi hCell hNotCode).1
      obtain ⟨b', hAt, hKind, hStart, _⟩ := hCell
      refine ⟨_, b', rfl, hBehind, hAt, hStart, .inr ?_⟩
      rw [hKind]
      split <;> rfl
  | call hNone => cases hNone.symm.trans hTarget
  | nowhere hNone => cases hNone.symm.trans hTarget

/-- A branch that is not the last of what is planned for its run has no edge. -/
theorem straight_of_keeps (h : u.TraceBuilt v runs c pieces)
    (hKeeps : v.KeepsSideExits u.method.linkage) {x : Run × Nat} (hx : x ∈ Run.plan c runs) :
    x.1.Straight u.code u.method.linkage x.2 := by
  intro k hk
  obtain ⟨i, hPlanned⟩ := List.mem_iff_getElem?.mp hx
  obtain ⟨hi, hCode⟩ := h.instructionsOf_eq hPlanned
  obtain ⟨b, _, hBlock, _⟩ := h.edges hi
  have hKind := (h.kind_eq_code_iff hBlock).mpr hi
  have hBefore : k < x.2 := by omega
  obtain ⟨after, hSplit, hLength⟩ := u.code.walk_split x.1.start.toNat hBefore
  cases hTarget : u.method.linkage.target? (u.code.walked x.1.start.toNat k) with
  | none => rfl
  | some off =>
      obtain ⟨rfl, _⟩ := hKeeps i b hBlock hKind _ _ after off (hCode.trans hSplit) hTarget
      rw [List.length_nil] at hLength
      omega

/-- A trace whose runs branch at their ends only keeps all its side exits. -/
theorem keeps_of_straight (h : u.TraceBuilt v runs c pieces)
    (hStraight : ∀ x ∈ Run.plan c runs, x.1.Straight u.code u.method.linkage x.2) :
    v.KeepsSideExits u.method.linkage := by
  intro i b hBlock hKind before p after off hSplit hTarget
  have hi := (h.kind_eq_code_iff hBlock).mp hKind
  obtain ⟨x, hPlanned⟩ := h.exists_planned hi
  have hCode := (h.instructionsOf_eq hPlanned).2
  have hLast : after = [] := by
    by_contra hMore
    have hWalk := hCode.symm.trans hSplit
    obtain ⟨_, rfl⟩ := Code.eq_walked_of_append hWalk
    have hLength := congrArg List.length hWalk
    have hPos := List.length_pos_iff.mpr hMore
    simp only [Code.length_walk, List.length_append, List.length_cons] at hLength
    have hNone := hStraight x (List.mem_of_getElem? hPlanned) before.length (by omega)
    cases hNone.symm.trans hTarget
  subst hLast
  exact ⟨rfl, h.leadsTo_of_last hi hBlock hSplit hTarget⟩

end TraceBuilt

/-- What it means for a trace to have been built. -/
theorem Fresh.traceBuilt {u v : WorkUnit} {c : Int64} (hFresh : u.Fresh)
    (hBuild : u.buildTrace c.toInt = .ok v) :
    ∃ t pieces, u.trace = some t ∧ u.TraceBuilt v t.runs c.toInt.toNat pieces := by
  obtain ⟨t, hTrace, hRuns, hPos, hCounts⟩ := exists_trace_of_ok hBuild
  rw [← natCast_toNat_toInt hPos] at hBuild
  obtain ⟨pieces, h⟩ := traceBuilt_of_ok hFresh hTrace hRuns hCounts (Int.lt_toNat.mpr hPos)
    (toNat_toInt_lt c) hBuild
  exact ⟨t, pieces, hTrace, h⟩

/-- When no side exit of a trace is lost. Where the build of a fresh unit succeeds, every branch is
the last instruction of its block and is represented by the branch edge of the block, exactly if
each run that is entered is straight as far as it is compiled. -/
theorem buildTrace_sideExits {u v : WorkUnit} {t : Trace} {c : Int64} (hFresh : u.Fresh)
    (hTrace : u.trace = some t) (hBuild : u.buildTrace c.toInt = .ok v) :
    v.KeepsSideExits u.method.linkage ↔
      ∀ x ∈ Run.plan c.toInt.toNat t.runs, x.1.Straight u.code u.method.linkage x.2 := by
  obtain ⟨t', pieces, hTrace', h⟩ := hFresh.traceBuilt hBuild
  obtain rfl : t = t' := Option.some.inj (hTrace.symm.trans hTrace')
  exact ⟨fun hKeeps x hx => h.straight_of_keeps hKeeps hx, h.keeps_of_straight⟩

/-- A loop that leaves through its last instruction. -/
theorem buildTrace_sideExits_loop :
    ∃ v, (loose loopCode (some loopTrace)).Fresh ∧
      (loose loopCode (some loopTrace)).buildTrace 3 = .ok v ∧
      Linkage.empty.target? (loopCode.walked 0 1) = some 0 ∧ v.KeepsSideExits Linkage.empty := by
  have hFresh := fresh_loose loopCode (some loopTrace)
  have hStraight : Linkage.empty.target? (loopCode.walked 0 1) = some 0 ∧
      ∀ x ∈ Run.plan 3 loopTrace.runs, x.1.Straight loopCode Linkage.empty x.2 := by
    decide +kernel
  obtain ⟨v, _, hBuild, _⟩ := buildTrace_ok hFresh rfl (by decide) (by decide) (by decide)
    (by decide) fits_loopTrace
  exact ⟨v, hFresh, hBuild, hStraight.1,
    (buildTrace_sideExits (c := 3) hFresh rfl hBuild).mpr hStraight.2⟩

/-- A conditional branch over the instruction behind it, then a return. -/
def skipCode : Code := ⟨#[0x0038, 0x0003, 0x0012, 0x000e], by decide⟩

def skipTrace : Trace :=
  { name := "skip", method := (loose skipCode none).method, runs := [⟨0, 3, true⟩] }

/-- A side exit is lost: the branch stands first of three in the only code block, which has no
branch edge, and no other block stands for its target. -/
theorem sideExit_lost_skip :
    (loose skipCode (some skipTrace)).Fresh ∧
    ∃ v, (loose skipCode (some skipTrace)).buildTrace 100 = .ok v ∧
      v.instructionsOf 0 = skipCode.walk 0 3 ∧
      Linkage.empty.target? (skipCode.walked 0 0) = some 3 ∧
      v.blocks.toList.map (fun b => (b.kind, b.start, b.taken)) =
        [(.code, 0, noBlock), (.pcReconstruction, 0, noBlock), (.exceptionHandling, 0, noBlock)] ∧
      ¬v.KeepsSideExits Linkage.empty := by
  have hAll : ((loose skipCode (some skipTrace)).buildTrace 100).stop? = none ∧
      ((loose skipCode (some skipTrace)).buildTrace 100).unit.instructionsOf 0 =
        skipCode.walk 0 3 ∧
      Linkage.empty.target? (skipCode.walked 0 0) = some 3 ∧
      ((loose skipCode (some skipTrace)).buildTrace 100).unit.blocks.toList.map
          (fun b => (b.kind, b.start, b.taken)) =
        [(.code, 0, noBlock), (.pcReconstruction, 0, noBlock),
          (.exceptionHandling, 0, noBlock)] := by
    decide +kernel
  obtain ⟨hStop, hCode, hTarget, hBlocks⟩ := hAll
  obtain ⟨v, hBuild⟩ := Build.stop?_eq_none_iff.mp hStop
  rw [hBuild] at hCode hBlocks
  refine ⟨fresh_loose .., v, hBuild, hCode, hTarget, hBlocks, fun hKeeps => ?_⟩
  obtain ⟨b, rest, hShape, hKind⟩ : ∃ b rest, v.blocks.toList = b :: rest ∧ b.kind = .code := by
    obtain ⟨b, rest, hShape, hView, _⟩ := List.map_eq_cons_iff.mp hBlocks
    exact ⟨b, rest, hShape, congrArg Prod.fst hView⟩
  have hBlock : v.blocks[0]? = some b := by
    rw [← Array.getElem?_toList, hShape]
    rfl
  have hLast := (hKeeps 0 b hBlock hKind [] _ _ 3 hCode hTarget).1
  cases hLast

end WorkUnit

end TraceJit
