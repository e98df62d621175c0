import TraceJit.Proofs.Graph.MethodLeaders
import TraceJit.Proofs.Graph.MethodLink

/-!
The blocks of a method whose code is walked to its end: the walk, cut in front of its leaders.
A boundary ends its block, because the instruction after it is a leader.
-/

namespace TraceJit.WorkUnit

open Entry

/-- The bodies hold the walk over `n` instructions, cut in front of its leaders. -/
structure CutWalk (u : WorkUnit) (n : Nat) (bodies : List (List Entry)) : Prop where
  placed : bodies.flatten.map (·.placed) = u.code.walk 0 n
  full : [] ∉ bodies
  starts : bodies.map firstOffset = u.leaderOffsets n
  unmarked : ∀ piece ∈ bodies, ∀ x ∈ piece.tail,
    x.placed.offset ∉ (u.methodMarks (u.code.walk 0 n)).toFinset

namespace CutWalk

variable {u : WorkUnit} {n : Nat} {bodies : List (List Entry)}

/-- The bodies of a walk that was cut ascend. -/
theorem ascending (h : u.CutWalk n bodies) (hPasses : u.ScanPasses n) : Ascending bodies where
  full := h.full
  sorted := by
    have hSorted := u.code.pairwise_walk hPasses.fits
    rwa [← h.placed, List.pairwise_map] at hSorted

theorem placed_mem (h : u.CutWalk n bodies) {piece : List Entry} {e : Entry}
    (hPiece : piece ∈ bodies) (he : e ∈ piece) : e.placed ∈ u.code.walk 0 n := by
  rw [← h.placed]
  exact List.mem_map_of_mem (List.mem_flatten_of_mem hPiece he)

/-- The place of an instruction in the walk is the number of instructions in front of it. -/
theorem placed_eq (h : u.CutWalk n bodies) {before after : List (List Entry)}
    {front back : List Entry} {e : Entry}
    (hBodies : bodies = before ++ (front ++ e :: back) :: after) :
    (before.flatten ++ front).length < n ∧
      e.placed = u.code.walked 0 (before.flatten ++ front).length := by
  have hPlaced := h.placed
  rw [hBodies, List.flatten_append, List.flatten_cons, List.append_assoc, ← List.append_assoc,
    List.cons_append, List.map_append, List.map_cons] at hPlaced
  have hEq := Code.eq_walked_of_append hPlaced.symm
  rwa [List.length_map] at hEq

/-- Only the last instruction of a block can be a boundary. -/
theorem not_endsBlock (h : u.CutWalk n bodies) (hPasses : u.ScanPasses n)
    {front back : List Entry} {x y : Entry} (hPiece : front ++ x :: y :: back ∈ bodies) :
    ¬u.method.linkage.EndsBlock x.placed := by
  intro hEnds
  obtain ⟨before, after, hBodies⟩ := List.mem_iff_append.mp hPiece
  obtain ⟨hx, hxEq⟩ := h.placed_eq hBodies
  have hShift : front ++ x :: y :: back = (front ++ [x]) ++ y :: back := List.append_cons ..
  rw [hShift] at hBodies hPiece
  obtain ⟨hy, hyEq⟩ := h.placed_eq hBodies
  have hLength : (before.flatten ++ (front ++ [x])).length =
      (before.flatten ++ front).length + 1 := by simp; omega
  have hNext : y.placed.offset = x.placed.next := by
    rw [← UInt32.toNat_inj, hyEq, u.code.walked_offset_toNat (hPasses.fits _ hy), hLength, hxEq,
      u.code.walked_next_toNat (hPasses.fits _ hx)]
  have hMark : y.placed.offset ∈ (u.methodMarks (u.code.walk 0 n)).toFinset :=
    hPasses.mem_methodMarks.mpr (.inr (.inl
      ⟨x.placed, Code.mem_walk.mpr ⟨_, hx, hxEq.symm⟩, hEnds, hNext⟩))
  refine h.unmarked _ hPiece y ?_ hMark
  cases front <;> simp

/-- A boundary is the last instruction of its block. -/
theorem eq_nil_of_endsBlock (h : u.CutWalk n bodies) (hPasses : u.ScanPasses n)
    {front back : List Entry} {x : Entry} (hPiece : front ++ x :: back ∈ bodies)
    (hEnds : u.method.linkage.EndsBlock x.placed) : back = [] := by
  cases back with
  | nil => rfl
  | cons y back => exact absurd hEnds (h.not_endsBlock hPasses hPiece)

/-- The target of a block belongs to an instruction of the walk. -/
theorem lastTarget?_mem (h : u.CutWalk n bodies) {piece : List Entry} {t : UInt32}
    (hPiece : piece ∈ bodies) (hTarget : lastTarget? u.method.linkage piece = some t) :
    ∃ e ∈ piece, e.placed ∈ u.code.walk 0 n ∧ u.method.linkage.target? e.placed = some t := by
  obtain ⟨e, hLast, hBranch⟩ := Option.bind_eq_some_iff.mp hTarget
  have he := List.mem_of_getLast? hLast
  exact ⟨e, he, h.placed_mem hPiece he, hBranch⟩

/-- A branch that does not lead to the end of the code leads to some block. -/
theorem resolved (h : u.CutWalk n bodies) (hCovers : u.ScanCovers n) (hn : 0 < n)
    (hStray : u.strayTargets n = ∅) {v : BlockView} (hBody : v.body ∈ bodies)
    (hInside : ∀ e ∈ v.body, u.method.linkage.target? e.placed ≠ some u.code.size) :
    Resolved u.method.linkage bodies v := by
  intro t hTarget
  obtain ⟨e, he, hWalk, hBranch⟩ := h.lastTarget?_mem hBody hTarget
  have hMem := hCovers.target_eq_size_or_mem hn hStray (mem_branchTargets.mpr ⟨_, hWalk, hBranch⟩)
  rw [ne_eq, startingAt_eq_noBlock_iff, h.starts, not_not]
  exact hMem.resolve_left fun hEnd => hInside e he (hEnd ▸ hBranch)

end CutWalk

section Build

variable {u : WorkUnit} {n : Nat}

/-- A walk over some code has a step. -/
theorem ScanCovers.pos (h : u.ScanCovers n) (hSize : u.code.size ≠ 0) : 0 < n := by
  refine Nat.pos_of_ne_zero fun hZero => hSize ?_
  have hEnds := h.ends
  rw [hZero, Code.walkOffset, ← Code.size_toNat] at hEnds
  exact UInt32.toNat_inj.mp hEnds.symm

def finishMethod (u : WorkUnit) : Build := do
  let w ← u.linkMethod
  return w.say .attempt "METHODINFO" w.methodSummary

/-- Code that is walked to its end is cut in front of its leaders, and then linked, unless there
are stray branch targets. -/
theorem buildMethod_covered (hFresh : u.Fresh) (hSize : u.code.size ≠ 0)
    (hCovers : u.ScanCovers n) :
    ∃ (v : WorkUnit) (bodies : List (List Entry)), u.CutWalk n bodies ∧
      v.Represents (splitViews 0 bodies) ∧ v.setting = u.scannedSetting n ∧ v.numInsts = n ∧
      u.buildMethod =
        if u.strayTargets n = ∅ then v.finishMethod
        else .fail v (.invariant (.split u.name
          ((u.leaderOffsets n).length + (u.strayTargets n).card) (u.leaderOffsets n).length)) := by
  have hn := hCovers.pos hSize
  obtain ⟨w, body, hScan, hWhole, hPlaced, hSetting, hCount⟩ :=
    scan_ok hFresh hCovers.passes hCovers.ends
  obtain ⟨v, bodies, hPieces, hViews, hSame, hCount', hSplit⟩ :=
    splitAtMarks_eq hCovers.passes.fits hn hWhole hPlaced hSetting
  have hStarts := map_firstOffset_eq_leaderOffsets hCovers.passes hn hPlaced hPieces
  have hLength : bodies.length = (u.leaderOffsets n).length := by
    rw [← hStarts, List.length_map]
  refine ⟨v, bodies, ⟨?_, hPieces.ne_nil, hStarts, ?_⟩, hViews, hSame, hCount'.trans hCount, ?_⟩
  · rw [hPieces.flatten_eq, hPlaced]
  · intro piece hPiece x hx
    rw [← StartSet.isStart_iff]
    exact hPieces.not_marked piece hPiece x hx
  · rw [buildMethod, if_neg hSize, hScan]
    simp only [bind, Except.bind, hSplit, hLength, hCovers.expectedBlocks_eq hn,
      Nat.add_eq_left, Finset.card_eq_zero]
    by_cases hStray : u.strayTargets n = ∅
    · simp only [if_pos hStray]
      rfl
    · simp only [if_neg hStray, Build.fail]

/-- A method in which every branch leads to an instruction is built: the walk, cut in front of
its leaders, with every branch linked. -/
theorem buildMethod_ok (hFresh : u.Fresh) (hSize : u.code.size ≠ 0) (hCovers : u.ScanCovers n)
    (hStray : u.strayTargets n = ∅)
    (hInside : ∀ k < n, u.method.linkage.target? (u.code.walked 0 k) ≠ some u.code.size) :
    ∃ (w : WorkUnit) (bodies : List (List Entry)), u.buildMethod = .ok w ∧
      u.CutWalk n bodies ∧
      w.Represents ((splitViews 0 bodies).map (linkView u.method.linkage bodies)) ∧
      w.setting = u.scannedSetting n ∧ w.numInsts = n := by
  obtain ⟨v, bodies, hCut, hViews, hSetting, hCount, hBuild⟩ :=
    buildMethod_covered hFresh hSize hCovers
  have hMethod := method_of_scannedSetting hSetting
  have hResolved : ∀ x ∈ splitViews 0 bodies, Resolved v.method.linkage bodies x := by
    intro x hx
    have hBody : x.body ∈ bodies := by
      rw [← map_body_splitViews 0 bodies]
      exact List.mem_map_of_mem hx
    rw [hMethod]
    refine hCut.resolved hCovers (hCovers.pos hSize) hStray hBody fun e he => ?_
    obtain ⟨k, hk, hEq⟩ := Code.mem_walk.mp (hCut.placed_mem hBody he)
    exact hEq ▸ hInside k hk
  obtain ⟨w, hLink, hFinal, hSame, hCount'⟩ :=
    linkMethod_ok (hCut.ascending hCovers.passes) hViews hResolved
  refine ⟨w.say .attempt "METHODINFO" w.methodSummary, bodies, ?_, hCut,
    (hMethod ▸ hFinal).congr rfl rfl, hSame.trans hSetting, hCount'.trans hCount⟩
  rw [hBuild, if_pos hStray, finishMethod, hLink]
  rfl

end Build

end TraceJit.WorkUnit
