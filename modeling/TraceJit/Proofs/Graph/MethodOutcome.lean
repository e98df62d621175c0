import Mathlib.Data.Nat.Find
import TraceJit.Proofs.Graph.MethodGraph

/-!
How building the graph of a method ends. There are five ways, told apart by the walk over the
code and by where its branches lead; nothing else about the method matters.
-/

namespace TraceJit.WorkUnit

open Entry

/-- The five ways in which the build of a fresh unit ends, with what stopped it. -/
inductive MethodVerdict (u : WorkUnit) : Option Stop → Prop where
  /-- An instruction does not fit, and no branch before it leads past the end of the code. -/
  | malformed {k : Nat} (hPasses : u.ScanPasses k)
      (hInside : u.code.walkOffset 0 k < u.code.units.size)
      (hUnfit : ¬u.code.Fits (u.code.walkOffset 0 k)) :
      MethodVerdict u (some (.failed (.malformed (.stuck u.name (u.code.walked 0 k).insn.op
        (u.code.walked 0 k).offset
        ⟨(u.code.walked 0 k).offset, (u.code.walked 0 k).insn.width, u.code.size⟩))))
  /-- A branch leads past the end of the code, and everything before it is sound. -/
  | mark {k : Nat} {t : UInt32} (hPasses : u.ScanPasses k)
      (hFits : u.code.Fits (u.code.walkOffset 0 k))
      (hTarget : u.method.linkage.target? (u.code.walked 0 k) = some t)
      (hPast : u.code.size < t) :
      MethodVerdict u (some (.failed (.invariant
        (.mark u.name (u.code.walked 0 k).offset t))))
  /-- A branch leads into the inside of an instruction. The marks call for one block too many for
  each distinct such target. -/
  | split {n : Nat} (hCovers : u.ScanCovers n) (hStray : u.strayTargets n ≠ ∅) :
      MethodVerdict u (some (.failed (.invariant (.split u.name
        ((u.leaderOffsets n).length + (u.strayTargets n).card) (u.leaderOffsets n).length))))
  /-- A branch leads to the end of the code; the first such branch is named. -/
  | link {n k : Nat} (hCovers : u.ScanCovers n) (hStray : u.strayTargets n = ∅) (hk : k < n)
      (hTarget : u.method.linkage.target? (u.code.walked 0 k) = some u.code.size)
      (hFirst : ∀ j < k, u.method.linkage.target? (u.code.walked 0 j) ≠ some u.code.size) :
      MethodVerdict u (some (.failed (.invariant
        (.link u.name (u.code.walked 0 k).offset u.code.size))))
  /-- Every branch leads to an instruction. -/
  | finished {n : Nat} (hCovers : u.ScanCovers n) (hStray : u.strayTargets n = ∅)
      (hInside : ∀ k < n, u.method.linkage.target? (u.code.walked 0 k) ≠ some u.code.size) :
      MethodVerdict u none

section Verdict

variable {u : WorkUnit} {n : Nat}

/-- A build stops as its scan does. -/
theorem buildMethod_of_scan_stop {s : Stop} (hSize : u.code.size ≠ 0)
    (hStop : u.scan.stop? = some s) : u.buildMethod.stop? = some s := by
  rw [buildMethod, if_neg hSize]
  exact Build.stop?_bind hStop _

/-- The blocks in front of the first branch to the end of the code are linked, and then the pass
stops at this branch. -/
theorem CutWalk.linkMethod_stop {v : WorkUnit} {bodies : List (List Entry)} {k : Nat}
    (h : u.CutWalk n bodies) (hCovers : u.ScanCovers n) (hn : 0 < n)
    (hStray : u.strayTargets n = ∅) (hViews : v.Represents (splitViews 0 bodies))
    (hSetting : v.setting = u.scannedSetting n) (hk : k < n)
    (hTarget : u.method.linkage.target? (u.code.walked 0 k) = some u.code.size)
    (hFirst : ∀ j < k, u.method.linkage.target? (u.code.walked 0 j) ≠ some u.code.size) :
    v.linkMethod.stop? = some (.failed (.invariant
      (.link u.name (u.code.walked 0 k).offset u.code.size))) := by
  have hMethod := method_of_scannedSetting hSetting
  have hAscending := h.ascending hCovers.passes
  -- The branch is the last instruction of its block.
  have hMem : u.code.walked 0 k ∈ bodies.flatten.map (·.placed) := by
    rw [h.placed]
    exact Code.mem_walk.mpr ⟨k, hk, rfl⟩
  obtain ⟨e, he, hPlaced⟩ := List.mem_map.mp hMem
  obtain ⟨piece, hPiece, hIn⟩ := List.mem_flatten.mp he
  obtain ⟨front, back, rfl⟩ := List.mem_iff_append.mp hIn
  rw [← hPlaced] at hTarget ⊢
  obtain rfl := h.eq_nil_of_endsBlock hCovers.passes hPiece (Linkage.endsBlock_of_target? hTarget)
  -- Every branch in an earlier block comes before it.
  obtain ⟨before, after, hBodies⟩ := List.mem_iff_append.mp hPiece
  have hBefore : ∀ piece ∈ before, ∀ x ∈ piece,
      u.method.linkage.target? x.placed ≠ some u.code.size := by
    intro piece hp x hx
    have hLess : x.placed.offset < e.placed.offset := by
      have hPairwise := (List.pairwise_flatten.mp hAscending.sorted).2
      rw [hBodies, List.pairwise_append] at hPairwise
      exact hPairwise.2.2 piece hp _ (List.mem_cons_self ..) x hx e hIn
    obtain ⟨j, hj, hEq⟩ := Code.mem_walk.mp (h.placed_mem (by simp [hBodies, hp]) hx)
    rw [← hEq, hPlaced, u.code.walked_offset_lt_iff hCovers.passes.fits hj hk] at hLess
    exact hEq ▸ hFirst j hLess
  have hBody := map_body_splitViews 0 bodies
  rw [hBodies, List.map_eq_append_iff] at hBody
  obtain ⟨mid, rest, hAll, hMid, hRest⟩ := hBody
  obtain ⟨w, post, rfl, hOwn, _⟩ := List.map_eq_cons_iff.mp hRest
  rw [← hBodies] at hAll
  have hNone : startingAt bodies u.code.size = noBlock := by
    rw [startingAt_eq_noBlock_iff, h.starts]
    exact hCovers.passes.size_notMem_leaderOffsets
  have hName : v.name = u.name := by rw [name, name, hMethod]
  rw [← hName]
  refine linkMethod_astray hAscending hViews hAll.symm ?_ hOwn (hMethod ▸ hTarget) hNone
  intro x hx
  have hxBody : x.body ∈ before := hMid ▸ List.mem_map_of_mem hx
  rw [hMethod]
  exact h.resolved hCovers hn hStray (by simp [hBodies, hxBody]) (hBefore _ hxBody)

/-- The build of a fresh unit ends as its verdict says. -/
theorem MethodVerdict.stop?_eq {r : Option Stop} (hFresh : u.Fresh) (hSize : u.code.size ≠ 0)
    (h : u.MethodVerdict r) : u.buildMethod.stop? = r := by
  cases h with
  | malformed hPasses hInside hUnfit =>
      exact buildMethod_of_scan_stop hSize (scan_stuck hFresh hPasses hInside hUnfit)
  | mark hPasses hFits hTarget hPast =>
      exact buildMethod_of_scan_stop hSize (scan_astray hFresh hPasses hFits hTarget hPast)
  | split hCovers hStray =>
      obtain ⟨v, _, _, _, _, _, hBuild⟩ := buildMethod_covered hFresh hSize hCovers
      rw [hBuild, if_neg hStray]
      rfl
  | link hCovers hStray hk hTarget hFirst =>
      obtain ⟨v, bodies, hCut, hViews, hSetting, _, hBuild⟩ :=
        buildMethod_covered hFresh hSize hCovers
      rw [hBuild, if_pos hStray]
      exact Build.stop?_bind (hCut.linkMethod_stop hCovers (hCovers.pos hSize) hStray hViews
        hSetting hk hTarget hFirst) _
  | finished hCovers hStray hInside =>
      obtain ⟨w, _, hBuild, _⟩ := buildMethod_ok hFresh hSize hCovers hStray hInside
      rw [hBuild]
      rfl

/-- A property that some number below `n` has is had by a first one. -/
theorem exists_first {P : Nat → Prop} (h : ∃ k < n, P k) : ∃ k < n, P k ∧ ∀ j < k, ¬P j := by
  classical
  obtain ⟨hLess, hHolds⟩ := Nat.find_spec h
  exact ⟨Nat.find h, hLess, hHolds, fun j hj hP => Nat.find_min h hj ⟨by omega, hP⟩⟩

/-- One of the five verdicts applies to every method. -/
theorem exists_methodVerdict (u : WorkUnit) : ∃ r, u.MethodVerdict r := by
  obtain ⟨n, hFits, hUnfit, _, hStop⟩ := u.code.sweep_zero_spec
  by_cases hPast : ∃ k < n, ∃ t, u.method.linkage.target? (u.code.walked 0 k) = some t ∧
      u.code.size < t
  · obtain ⟨k, hk, ⟨t, hTarget, hAbove⟩, hFirst⟩ := exists_first hPast
    refine ⟨_, .mark (fun j hj => ⟨hFits j (by omega), fun s hs => ?_⟩) (hFits k hk) hTarget hAbove⟩
    exact UInt32.not_lt.mp fun hOver => hFirst j hj ⟨s, hs, hOver⟩
  · have hPasses : u.ScanPasses n := fun k hk =>
      ⟨hFits k hk, fun t ht => UInt32.not_lt.mp fun hOver => hPast ⟨k, hk, t, ht, hOver⟩⟩
    rcases hStop with ⟨hEnd, _⟩ | ⟨hInside, _⟩
    · have hCovers : u.ScanCovers n := ⟨hPasses, hEnd⟩
      by_cases hStray : u.strayTargets n = ∅
      · by_cases hToEnd : ∃ k < n,
            u.method.linkage.target? (u.code.walked 0 k) = some u.code.size
        · obtain ⟨k, hk, hTarget, hFirst⟩ := exists_first hToEnd
          exact ⟨_, .link hCovers hStray hk hTarget hFirst⟩
        · exact ⟨_, .finished hCovers hStray fun k hk hTarget => hToEnd ⟨k, hk, hTarget⟩⟩
      · exact ⟨_, .split hCovers hStray⟩
    · exact ⟨_, .malformed hPasses hInside hUnfit⟩

/-- The build of a method has the outcome that its verdict gives, and no other. -/
theorem stop?_eq_iff_methodVerdict (hFresh : u.Fresh) (hSize : u.code.size ≠ 0)
    (r : Option Stop) : u.buildMethod.stop? = r ↔ u.MethodVerdict r := by
  constructor
  · rintro rfl
    obtain ⟨r, hVerdict⟩ := u.exists_methodVerdict
    rw [hVerdict.stop?_eq hFresh hSize]
    exact hVerdict
  · exact fun hVerdict => hVerdict.stop?_eq hFresh hSize

/-- The walk ends at the end of the code, and every branch leads to an instruction. -/
def WellFormed (u : WorkUnit) : Prop :=
  ∃ n, u.code.walkOffset 0 n = u.code.units.size ∧ ∀ k < n, u.code.Fits (u.code.walkOffset 0 k) ∧
    ∀ t ∈ u.method.linkage.target? (u.code.walked 0 k), ∃ j < n, (u.code.walked 0 j).offset = t

/-- A method is built exactly if it is well formed. -/
theorem methodVerdict_none_iff (hSize : u.code.size ≠ 0) :
    u.MethodVerdict none ↔ u.WellFormed := by
  constructor
  · rintro ⟨⟩
    next n hCovers hStray hInside =>
      refine ⟨n, hCovers.ends, fun k hk => ⟨hCovers.passes.fits k hk, fun t hTarget => ?_⟩⟩
      have hMem := hCovers.target_eq_size_or_mem (hCovers.pos hSize) hStray
        (mem_branchTargets.mpr ⟨_, Code.mem_walk.mpr ⟨k, hk, rfl⟩, hTarget⟩)
      exact (mem_leaderOffsets.mp (hMem.resolve_left fun hEnd =>
        hInside k hk (hEnd ▸ hTarget))).1
  · rintro ⟨n, hEnds, hSound⟩
    have hBelow : ∀ j < n, (u.code.walked 0 j).offset < u.code.size := by
      intro j hj
      rw [UInt32.lt_iff_toNat_lt, u.code.walked_offset_toNat (hSound j hj).1, Code.size_toNat]
      exact (hSound j hj).1.1
    have hPasses : u.ScanPasses n := by
      refine fun k hk => ⟨(hSound k hk).1, fun t hTarget => ?_⟩
      obtain ⟨j, hj, rfl⟩ := (hSound k hk).2 t hTarget
      exact UInt32.le_of_lt (hBelow j hj)
    refine .finished ⟨hPasses, hEnds⟩ ?_ fun k hk hTarget => ?_
    · rw [strayTargets, Finset.filter_eq_empty_iff]
      intro t hTarget
      obtain ⟨p, hp, hBranch⟩ := mem_branchTargets.mp hTarget
      obtain ⟨k, hk, rfl⟩ := Code.mem_walk.mp hp
      obtain ⟨j, hj, rfl⟩ := (hSound k hk).2 t hBranch
      exact hPasses.not_insideInstruction hj
    · obtain ⟨j, hj, hEq⟩ := (hSound k hk).2 _ hTarget
      exact UInt32.lt_irrefl _ (hEq ▸ hBelow j hj)

end Verdict

theorem wellFormed_loop : (loose loopCode none).WellFormed := by
  have hWalk : loopCode.walkOffset 0 2 = 2 ∧
      (∀ k < 2, loopCode.Fits (loopCode.walkOffset 0 k)) ∧
      Linkage.empty.target? (loopCode.walked 0 0) = none ∧
      Linkage.empty.target? (loopCode.walked 0 1) = some (loopCode.walked 0 0).offset := by
    decide +kernel
  obtain ⟨hEnds, hFits, hFirst, hSecond⟩ := hWalk
  refine ⟨2, hEnds, fun k hk => ⟨hFits k hk, fun t hTarget => ?_⟩⟩
  obtain rfl | rfl : k = 0 ∨ k = 1 := by omega
  · cases hFirst.symm.trans hTarget
  · exact ⟨0, by decide, Option.some.inj (hSecond.symm.trans hTarget)⟩

/-- Exact outcome of a build. A fresh unit with code ends in exactly one of five ways, which the
walk over its code and its branches decide. It is built if and only if the walk ends at the end of
the code and every branch leads to an instruction. -/
theorem buildMethod_outcome {u : WorkUnit} (hFresh : u.Fresh) (hSize : u.code.size ≠ 0) :
    (∀ r, u.buildMethod.stop? = r ↔ u.MethodVerdict r) ∧
      ((∃ v, u.buildMethod = .ok v) ↔ u.WellFormed) := by
  refine ⟨stop?_eq_iff_methodVerdict hFresh hSize, ?_⟩
  rw [← methodVerdict_none_iff hSize, ← stop?_eq_iff_methodVerdict hFresh hSize,
    Build.stop?_eq_none_iff]

/-- A method that can be built. -/
theorem buildMethod_outcome_loop :
    loopCode.size ≠ 0 ∧ ∃ v, (loose loopCode none).buildMethod = .ok v :=
  ⟨by decide, (buildMethod_outcome (fresh_loose ..) (by decide)).2.mpr wellFormed_loop⟩

end TraceJit.WorkUnit
