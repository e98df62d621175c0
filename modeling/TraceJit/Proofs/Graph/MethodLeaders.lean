import TraceJit.Proofs.Graph.MethodSplit

/-!
Which marks come out as blocks. A mark below the end of the code is the offset of an instruction,
and then a block starts there, or a branch target strictly inside an instruction, and then none
does. The marks therefore call for exactly as many blocks too many as there are such targets.
-/

namespace TraceJit.WorkUnit

open Entry

/-- The scan walks over the whole code in `n` instructions. -/
structure ScanCovers (u : WorkUnit) (n : Nat) : Prop where
  passes : u.ScanPasses n
  ends : u.code.walkOffset 0 n = u.code.units.size

/-- The distinct targets of the branches among the first `n` instructions. -/
def branchTargets (u : WorkUnit) (n : Nat) : Finset UInt32 :=
  ((u.code.walk 0 n).filterMap u.method.linkage.target?).toFinset

/-- The offset lies strictly inside one of the first `n` instructions. -/
def InsideInstruction (u : WorkUnit) (n : Nat) (off : UInt32) : Prop :=
  ∃ j < n, u.code.walkOffset 0 j < off.toNat ∧ off.toNat < u.code.walkOffset 0 (j + 1)

instance (u : WorkUnit) (n : Nat) : DecidablePred (u.InsideInstruction n) :=
  fun off => inferInstanceAs (Decidable
    (∃ j < n, u.code.walkOffset 0 j < off.toNat ∧ off.toNat < u.code.walkOffset 0 (j + 1)))

/-- The distinct branch targets strictly inside an instruction. -/
def strayTargets (u : WorkUnit) (n : Nat) : Finset UInt32 :=
  (u.branchTargets n).filter (u.InsideInstruction n)

def leaderOffsets (u : WorkUnit) (n : Nat) : List UInt32 :=
  ((u.code.walk 0 n).map (·.offset)).filter (u.methodMarks (u.code.walk 0 n)).isStart

section Leaders

variable {u : WorkUnit} {n : Nat}

theorem mem_branchTargets {t : UInt32} :
    t ∈ u.branchTargets n ↔ ∃ p ∈ u.code.walk 0 n, u.method.linkage.target? p = some t := by
  simp [branchTargets]

theorem ScanPasses.marks_le (h : u.ScanPasses n) :
    ∀ off ∈ (u.code.walk 0 n).flatMap u.method.linkage.marks, off ≤ u.code.size := by
  intro off hOff
  obtain ⟨p, hp, hMark⟩ := List.mem_flatMap.mp hOff
  rcases Linkage.mem_marks.mp hMark with ⟨_, rfl⟩ | hTarget
  · obtain ⟨k, hk, rfl⟩ := Code.mem_walk.mp hp
    rw [UInt32.le_iff_toNat_le, Code.size_toNat, u.code.walked_next_toNat (h.fits k hk)]
    exact (h.fits k hk).2.2
  · exact h.target_le p hp off hTarget

/-- What is marked: offset zero, the offset after every boundary, and every branch target. -/
theorem ScanPasses.mem_methodMarks (h : u.ScanPasses n) {off : UInt32} :
    off ∈ (u.methodMarks (u.code.walk 0 n)).toFinset ↔
      off = 0 ∨ (∃ p ∈ u.code.walk 0 n, u.method.linkage.EndsBlock p ∧ off = p.next) ∨
        off ∈ u.branchTargets n := by
  rw [methodMarks, StartSet.markAll_toFinset _ h.marks_le, Finset.mem_union, List.mem_toFinset,
    mem_branchTargets, List.mem_flatMap]
  simp only [Linkage.mem_marks, StartSet.new, StartSet.toFinset, List.mem_toFinset,
    List.mem_singleton]
  constructor
  · rintro (hZero | ⟨p, hp, hNext | hTarget⟩)
    · exact .inl hZero
    · exact .inr (.inl ⟨p, hp, hNext⟩)
    · exact .inr (.inr ⟨p, hp, hTarget⟩)
  · rintro (hZero | ⟨p, hp, hNext⟩ | ⟨p, hp, hTarget⟩)
    · exact .inl hZero
    · exact .inr ⟨p, hp, .inl hNext⟩
    · exact .inr ⟨p, hp, .inr hTarget⟩

/-- A leader is an instruction at a mark. -/
theorem mem_leaderOffsets {off : UInt32} :
    off ∈ u.leaderOffsets n ↔ (∃ k < n, (u.code.walked 0 k).offset = off) ∧
      off ∈ (u.methodMarks (u.code.walk 0 n)).toFinset := by
  rw [leaderOffsets, List.mem_filter, StartSet.isStart_iff, List.mem_map]
  simp only [Code.mem_walk]
  constructor
  · rintro ⟨⟨_, ⟨k, hk, rfl⟩, hOff⟩, hMark⟩
    exact ⟨⟨k, hk, hOff⟩, hMark⟩
  · rintro ⟨⟨k, hk, hOff⟩, hMark⟩
    exact ⟨⟨_, ⟨k, hk, rfl⟩, hOff⟩, hMark⟩

/-- No instruction, and so no block, starts at the end of the code. -/
theorem ScanPasses.size_notMem_leaderOffsets (h : u.ScanPasses n) :
    u.code.size ∉ u.leaderOffsets n := by
  intro hMem
  obtain ⟨⟨k, hk, hEq⟩, _⟩ := mem_leaderOffsets.mp hMem
  have hInside := (h.fits k hk).1
  rw [← UInt32.toNat_inj, u.code.walked_offset_toNat (h.fits k hk), Code.size_toNat] at hEq
  omega

/-- Every mark below the end is the offset of an instruction or a stray branch target. -/
theorem ScanCovers.mem_marks_erase (h : u.ScanCovers n) (hn : 0 < n) {off : UInt32} :
    off ∈ (u.methodMarks (u.code.walk 0 n)).toFinset.erase u.code.size ↔
      off ∈ u.leaderOffsets n ∨ off ∈ u.strayTargets n := by
  have hFits := h.passes.fits
  have hSize := u.code.size_toNat
  rw [Finset.mem_erase, mem_leaderOffsets, strayTargets, Finset.mem_filter]
  constructor
  · rintro ⟨hNotEnd, hMark⟩
    have hNe : off.toNat ≠ u.code.units.size := by
      rw [← hSize]
      exact fun hEq => hNotEnd (UInt32.toNat_inj.mp hEq)
    rcases h.passes.mem_methodMarks.mp hMark with rfl | ⟨p, hp, _, rfl⟩ | hTarget
    · exact .inl ⟨⟨0, hn, rfl⟩, hMark⟩
    · obtain ⟨k, hk, rfl⟩ := Code.mem_walk.mp hp
      have hNext := u.code.walked_next_toNat (hFits k hk)
      have hInner : k + 1 < n := by
        refine Nat.lt_of_le_of_ne hk fun hLast => ?_
        rw [hNext, hLast] at hNe
        exact hNe h.ends
      refine .inl ⟨⟨k + 1, hInner, ?_⟩, hMark⟩
      rw [← UInt32.toNat_inj, hNext, u.code.walked_offset_toNat (hFits _ hInner)]
    · obtain ⟨p, hp, hBranch⟩ := mem_branchTargets.mp hTarget
      have hLe := UInt32.le_iff_toNat_le.mp (h.passes.target_le p hp off hBranch)
      obtain ⟨j, hj, hFrom, hTo⟩ := u.code.exists_walkOffset_le (n := n) (Nat.zero_le off.toNat)
        (by rw [h.ends]; omega)
      rcases Nat.lt_or_eq_of_le hFrom with hInside | hAt
      · exact .inr ⟨hTarget, j, hj, hInside, hTo⟩
      · refine .inl ⟨⟨j, hj, ?_⟩, hMark⟩
        rw [← UInt32.toNat_inj, u.code.walked_offset_toNat (hFits j hj), hAt]
  · rintro (⟨⟨k, hk, rfl⟩, hMark⟩ | ⟨hTarget, j, hj, _, hTo⟩)
    · refine ⟨fun hEq => h.passes.size_notMem_leaderOffsets ?_, hMark⟩
      exact mem_leaderOffsets.mpr ⟨⟨k, hk, hEq⟩, hEq ▸ hMark⟩
    · refine ⟨fun hEq => ?_, h.passes.mem_methodMarks.mpr (.inr (.inr hTarget))⟩
      have hInside := (hFits j hj).2.2
      rw [hEq, hSize] at hTo
      exact Nat.not_lt_of_le hInside hTo

/-- No instruction starts at a stray branch target. -/
theorem ScanPasses.not_insideInstruction (h : u.ScanPasses n) {k : Nat} (hk : k < n) :
    ¬u.InsideInstruction n (u.code.walked 0 k).offset := by
  rintro ⟨j, hj, hFrom, hTo⟩
  rw [u.code.walked_offset_toNat (h.fits k hk)] at hFrom hTo
  rcases Nat.lt_or_ge j k with hLess | hMore
  · have := u.code.walkOffset_mono 0 (Nat.succ_le_of_lt hLess)
    exact Nat.not_lt_of_le this hTo
  · exact Nat.not_lt_of_le (u.code.walkOffset_mono 0 hMore) hFrom

/-- Where there are no stray branch targets, every branch leads to a leader or to the end. -/
theorem ScanCovers.target_eq_size_or_mem (h : u.ScanCovers n) (hn : 0 < n)
    (hStray : u.strayTargets n = ∅) {t : UInt32} (hTarget : t ∈ u.branchTargets n) :
    t = u.code.size ∨ t ∈ u.leaderOffsets n := by
  by_cases hEnd : t = u.code.size
  · exact .inl hEnd
  · have hMark : t ∈ (u.methodMarks (u.code.walk 0 n)).toFinset.erase u.code.size :=
      Finset.mem_erase.mpr ⟨hEnd, h.passes.mem_methodMarks.mpr (.inr (.inr hTarget))⟩
    rw [h.mem_marks_erase hn, hStray] at hMark
    exact .inr (hMark.resolve_right (Finset.notMem_empty t))

/-- Leaders ascend. -/
theorem ScanPasses.pairwise_leaderOffsets (h : u.ScanPasses n) :
    (u.leaderOffsets n).Pairwise (· < ·) :=
  (List.pairwise_map.mpr (u.code.pairwise_walk h.fits)).filter _

/-- The marks call for one block per leader, and for one more per stray branch target. -/
theorem ScanCovers.expectedBlocks_eq (h : u.ScanCovers n) (hn : 0 < n) :
    (u.methodMarks (u.code.walk 0 n)).expectedBlocks =
      (u.leaderOffsets n).length + (u.strayTargets n).card := by
  have hSorted : (u.methodMarks (u.code.walk 0 n)).offsets.Pairwise (· < ·) :=
    StartSet.pairwise_markAll _ _ (by simp [StartSet.new])
  have hLimit : (u.methodMarks (u.code.walk 0 n)).limit = u.code.size := StartSet.markAll_limit ..
  have hNodup : (u.leaderOffsets n).Nodup :=
    h.passes.pairwise_leaderOffsets.imp fun hLess => UInt32.ne_of_lt hLess
  have hDisjoint : Disjoint (u.leaderOffsets n).toFinset (u.strayTargets n) := by
    rw [Finset.disjoint_left]
    intro off hLeader hStray
    obtain ⟨⟨k, hk, rfl⟩, _⟩ := mem_leaderOffsets.mp (List.mem_toFinset.mp hLeader)
    exact h.passes.not_insideInstruction hk (Finset.mem_filter.mp hStray).2
  have hUnion : (u.methodMarks (u.code.walk 0 n)).toFinset.erase u.code.size =
      (u.leaderOffsets n).toFinset ∪ u.strayTargets n := by
    ext off
    rw [h.mem_marks_erase hn, Finset.mem_union, List.mem_toFinset]
  rw [StartSet.expectedBlocks_eq_card _ hSorted, hLimit, hUnion,
    Finset.card_union_of_disjoint hDisjoint, List.toFinset_card_of_nodup hNodup]

/-- The pieces of a walk start at its leaders. -/
theorem map_firstOffset_eq_leaderOffsets {body : List Entry} {bodies : List (List Entry)}
    (hPasses : u.ScanPasses n) (hn : 0 < n) (hPlaced : body.map (·.placed) = u.code.walk 0 n)
    (hPieces : Pieces (u.methodMarks (u.code.walk 0 n)) body bodies) :
    bodies.map firstOffset = u.leaderOffsets n := by
  obtain ⟨m, rfl⟩ := Nat.exists_eq_succ_of_ne_zero (Nat.ne_of_gt hn)
  obtain ⟨e, rest, rfl, hFirst, _⟩ :=
    List.map_eq_cons_iff.mp (hPlaced.trans (u.code.walk_succ_start 0 m))
  have hZero : e.placed.offset = 0 := congrArg Placed.offset hFirst
  have hMarked : (u.methodMarks (u.code.walk 0 (m + 1))).isStart e.placed.offset = true := by
    rw [StartSet.isStart_iff, hPasses.mem_methodMarks]
    exact .inl hZero
  rw [hPieces.map_firstOffset, leaderOffsets, ← hPlaced, List.map_map, List.filter_map,
    List.tail_cons, List.filter_cons_of_pos (by rw [hPlaced]; exact hMarked), hPlaced]
  rfl

end Leaders

end TraceJit.WorkUnit
