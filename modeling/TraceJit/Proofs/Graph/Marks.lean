import Mathlib.Data.Finset.Card
import TraceJit.Graph.StartSet

/-!
Sets of marks as sets: marking adds one offset, the list stays ascending, and the number of blocks
that the marks call for is the number of marks other than the end of the code.
-/

namespace TraceJit

theorem mem_insertAscending {x y : UInt32} {l : List UInt32} :
    y ∈ insertAscending x l ↔ y = x ∨ y ∈ l := by
  induction l with
  | nil => simp [insertAscending]
  | cons z l ih =>
      rw [insertAscending]
      split_ifs with hLess hEq
      · simp
      · subst hEq
        simp
      · rw [List.mem_cons, ih, List.mem_cons]
        exact or_left_comm

theorem pairwise_insertAscending {x : UInt32} {l : List UInt32} (hSorted : l.Pairwise (· < ·)) :
    (insertAscending x l).Pairwise (· < ·) := by
  induction l with
  | nil => simp [insertAscending]
  | cons z l ih =>
      rw [List.pairwise_cons] at hSorted
      rw [insertAscending]
      split_ifs with hLess hEq
      · refine List.pairwise_cons.mpr ⟨?_, List.pairwise_cons.mpr hSorted⟩
        intro y hy
        rcases List.mem_cons.mp hy with rfl | hy
        · exact hLess
        · exact UInt32.lt_trans hLess (hSorted.1 y hy)
      · exact List.pairwise_cons.mpr hSorted
      · refine List.pairwise_cons.mpr ⟨?_, ih hSorted.2⟩
        intro y hy
        rcases mem_insertAscending.mp hy with rfl | hy
        · exact UInt32.lt_of_le_of_ne (UInt32.not_lt.mp hLess) (Ne.symm hEq)
        · exact hSorted.1 y hy

namespace StartSet

def toFinset (s : StartSet) : Finset UInt32 := s.offsets.toFinset

def markAll (s : StartSet) (offs : List UInt32) : StartSet := offs.foldl mark s

theorem markAll_append (s : StartSet) (offs offs' : List UInt32) :
    s.markAll (offs ++ offs') = (s.markAll offs).markAll offs' := List.foldl_append

theorem isStart_iff (s : StartSet) (off : UInt32) : s.isStart off = true ↔ off ∈ s.toFinset := by
  simp [isStart, toFinset]

@[simp] theorem mark_limit (s : StartSet) (off : UInt32) : (s.mark off).limit = s.limit := by
  unfold mark; split <;> rfl

@[simp] theorem markAll_limit (s : StartSet) (offs : List UInt32) :
    (s.markAll offs).limit = s.limit := by
  induction offs generalizing s with
  | nil => rfl
  | cons off offs ih => exact (ih (s.mark off)).trans (s.mark_limit off)

/-- An accepted mark is in the set. -/
theorem mark_toFinset (s : StartSet) {off : UInt32} (hAccepted : off ≤ s.limit) :
    (s.mark off).toFinset = insert off s.toFinset := by
  ext y
  simp only [mark, accepts, hAccepted, decide_true, if_true, toFinset, List.mem_toFinset,
    mem_insertAscending, Finset.mem_insert]

/-- So are all of them. -/
theorem markAll_toFinset (s : StartSet) {offs : List UInt32}
    (hAccepted : ∀ off ∈ offs, off ≤ s.limit) :
    (s.markAll offs).toFinset = s.toFinset ∪ offs.toFinset := by
  induction offs generalizing s with
  | nil => simp [markAll]
  | cons off offs ih =>
      have hRest : ∀ y ∈ offs, y ≤ (s.mark off).limit := fun y hy => by
        rw [mark_limit]
        exact hAccepted y (List.mem_cons_of_mem _ hy)
      have hStep : (s.markAll (off :: offs)).toFinset = ((s.mark off).markAll offs).toFinset := rfl
      rw [hStep, ih _ hRest, mark_toFinset s (hAccepted off (List.mem_cons_self ..)),
        List.toFinset_cons, Finset.insert_union, Finset.union_insert]

/-- Marks stay in their order, without repetition. -/
theorem pairwise_markAll (s : StartSet) (offs : List UInt32)
    (hSorted : s.offsets.Pairwise (· < ·)) : (s.markAll offs).offsets.Pairwise (· < ·) := by
  induction offs generalizing s with
  | nil => exact hSorted
  | cons off offs ih =>
      apply ih
      unfold mark
      split
      · exact pairwise_insertAscending hSorted
      · exact hSorted

/-- Their number is that of different marks. -/
theorem count_eq_card (s : StartSet) (hSorted : s.offsets.Pairwise (· < ·)) :
    s.count = s.toFinset.card := by
  have hNodup : s.offsets.Nodup := hSorted.imp fun hLess => UInt32.ne_of_lt hLess
  exact (List.toFinset_card_of_nodup hNodup).symm

/-- The end of the code calls for no block; every other mark calls for one. -/
theorem expectedBlocks_eq_card (s : StartSet) (hSorted : s.offsets.Pairwise (· < ·)) :
    s.expectedBlocks = (s.toFinset.erase s.limit).card := by
  rw [expectedBlocks, endMarked, count_eq_card s hSorted]
  by_cases hEnd : s.limit ∈ s.toFinset
  · rw [Finset.card_erase_of_mem hEnd, if_pos ((s.isStart_iff _).mpr hEnd)]
  · rw [Finset.erase_eq_of_notMem hEnd, if_neg fun h => hEnd ((s.isStart_iff _).mp h)]

end StartSet

end TraceJit
