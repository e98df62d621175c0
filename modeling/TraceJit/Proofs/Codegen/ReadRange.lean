import TraceJit.Proofs.Codegen.CodeCache

/-!
Which reads of the code cache are answered. Bytes are given exactly for a range of used memory. The
range is checked by the signed sum of offset and length, so two kinds of lengths pass the check
although there is no such range: those below zero, and those for which the sum leaves the signed
words. No memory of either size can be made, and the read faults.
-/

namespace TraceJit.CodeCache

/-- The `n` bytes at the address are used memory. -/
def Covers (c : CodeCache) (addr : UInt64) (n : Int) : Prop :=
  0 ≤ n ∧ c.base ≤ addr ∧ (addr.toNat : Int) - c.base.toNat + n ≤ c.used

/-- The range starts in used memory or right behind it, and its length is negative or takes the
offset of its end past the largest signed word. -/
def Overlooks (c : CodeCache) (addr : UInt64) (n : Int) : Prop :=
  c.base ≤ addr ∧ addr.toNat ≤ c.base.toNat + c.used ∧
    (n < 0 ∨ 2 ^ 63 ≤ (addr.toNat : Int) - c.base.toNat + n)

/-- A sum of two signed words, the first of which is not negative, wraps at most once. -/
theorem bmod_sum {off : Nat} (hOff : off < 2 ^ 63) (n : Int64) :
    Int.bmod (off + n.toInt) UInt64.size =
      if (off : Int) + n.toInt < 2 ^ 63 then off + n.toInt else off + n.toInt - 2 ^ 64 := by
  have hLow := n.le_toInt
  have hHigh := n.toInt_lt
  rw [Int.bmod_def]
  simp only [UInt64.size]
  split <;> split <;> omega

section

variable {c : CodeCache} {addr : UInt64} {n : Int64}

/-- A range inside of the installed code is read. -/
theorem read_of_covers (h : c.Covers addr n.toInt) :
    c.read addr n.toInt = .ok ((List.range n.toInt.toNat).map fun i =>
      c.byteAt (addr.toNat - c.base.toNat + i)) := by
  obtain ⟨hPos, hBase, hEnd⟩ := h
  rw [UInt64.le_iff_toNat_le] at hBase
  have hLength : n.toInt = (n.toInt.toNat : Int) := (Int.toNat_of_nonneg hPos).symm
  have hAddr : addr.toNat = c.base.toNat + (addr.toNat - c.base.toNat) := by omega
  rw [hLength] at hEnd ⊢
  exact read_eq hAddr (by omega)

/-- A read by the offset of its range. -/
theorem read_of_le (hBase : c.base ≤ addr) :
    c.read addr n.toInt =
      if c.used < addr.toNat - c.base.toNat ∨
          (c.used : Int) < Int.bmod ((addr.toNat - c.base.toNat : Nat) + n.toInt) UInt64.size then
        .error (.outside addr n.toInt)
      else if n.toInt < 0 ∨ (c.used : Int) < (addr.toNat - c.base.toNat : Nat) + n.toInt then
        .error .fault
      else .ok ((List.range n.toInt.toNat).map fun i =>
        c.byteAt (addr.toNat - c.base.toNat + i)) := by
  rw [read, if_neg (UInt64.not_lt.mpr hBase), UInt64.toNat_sub_of_le _ _ hBase]
  simp only [Bool.or_eq_true, decide_eq_true_eq]

/-- A negative length that the check of the bounds overlooks ends in a fault. -/
theorem read_of_overlooks (hUsed : c.used < 2 ^ 63) (h : c.Overlooks addr n.toInt) :
    c.read addr n.toInt = .error .fault := by
  obtain ⟨hBase, hStart, hLength⟩ := h
  have hOrder := UInt64.le_iff_toNat_le.mp hBase
  have hHigh := n.toInt_lt
  rw [read_of_le hBase, bmod_sum (by omega) n, if_neg, if_pos]
  · omega
  · -- A sum that has wrapped is negative.
    split <;> omega

/-- Everything else is refused, with its address and length. -/
theorem read_of_outside (hUsed : c.used < 2 ^ 63) (hCovers : ¬c.Covers addr n.toInt)
    (hOverlooks : ¬c.Overlooks addr n.toInt) :
    c.read addr n.toInt = .error (.outside addr n.toInt) := by
  by_cases hBase : c.base ≤ addr
  · have hOrder := UInt64.le_iff_toNat_le.mp hBase
    simp only [Covers, hBase, true_and] at hCovers
    simp only [Overlooks, hBase, true_and] at hOverlooks
    rw [read_of_le hBase, if_pos]
    by_cases hStart : c.used < addr.toNat - c.base.toNat
    · exact .inl hStart
    · right
      rw [bmod_sum (by omega) n]
      split <;> omega
  · rw [read, if_pos (UInt64.not_le.mp hBase)]

/-- The two cases exclude each other. -/
theorem Covers.not_overlooks (hUsed : c.used < 2 ^ 63) (h : c.Covers addr n.toInt) :
    ¬c.Overlooks addr n.toInt := by
  obtain ⟨hPos, _, hEnd⟩ := h
  rintro ⟨_, _, hLength⟩
  omega

end

/-- What a read answers, in every state of the cache. It gives bytes, those of the memory, exactly
for a range of used memory; it faults exactly for the lengths that the check overlooks; and any
other range is reported as outside. -/
theorem read_answers (c : CodeCache) (addr : UInt64) (n : Int64) (hUsed : c.used < 2 ^ 63) :
    (∀ bytes, c.read addr n.toInt = .ok bytes ↔ c.Covers addr n.toInt ∧
      bytes = (List.range n.toInt.toNat).map fun i =>
        c.byteAt (addr.toNat - c.base.toNat + i)) ∧
    (c.read addr n.toInt = .error .fault ↔ c.Overlooks addr n.toInt) ∧
    (c.read addr n.toInt = .error (.outside addr n.toInt) ↔
      ¬c.Covers addr n.toInt ∧ ¬c.Overlooks addr n.toInt) := by
  by_cases hCovers : c.Covers addr n.toInt
  · have hNot := hCovers.not_overlooks hUsed
    rw [read_of_covers hCovers]
    simp [hCovers, hNot, eq_comm]
  · by_cases hOverlooks : c.Overlooks addr n.toInt
    · rw [read_of_overlooks hUsed hOverlooks]
      simp [hCovers, hOverlooks]
    · rw [read_of_outside hUsed hCovers hOverlooks]
      simp [hCovers, hOverlooks]

/-- A cache with three bytes of code, which take a word. -/
def oneWord : CodeCache :=
  { base := 0x40000000, capacity := 64, memory := #[1, 2, 3], used := 4, count := 1 }

/-- The last three bytes of the word are read, the filling included; one byte more is outside; and
with the largest length the offset of the end wraps. -/
theorem read_answers_oneWord :
    oneWord.used < 2 ^ 63 ∧
    (CodeCache.empty 0x40000000 64).install [1, 2, 3] = .ok (0x40000000, oneWord) ∧
    oneWord.Covers 0x40000001 (3 : Int64).toInt ∧
    oneWord.read 0x40000001 (3 : Int64).toInt = .ok [2, 3, 0] ∧
    oneWord.read 0x40000001 (4 : Int64).toInt = .error (.outside 0x40000001 4) ∧
    oneWord.Overlooks 0x40000001 Int64.maxValue.toInt ∧
    oneWord.read 0x40000001 Int64.maxValue.toInt = .error .fault := by
  have hUsed : oneWord.used < 2 ^ 63 := by decide
  have hCovers : oneWord.Covers 0x40000001 (3 : Int64).toInt := by
    unfold Covers
    decide
  have hNot : ¬oneWord.Covers 0x40000001 (4 : Int64).toInt ∧
      ¬oneWord.Overlooks 0x40000001 (4 : Int64).toInt := by
    unfold Covers Overlooks
    decide
  have hOverlooks : oneWord.Overlooks 0x40000001 Int64.maxValue.toInt := by
    unfold Overlooks
    decide
  exact ⟨hUsed, rfl, hCovers, ((read_answers oneWord _ 3 hUsed).1 _).mpr ⟨hCovers, by decide⟩,
    (read_answers oneWord _ 4 hUsed).2.2.mpr hNot, hOverlooks,
    (read_answers oneWord _ Int64.maxValue hUsed).2.1.mpr hOverlooks⟩

/-- A read of `-1` bytes from a cache without code is not a read of used memory, but it is not
reported as outside either: it passes the check and faults. -/
theorem read_fault_negative :
    ¬(CodeCache.empty 0x40000000 64).Covers 0x40000000 (-1 : Int64).toInt ∧
    (CodeCache.empty 0x40000000 64).read 0x40000000 (-1 : Int64).toInt = .error .fault := by
  refine ⟨?_, rfl⟩
  unfold Covers
  decide

end TraceJit.CodeCache
