import TraceJit.Bytecode.Sweep

/-!
The linear walk in unbounded arithmetic: the offset after `k` steps is the sum of a start and of
`k` widths, whatever they are. The 32 bit walk follows these offsets for as long as every
instruction fits into the code, and stops at the first that does not.
-/

namespace TraceJit.Code

/-- Offsets into code are words of 32 bits. -/
theorem units_size_lt (code : Code) : code.units.size < 4294967296 := code.small

theorem size_toNat (code : Code) : code.size.toNat = code.units.size := by
  have hSmall := code.units_size_lt
  rw [size, Nat.toUInt32, UInt32.toNat_ofNat']
  exact Nat.mod_eq_of_lt hSmall

/-- Width of the instruction at `off`, with operands past the end read as zero. -/
def widthAt (code : Code) (off : Nat) : Nat :=
  (code.instructionAt off.toUInt32).width.toNat

/-- There is an instruction at `off`, it has a width, and it ends inside the code. -/
def Fits (code : Code) (off : Nat) : Prop :=
  off < code.units.size ∧ 0 < code.widthAt off ∧ off + code.widthAt off ≤ code.units.size

instance (code : Code) (off : Nat) : Decidable (code.Fits off) :=
  inferInstanceAs (Decidable (_ ∧ _))

/-- The offset that the walk from `start` has reached after `k` steps. -/
def walkOffset (code : Code) (start : Nat) : Nat → Nat
  | 0 => start
  | k + 1 => code.walkOffset start k + code.widthAt (code.walkOffset start k)

def walked (code : Code) (start k : Nat) : Placed :=
  code.placedAt (code.walkOffset start k).toUInt32

/-- The first `n` instructions of the walk from `start`. -/
def walk (code : Code) (start n : Nat) : List Placed :=
  (List.range n).map (code.walked start)

/-- A longer walk has one instruction more at its end. -/
theorem walk_succ (code : Code) (start n : Nat) :
    code.walk start (n + 1) = code.walk start n ++ [code.walked start n] := by
  rw [walk, List.range_succ, List.map_append]
  rfl

@[simp] theorem length_walk (code : Code) (start n : Nat) : (code.walk start n).length = n := by
  simp [walk]

theorem mem_walk {code : Code} {start n : Nat} {p : Placed} :
    p ∈ code.walk start n ↔ ∃ k < n, code.walked start k = p := by
  simp [walk]

/-- Position `i` of a walk holds its instruction number `i`. -/
theorem eq_walked_of_append {code : Code} {start n : Nat} {before after : List Placed} {p : Placed}
    (hWalk : code.walk start n = before ++ p :: after) :
    before.length < n ∧ p = code.walked start before.length := by
  have hGet := congrArg (·[before.length]?) hWalk
  simp only [walk, List.getElem?_map, List.getElem?_append_right (Nat.le_refl before.length),
    Nat.sub_self, List.getElem?_cons_zero, Option.map_eq_some_iff] at hGet
  obtain ⟨k, hk, rfl⟩ := hGet
  obtain ⟨hLess, hEq⟩ := List.getElem?_eq_some_iff.mp hk
  rw [List.length_range] at hLess
  rw [List.getElem_range] at hEq
  exact ⟨hLess, by rw [hEq]⟩

theorem toNat_toUInt32_of_lt (code : Code) {off : Nat} (hOff : off < code.units.size) :
    off.toUInt32.toNat = off := by
  have hSmall := code.units_size_lt
  rw [Nat.toUInt32, UInt32.toNat_ofNat']
  exact Nat.mod_eq_of_lt (by omega)

/-- The checks of a 32 bit step, said without wrapping: the width is positive and the step does
not end past the code. A sum that wraps is past the code as well. -/
theorem advance_eq (code : Code) (off width : UInt32) :
    code.advance off width =
      if 0 < width.toNat ∧ off.toNat + width.toNat ≤ code.units.size then .ok (off + width)
      else .error ⟨off, width, code.size⟩ := by
  have hSmall := code.units_size_lt
  have hSize := code.size_toNat
  have hOff := off.toNat_lt
  have hWidth := width.toNat_lt
  have hNext : (off + width).toNat = (off.toNat + width.toNat) % 2 ^ 32 := UInt32.toNat_add ..
  have hZero : width = 0 ↔ width.toNat = 0 := by
    rw [← UInt32.toNat_inj]; rfl
  simp only [advance, Bool.or_eq_true, beq_iff_eq, decide_eq_true_eq, UInt32.lt_iff_toNat_lt,
    hNext, hSize, hZero]
  by_cases hWrap : off.toNat + width.toNat < 2 ^ 32
  · rw [Nat.mod_eq_of_lt hWrap]
    by_cases hFits : 0 < width.toNat ∧ off.toNat + width.toNat ≤ code.units.size
    · rw [if_pos hFits, if_neg (by omega)]
    · rw [if_neg hFits, if_pos (by omega)]
  · rw [Nat.mod_eq_sub_mod (by omega), Nat.mod_eq_of_lt (by omega), if_pos (by omega),
      if_neg (by omega)]

/-- The walk behind its first step is the walk from there. -/
theorem walkOffset_succ_start (code : Code) (start k : Nat) :
    code.walkOffset start (k + 1) = code.walkOffset (start + code.widthAt start) k := by
  induction k with
  | zero => rfl
  | succ k ih => rw [walkOffset, ih, walkOffset]

theorem walked_succ_start (code : Code) (start k : Nat) :
    code.walked start (k + 1) = code.walked (start + code.widthAt start) k := by
  simp only [walked, walkOffset_succ_start]

theorem walk_succ_start (code : Code) (start n : Nat) :
    code.walk start (n + 1) =
      code.walked start 0 :: code.walk (start + code.widthAt start) n := by
  rw [walk, List.range_succ_eq_map, List.map_cons, List.map_map]
  simp only [Function.comp_def, Nat.succ_eq_add_one, walked_succ_start, walk]

theorem walked_width (code : Code) (start k : Nat) :
    (code.walked start k).insn.width.toNat = code.widthAt (code.walkOffset start k) := rfl

/-- Offsets of a walk that fits are offsets of code, without wrapping. -/
theorem walked_offset_toNat (code : Code) {start k : Nat}
    (hFits : code.Fits (code.walkOffset start k)) :
    (code.walked start k).offset.toNat = code.walkOffset start k :=
  code.toNat_toUInt32_of_lt hFits.1

/-- An instruction that fits is followed by the next of the walk. -/
theorem walked_next_toNat (code : Code) {start k : Nat}
    (hFits : code.Fits (code.walkOffset start k)) :
    (code.walked start k).next.toNat = code.walkOffset start (k + 1) := by
  have hSmall := code.units_size_lt
  have hEnds := hFits.2.2
  rw [Placed.next, UInt32.toNat_add, code.walked_offset_toNat hFits, walked_width]
  exact Nat.mod_eq_of_lt (by omega)

theorem walkOffset_mono (code : Code) (start : Nat) {i j : Nat} (hij : i ≤ j) :
    code.walkOffset start i ≤ code.walkOffset start j := by
  induction hij with
  | refl => exact Nat.le_refl _
  | step _ ih => exact Nat.le_trans ih (Nat.le_add_right ..)

/-- A walk through instructions that fit goes forward. -/
theorem walkOffset_lt (code : Code) {start n i j : Nat}
    (hFits : ∀ k < n, code.Fits (code.walkOffset start k)) (hij : i < j) (hj : j ≤ n) :
    code.walkOffset start i < code.walkOffset start j := by
  induction j with
  | zero => omega
  | succ j ih =>
      have hStep := (hFits j (by omega)).2.1
      rw [walkOffset]
      rcases Nat.lt_or_eq_of_le (Nat.le_of_lt_succ hij) with hLess | rfl
      · have := ih hLess (by omega)
        omega
      · omega

/-- Instructions of a walk are ordered by their offsets. -/
theorem walked_offset_lt_iff (code : Code) {start n i j : Nat}
    (hFits : ∀ k < n, code.Fits (code.walkOffset start k)) (hi : i < n) (hj : j < n) :
    (code.walked start i).offset < (code.walked start j).offset ↔ i < j := by
  rw [UInt32.lt_iff_toNat_lt, code.walked_offset_toNat (hFits i hi),
    code.walked_offset_toNat (hFits j hj)]
  constructor
  · intro hLess
    exact Nat.lt_of_not_le fun hLe => Nat.not_lt_of_le (code.walkOffset_mono start hLe) hLess
  · intro hLess
    exact code.walkOffset_lt hFits hLess (Nat.le_of_lt hj)

/-- The offsets of a walk ascend. -/
theorem pairwise_walk (code : Code) {start n : Nat}
    (hFits : ∀ k < n, code.Fits (code.walkOffset start k)) :
    (code.walk start n).Pairwise fun p q => p.offset < q.offset := by
  rw [walk, List.pairwise_map]
  refine List.pairwise_lt_range.imp_of_mem fun {i j} hi hj hij => ?_
  exact (code.walked_offset_lt_iff hFits (List.mem_range.mp hi) (List.mem_range.mp hj)).mpr hij

/-- A walk that fits passes no offset twice. -/
theorem nodup_walk (code : Code) {start n : Nat}
    (hFits : ∀ k < n, code.Fits (code.walkOffset start k)) :
    ((code.walk start n).map (·.offset)).Nodup :=
  List.pairwise_map.mpr ((code.pairwise_walk hFits).imp fun hLess => UInt32.ne_of_lt hLess)

/-- Every step of a walk that fits goes on by a unit at least. -/
theorem add_le_walkOffset (code : Code) {start n : Nat}
    (hFits : ∀ k < n, code.Fits (code.walkOffset start k)) :
    start + n ≤ code.walkOffset start n := by
  induction n with
  | zero => exact Nat.le_refl _
  | succ n ih =>
      have hStep := (hFits n (Nat.lt_succ_self n)).2.1
      have hBefore := ih fun k hk => hFits k (Nat.lt_succ_of_lt hk)
      rw [walkOffset]
      omega

/-- A walk that fits does not leave the code. -/
theorem walkOffset_le_size (code : Code) {start n : Nat} (hStart : start ≤ code.units.size)
    (hFits : ∀ k < n, code.Fits (code.walkOffset start k)) :
    code.walkOffset start n ≤ code.units.size := by
  cases n with
  | zero => exact hStart
  | succ n => exact (hFits n (Nat.lt_succ_self n)).2.2

/-- An offset that the walk passes over lies in one of its instructions. -/
theorem exists_walkOffset_le (code : Code) {start n t : Nat} (hLow : start ≤ t)
    (hHigh : t < code.walkOffset start n) :
    ∃ j < n, code.walkOffset start j ≤ t ∧ t < code.walkOffset start (j + 1) := by
  induction n with
  | zero => simp only [walkOffset] at hHigh; omega
  | succ n ih =>
      by_cases hBefore : t < code.walkOffset start n
      · obtain ⟨j, hj, hIn⟩ := ih hBefore
        exact ⟨j, by omega, hIn⟩
      · exact ⟨n, by omega, by omega, hHigh⟩

theorem placedAt_width (code : Code) (off : UInt32) :
    (code.placedAt off).insn.width.toNat = code.widthAt off.toNat := by
  simp [placedAt, widthAt]

/-- Operands are read into their places; nothing else of an instruction depends on them. -/
theorem operands_eq (code : Code) (off : UInt32) :
    ∃ (op : Opcode) (va vb : UInt32) (vbWide : UInt64) (vc : UInt32) (args : Vector UInt32 5),
      code.operands off = { Instruction.zero with
        op, format := op.format, va, vb, vbWide, vc, args, width := op.width.toUInt32 } := by
  unfold operands
  dsimp only
  split <;> exact ⟨_, _, _, _, _, _, rfl⟩

/-- Whatever is decoded has the format of its opcode. -/
theorem placedAt_format (code : Code) (off : UInt32) :
    (code.placedAt off).insn.format = (code.placedAt off).insn.op.format := by
  obtain ⟨op, va, vb, vbWide, vc, args, hOperands⟩ := code.operands_eq off
  rw [placedAt, instructionAt, hOperands]
  dsimp only
  split
  next => rfl
  next => rfl

theorem walked_zero (code : Code) (off : UInt32) :
    code.walked off.toNat 0 = code.placedAt off := by
  simp [walked, walkOffset]

theorem placedAt_next_toNat (code : Code) {off : UInt32} (hFits : code.Fits off.toNat) :
    (code.placedAt off).next.toNat = off.toNat + code.widthAt off.toNat := by
  rw [← walked_zero]
  exact code.walked_next_toNat (k := 0) hFits

/-- Where an instruction fits, the walk goes on behind it. -/
theorem advance_of_fits (code : Code) {off : UInt32} (hFits : code.Fits off.toNat) :
    code.advance off (code.placedAt off).insn.width = .ok (code.placedAt off).next := by
  rw [advance_eq, placedAt_width, if_pos hFits.2]
  rfl

/-- An instruction that does not fit ends the walk, with its offset and width. -/
theorem advance_of_not_fits (code : Code) {off : UInt32} (hOff : off.toNat < code.units.size)
    (hFits : ¬code.Fits off.toNat) :
    code.advance off (code.placedAt off).insn.width =
      .error ⟨off, (code.placedAt off).insn.width, code.size⟩ := by
  rw [advance_eq, placedAt_width, if_neg fun h => hFits ⟨hOff, h⟩]

/-- An instruction is decoded wherever there is code, and operands past its end are zero. -/
theorem decode_eq_ok_iff {code : Code} {off : UInt32} {insn : Instruction} :
    code.decode off = .ok insn ↔
      off.toNat < code.units.size ∧ insn = code.instructionAt off := by
  rw [decode, unit]
  by_cases hOff : off.toNat < code.units.size
  · rw [Array.getElem?_eq_getElem hOff]
    constructor
    · intro hDecode
      exact ⟨hOff, (Except.ok.inj hDecode).symm⟩
    · rintro ⟨_, rfl⟩
      rfl
  · rw [Array.getElem?_eq_none (Nat.le_of_not_lt hOff)]
    exact iff_of_false (by rintro ⟨⟩) fun h => hOff h.1

/-- An instruction that can be stepped over fits, and the step leads behind it. -/
theorem fits_of_step {code : Code} {off next : UInt32} {insn : Instruction}
    (hDecode : code.decode off = .ok insn) (hAdvance : code.advance off insn.width = .ok next) :
    insn = code.instructionAt off ∧ code.Fits off.toNat ∧
      next.toNat = off.toNat + insn.width.toNat := by
  obtain ⟨hOff, rfl⟩ := decode_eq_ok_iff.mp hDecode
  have hFits : code.Fits off.toNat := Decidable.byContradiction fun hUnfit => by
    have hStuck := code.advance_of_not_fits hOff hUnfit
    cases hStuck.symm.trans hAdvance
  obtain rfl : (code.placedAt off).next = next :=
    Except.ok.inj ((code.advance_of_fits hFits).symm.trans hAdvance)
  exact ⟨rfl, hFits, by rw [code.placedAt_next_toNat hFits, ← placedAt_width]; rfl⟩

theorem size_le_iff (code : Code) (off : UInt32) :
    code.size ≤ off ↔ code.units.size ≤ off.toNat := by
  rw [UInt32.le_iff_toNat_le, size_toNat]

theorem sweepFrom_succ (code : Code) (fuel : Nat) (off : UInt32) :
    code.sweepFrom (fuel + 1) off =
      if code.size ≤ off then ⟨[], none⟩
      else match code.advance off (code.placedAt off).insn.width with
        | .error e => ⟨[], some (code.placedAt off, e)⟩
        | .ok next => ⟨code.placedAt off :: (code.sweepFrom fuel next).steps,
            (code.sweepFrom fuel next).stuck⟩ := rfl

/-- The walk with enough fuel takes every step that fits, and ends past the last unit or in front
of the first instruction that does not fit. -/
theorem sweepFrom_spec (code : Code) (fuel : Nat) (off : UInt32)
    (hFuel : code.units.size - off.toNat ≤ fuel) :
    ∃ n, (∀ k < n, code.Fits (code.walkOffset off.toNat k)) ∧
      (code.sweepFrom fuel off).steps = code.walk off.toNat n ∧
      ((code.units.size ≤ code.walkOffset off.toNat n ∧ (code.sweepFrom fuel off).stuck = none) ∨
        (code.walkOffset off.toNat n < code.units.size ∧
          ¬code.Fits (code.walkOffset off.toNat n) ∧
          (code.sweepFrom fuel off).stuck = some (code.walked off.toNat n,
            ⟨(code.walked off.toNat n).offset, (code.walked off.toNat n).insn.width,
              code.size⟩))) := by
  induction fuel generalizing off with
  | zero => exact ⟨0, by simp, rfl, .inl ⟨by rw [walkOffset]; omega, rfl⟩⟩
  | succ fuel ih =>
      by_cases hEnd : code.units.size ≤ off.toNat
      · rw [sweepFrom_succ, if_pos ((code.size_le_iff off).mpr hEnd)]
        exact ⟨0, by simp, rfl, .inl ⟨hEnd, rfl⟩⟩
      · have hInside : ¬code.size ≤ off := fun h => hEnd ((code.size_le_iff off).mp h)
        by_cases hFits : code.Fits off.toNat
        · have hNext := code.placedAt_next_toNat hFits
          have hWidth := hFits.2.1
          obtain ⟨n, hAll, hSteps, hStop⟩ := ih (code.placedAt off).next (by omega)
          rw [hNext] at hAll hSteps hStop
          have hSweep : code.sweepFrom (fuel + 1) off =
              ⟨code.placedAt off :: (code.sweepFrom fuel (code.placedAt off).next).steps,
                (code.sweepFrom fuel (code.placedAt off).next).stuck⟩ := by
            rw [sweepFrom_succ, if_neg hInside, code.advance_of_fits hFits]
          rw [hSweep]
          refine ⟨n + 1, ?_, ?_, ?_⟩
          · intro k hk
            cases k with
            | zero => exact hFits
            | succ k => rw [walkOffset_succ_start]; exact hAll k (by omega)
          · rw [walk_succ_start, walked_zero, hSteps]
          · rw [walkOffset_succ_start, walked_succ_start]
            exact hStop
        · have hSweep : code.sweepFrom (fuel + 1) off =
              ⟨[], some (code.placedAt off,
                ⟨off, (code.placedAt off).insn.width, code.size⟩)⟩ := by
            rw [sweepFrom_succ, if_neg hInside,
              code.advance_of_not_fits (Nat.lt_of_not_le hEnd) hFits]
          rw [hSweep]
          exact ⟨0, by simp, rfl,
            .inr ⟨by rw [walkOffset]; omega, hFits, by rw [walked_zero]; rfl⟩⟩

/-- What the walk over the whole code meets. The end of the code counts as a place where nothing
fits. -/
theorem sweep_zero_spec (code : Code) :
    ∃ n, (∀ k < n, code.Fits (code.walkOffset 0 k)) ∧ ¬code.Fits (code.walkOffset 0 n) ∧
      (code.sweep 0).steps = code.walk 0 n ∧
      ((code.walkOffset 0 n = code.units.size ∧ (code.sweep 0).stuck = none) ∨
        (code.walkOffset 0 n < code.units.size ∧ (code.sweep 0).stuck = some (code.walked 0 n,
          ⟨(code.walked 0 n).offset, (code.walked 0 n).insn.width, code.size⟩))) := by
  obtain ⟨n, hFits, hSteps, hStop⟩ := code.sweepFrom_spec (code.units.size - (0 : UInt32).toNat) 0
    (Nat.le_refl _)
  rcases hStop with ⟨hPast, hNone⟩ | ⟨hBefore, hUnfit, hStuck⟩
  · have hEnd := code.walkOffset_le_size (Nat.zero_le _) hFits
    exact ⟨n, hFits, fun h => Nat.not_lt_of_le hPast h.1, hSteps,
      .inl ⟨Nat.le_antisymm hEnd hPast, hNone⟩⟩
  · exact ⟨n, hFits, hUnfit, hSteps, .inr ⟨hBefore, hStuck⟩⟩

/-- The walk takes every step that fits. -/
theorem walk_isPrefix_sweep (code : Code) {n : Nat}
    (hFits : ∀ k < n, code.Fits (code.walkOffset 0 k)) :
    ∃ rest, (code.sweep 0).steps = code.walk 0 n ++ rest := by
  obtain ⟨m, _, hUnfit, hSteps, _⟩ := code.sweep_zero_spec
  have hLe : n ≤ m := Nat.le_of_not_lt fun hLess => hUnfit (hFits m hLess)
  obtain ⟨d, rfl⟩ := Nat.exists_eq_add_of_le hLe
  refine ⟨((List.range d).map (n + ·)).map (code.walked 0), ?_⟩
  rw [hSteps, walk, List.range_add, List.map_append, walk]

/-- There is one place where the walk ends. -/
theorem eq_of_first_unfit (code : Code) {m n : Nat}
    (hm : ∀ k < m, code.Fits (code.walkOffset 0 k)) (hmEnd : ¬code.Fits (code.walkOffset 0 m))
    (hn : ∀ k < n, code.Fits (code.walkOffset 0 k)) (hnEnd : ¬code.Fits (code.walkOffset 0 n)) :
    m = n :=
  Nat.le_antisymm (Nat.le_of_not_lt fun hLess => hnEnd (hm n hLess))
    (Nat.le_of_not_lt fun hLess => hmEnd (hn m hLess))

/-- The walk over code that its instructions cover. -/
theorem sweep_of_covered (code : Code) {n : Nat}
    (hFits : ∀ k < n, code.Fits (code.walkOffset 0 k))
    (hEnd : code.walkOffset 0 n = code.units.size) :
    (code.sweep 0).steps = code.walk 0 n ∧ (code.sweep 0).stuck = none := by
  obtain ⟨m, hAll, hUnfit, hSteps, hStop⟩ := code.sweep_zero_spec
  have hOver : ¬code.Fits (code.walkOffset 0 n) := fun h => absurd h.1 (by omega)
  obtain rfl := code.eq_of_first_unfit hAll hUnfit hFits hOver
  rcases hStop with ⟨_, hNone⟩ | ⟨hBefore, _⟩
  · exact ⟨hSteps, hNone⟩
  · omega

/-- The walk up to an instruction that runs past the end. -/
theorem sweep_of_stuck (code : Code) {n : Nat}
    (hFits : ∀ k < n, code.Fits (code.walkOffset 0 k))
    (hInside : code.walkOffset 0 n < code.units.size) (hStuck : ¬code.Fits (code.walkOffset 0 n)) :
    (code.sweep 0).steps = code.walk 0 n ∧ (code.sweep 0).stuck = some (code.walked 0 n,
      ⟨(code.walked 0 n).offset, (code.walked 0 n).insn.width, code.size⟩) := by
  obtain ⟨m, hAll, hUnfit, hSteps, hStop⟩ := code.sweep_zero_spec
  obtain rfl := code.eq_of_first_unfit hAll hUnfit hFits hStuck
  rcases hStop with ⟨hEnd, _⟩ | ⟨_, hSome⟩
  · omega
  · exact ⟨hSteps, hSome⟩

end TraceJit.Code
