import Mathlib.Algebra.Group.Nat.Defs
import TraceJit.Proofs.Bytecode.Walk

/-!
The size of inline data. A header describes its data by numbers of any size, but the width of an
instruction is a word of 32 bits. Tables of switches are always small enough; the contents of an
array may not be, and then the width is what is left of their size modulo `2 ^ 32`.
-/

namespace TraceJit

/-- Inline data as a header describes it. -/
inductive Payload where
  | packedSwitch (entries : Nat)
  | sparseSwitch (entries : Nat)
  | arrayData (elemBytes count : Nat)
  deriving DecidableEq, Repr

namespace Payload

def marks : List UInt16 := [packedSwitchMark, sparseSwitchMark, arrayDataMark]

/-- Code units that the data takes, its header included. The bytes of an array are packed in pairs,
and an odd byte takes a unit of its own. -/
def units : Payload → Nat
  | packedSwitch n => 4 + 2 * n
  | sparseSwitch n => 2 + 4 * n
  | arrayData elemBytes n => 4 + (n * elemBytes + 1) / 2

/-- The data that these code units start with, if they hold the whole of its header. -/
def ofUnits? : List UInt16 → Option Payload
  | mark :: n :: rest =>
      if mark = packedSwitchMark then some (packedSwitch n.toNat)
      else if mark = sparseSwitchMark then some (sparseSwitch n.toNat)
      else if mark = arrayDataMark then
        match rest with
        | low :: high :: _ => some (arrayData n.toNat (low.toNat + 65536 * high.toNat))
        | _ => none
      else none
  | _ => none

/-- The size of what is no array fits into a word. -/
theorem units_lt_of_ofUnits? {list : List UInt16} {d : Payload} (h : ofUnits? list = some d)
    (hSwitch : ∀ elemBytes n, d ≠ arrayData elemBytes n) : d.units < 2 ^ 32 := by
  unfold ofUnits? at h
  split at h
  next mark n rest =>
      have hn := n.toNat_lt
      split at h
      next =>
          cases h
          rw [units]
          omega
      next =>
          split at h
          next =>
              cases h
              rw [units]
              omega
          next =>
              split at h
              next =>
                  split at h
                  next =>
                      cases h
                      exact absurd rfl (hSwitch _ _)
                  next => cases h
              next => cases h
  next => cases h

end Payload

namespace Code

variable (code : Code)

/-! ### Reading a header -/

/-- Past the end there are zeros. -/
theorem unitOrZero_eq_zero (off : UInt32) (hPast : code.units.size ≤ off.toNat) :
    code.unitOrZero off = 0 := by
  simp [unitOrZero, hPast]

theorem drop_units {off : UInt32} (hOff : off.toNat < code.units.size) :
    code.units.toList.drop off.toNat =
      code.unitOrZero off :: code.units.toList.drop (off.toNat + 1) := by
  have hLength : off.toNat < code.units.toList.length := hOff
  rw [List.drop_eq_getElem_cons hLength]
  simp [unitOrZero, hOff]

/-- Offsets up to the end of the code do not wrap. -/
theorem toNat_add {off k : UInt32} (hEnd : off.toNat + k.toNat ≤ code.units.size) :
    (off + k).toNat = off.toNat + k.toNat := by
  have hSmall := code.units_size_lt
  rw [UInt32.toNat_add]
  exact Nat.mod_eq_of_lt (by omega)

/-- The width of a packed table: its head and a target of two units for each case. -/
theorem payloadWidth_packedSwitch (off : UInt32) :
    (code.payloadWidth off packedSwitchMark).toNat =
      4 + 2 * (code.unitOrZero (off + 1)).toNat := by
  have hn := (code.unitOrZero (off + 1)).toNat_lt
  have hWidth : code.payloadWidth off packedSwitchMark =
      4 + (code.unitOrZero (off + 1)).toUInt32 * 2 := rfl
  rw [hWidth, UInt32.toNat_add, UInt32.toNat_mul, UInt16.toNat_toUInt32]
  simp only [UInt32.reduceToNat]
  omega

/-- The width of a sparse table: its head, and a key and a target for each case. -/
theorem payloadWidth_sparseSwitch (off : UInt32) :
    (code.payloadWidth off sparseSwitchMark).toNat =
      2 + 4 * (code.unitOrZero (off + 1)).toNat := by
  have hn := (code.unitOrZero (off + 1)).toNat_lt
  have hWidth : code.payloadWidth off sparseSwitchMark =
      2 + (code.unitOrZero (off + 1)).toUInt32 * 4 := rfl
  rw [hWidth, UInt32.toNat_add, UInt32.toNat_mul, UInt16.toNat_toUInt32]
  simp only [UInt32.reduceToNat]
  omega

/-- A number of 32 bits in two code units, the low one first. -/
theorem toNat_joined (low high : UInt16) :
    (low.toUInt64 ||| (high.toUInt64 <<< 16)).toNat = low.toNat + 65536 * high.toNat := by
  have hLow := low.toNat_lt
  have hHigh := high.toNat_lt
  have hShift : (high.toUInt64 <<< 16).toNat = 2 ^ 16 * high.toNat := by
    simp [UInt64.toNat_shiftLeft, Nat.shiftLeft_eq]
    omega
  rw [UInt64.toNat_or, hShift, UInt16.toNat_toUInt64, Nat.or_comm,
    ← Nat.two_pow_add_eq_or_of_lt hLow]
  omega

/-- Nothing is lost in 64 bits; the width is what 32 of them hold. -/
theorem payloadWidth_arrayData (off : UInt32) :
    (code.payloadWidth off arrayDataMark).toNat =
      (Payload.arrayData (code.unitOrZero (off + 1)).toNat
        ((code.unitOrZero (off + 2)).toNat + 65536 * (code.unitOrZero (off + 3)).toNat)).units %
        2 ^ 32 := by
  have hWidth : code.payloadWidth off arrayDataMark =
      UInt64.toUInt32 (4 + (((code.unitOrZero (off + 2)).toUInt64 |||
        ((code.unitOrZero (off + 3)).toUInt64 <<< (16 : UInt64))) *
        (code.unitOrZero (off + 1)).toUInt64 + 1) / 2) := rfl
  generalize code.unitOrZero (off + 1) = elemBytes at hWidth ⊢
  generalize code.unitOrZero (off + 2) = low at hWidth ⊢
  generalize code.unitOrZero (off + 3) = high at hWidth ⊢
  have hElem := elemBytes.toNat_lt
  have hLow := low.toNat_lt
  have hHigh := high.toNat_lt
  have hProduct : (low.toNat + 65536 * high.toNat) * elemBytes.toNat ≤
      (2 ^ 32 - 1) * (2 ^ 16 - 1) := Nat.mul_le_mul (by omega) (by omega)
  rw [hWidth, Payload.units, UInt64.toNat_toUInt32, UInt64.toNat_add, UInt64.toNat_div,
    UInt64.toNat_add, UInt64.toNat_mul, toNat_joined, UInt16.toNat_toUInt64]
  generalize (low.toNat + 65536 * high.toNat) * elemBytes.toNat = product at hProduct ⊢
  simp only [UInt64.reduceToNat]
  omega

/-! ### Data that an instruction stands for -/

/-- A payload is decoded where its mark stands, with the width that its header gives. -/
theorem instructionAt_of_payload {off : UInt32} (hMark : (code.instructionAt off).payload ≠ 0) :
    (code.instructionAt off).payload = code.unitOrZero off ∧
      (code.instructionAt off).width = code.payloadWidth off (code.unitOrZero off) := by
  obtain ⟨op, va, vb, vbWide, vc, args, hOperands⟩ := code.operands_eq off
  unfold instructionAt at hMark ⊢
  rw [hOperands] at hMark ⊢
  dsimp only at hMark ⊢
  split at hMark
  next hPayload =>
      rw [if_pos hPayload]
      exact ⟨rfl, rfl⟩
  next => exact absurd rfl hMark

/-- The description of a packed table is what its head says. -/
theorem ofUnits?_packedSwitch {off : UInt32} (hOff : off.toNat + 1 < code.units.size)
    (hMark : code.unitOrZero off = packedSwitchMark) :
    Payload.ofUnits? (code.units.toList.drop off.toNat) =
      some (.packedSwitch (code.unitOrZero (off + 1)).toNat) := by
  have hNext : (off + 1).toNat = off.toNat + 1 := code.toNat_add (k := 1) (by simp; omega)
  rw [code.drop_units (by omega), ← hNext, code.drop_units (by omega), hMark]
  rfl

/-- The description of a sparse table is what its head says. -/
theorem ofUnits?_sparseSwitch {off : UInt32} (hOff : off.toNat + 1 < code.units.size)
    (hMark : code.unitOrZero off = sparseSwitchMark) :
    Payload.ofUnits? (code.units.toList.drop off.toNat) =
      some (.sparseSwitch (code.unitOrZero (off + 1)).toNat) := by
  have hNext : (off + 1).toNat = off.toNat + 1 := code.toNat_add (k := 1) (by simp; omega)
  rw [code.drop_units (by omega), ← hNext, code.drop_units (by omega), hMark]
  rfl

/-- The description of an array is what its head says, with a count of items in two units. -/
theorem ofUnits?_arrayData {off : UInt32} (hOff : off.toNat + 3 < code.units.size)
    (hMark : code.unitOrZero off = arrayDataMark) :
    Payload.ofUnits? (code.units.toList.drop off.toNat) =
      some (.arrayData (code.unitOrZero (off + 1)).toNat
        ((code.unitOrZero (off + 2)).toNat + 65536 * (code.unitOrZero (off + 3)).toNat)) := by
  have hOne : (off + 1).toNat = off.toNat + 1 := code.toNat_add (k := 1) (by simp; omega)
  have hTwo : (off + 2).toNat = off.toNat + 1 + 1 := code.toNat_add (k := 2) (by simp; omega)
  have hThree : (off + 3).toNat = off.toNat + 1 + 1 + 1 :=
    code.toNat_add (k := 3) (by simp; omega)
  rw [code.drop_units (by omega), ← hOne, code.drop_units (by omega), hOne, ← hTwo,
    code.drop_units (by omega), hTwo, ← hThree, code.drop_units (by omega), hMark]
  rfl

/-- An array that fits has its whole header in the code, even where its width has wrapped. -/
theorem header_of_arrayData {off : UInt32} (hOff : off.toNat < code.units.size)
    (hEnds : off.toNat + (code.payloadWidth off arrayDataMark).toNat ≤ code.units.size) :
    off.toNat + 3 < code.units.size := by
  have hSmall := code.units_size_lt
  rw [payloadWidth_arrayData, Payload.units] at hEnds
  have hOne : (off + 1).toNat = off.toNat + 1 := code.toNat_add (k := 1) (by simp; omega)
  refine Nat.lt_of_not_le fun hShort => ?_
  by_cases hElem : off.toNat + 1 < code.units.size
  · have hTwo : (off + 2).toNat = off.toNat + 2 := code.toNat_add (k := 2) (by simp; omega)
    by_cases hLow : off.toNat + 2 < code.units.size
    · -- Only the high part of the count is missing, so the size is small.
      have hThree : (off + 3).toNat = off.toNat + 3 := code.toNat_add (k := 3) (by simp; omega)
      have hCount := (code.unitOrZero (off + 2)).toNat_lt
      have hBytes := (code.unitOrZero (off + 1)).toNat_lt
      rw [code.unitOrZero_eq_zero (off + 3) (by omega)] at hEnds
      have hProduct : (code.unitOrZero (off + 2)).toNat * (code.unitOrZero (off + 1)).toNat ≤
          (2 ^ 16 - 1) * (2 ^ 16 - 1) := Nat.mul_le_mul (by omega) (by omega)
      simp only [UInt16.toNat_zero, Nat.mul_zero, Nat.add_zero] at hEnds
      generalize (code.unitOrZero (off + 2)).toNat * _ = product at hEnds hProduct
      omega
    · -- The high part may be read at a wrapped offset, but it counts in steps of `2 ^ 16`.
      rw [code.unitOrZero_eq_zero (off + 2) (by omega)] at hEnds
      simp only [UInt16.toNat_zero, Nat.zero_add, Nat.mul_assoc] at hEnds
      generalize (code.unitOrZero (off + 3)).toNat * _ = product at hEnds
      omega
  · rw [code.unitOrZero_eq_zero (off + 1) (by omega)] at hEnds
    simp only [UInt16.toNat_zero, Nat.mul_zero] at hEnds
    omega

/-- Data that fits is described by a header in the code, and its width is the size that the header
describes, modulo `2 ^ 32`. -/
theorem exists_payload_of_fits {off : UInt32} (hFits : code.Fits off.toNat)
    (hMark : (code.instructionAt off).payload ∈ Payload.marks) :
    ∃ d, Payload.ofUnits? (code.units.toList.drop off.toNat) = some d ∧
      (code.instructionAt off).width.toNat = d.units % 2 ^ 32 := by
  have hNonzero : (code.instructionAt off).payload ≠ 0 := by
    intro hZero
    rw [hZero] at hMark
    exact absurd hMark (by decide)
  obtain ⟨hPayload, hWidth⟩ := code.instructionAt_of_payload hNonzero
  obtain ⟨hOff, _, hEnds⟩ := hFits
  rw [← placedAt_width] at hEnds
  change off.toNat + (code.instructionAt off).width.toNat ≤ code.units.size at hEnds
  rw [hPayload, Payload.marks] at hMark
  simp only [List.mem_cons, List.not_mem_nil, or_false] at hMark
  rw [hWidth] at hEnds ⊢
  rcases hMark with hMark | hMark | hMark
  · rw [hMark, payloadWidth_packedSwitch] at hEnds ⊢
    refine ⟨_, code.ofUnits?_packedSwitch (by omega) hMark, ?_⟩
    have hn := (code.unitOrZero (off + 1)).toNat_lt
    rw [Payload.units]
    omega
  · rw [hMark, payloadWidth_sparseSwitch] at hEnds ⊢
    refine ⟨_, code.ofUnits?_sparseSwitch (by omega) hMark, ?_⟩
    have hn := (code.unitOrZero (off + 1)).toNat_lt
    rw [Payload.units]
    omega
  · rw [hMark] at hEnds ⊢
    exact ⟨_, code.ofUnits?_arrayData (code.header_of_arrayData hOff hEnds) hMark,
      code.payloadWidth_arrayData off⟩

end Code

end TraceJit
