import TraceJit.Proofs.Graph.Accepted

/-!
Code that goes on. Units past the end of the code read as zero, so what is decoded near the end can
change when more units follow. It does not change for an instruction that fits: all units that it
was read from are units of the code. For most instructions these are the units of its width; for
inline data they are those of its header, which may reach past a width that has wrapped.
-/

namespace TraceJit

namespace Code

/-- The code starts with the units of another. -/
def Extends (longer code : Code) : Prop :=
  ∃ more, longer.units.toList = code.units.toList ++ more

section Reads

variable {code longer : Code} {off : UInt32}

theorem Extends.size_le (h : longer.Extends code) : code.units.size ≤ longer.units.size := by
  obtain ⟨more, hUnits⟩ := h
  have hLength := congrArg List.length hUnits
  simp only [List.length_append, Array.length_toList] at hLength
  omega

/-- Units inside the code are read as before. -/
theorem Extends.unitOrZero (h : longer.Extends code) (hOff : off.toNat < code.units.size) :
    longer.unitOrZero off = code.unitOrZero off := by
  obtain ⟨more, hUnits⟩ := h
  simp only [Code.unitOrZero, Array.getD_eq_getD_getElem?, ← Array.getElem?_toList, hUnits]
  rw [List.getElem?_append_left (by simpa using hOff)]

/-- Code units before the end are those of every extension. -/
theorem Extends.unitOrZero_add (h : longer.Extends code) {k : UInt32}
    (hEnd : off.toNat + k.toNat < code.units.size) :
    longer.unitOrZero (off + k) = code.unitOrZero (off + k) := by
  have hOff : (off + k).toNat = off.toNat + k.toNat := code.toNat_add (by omega)
  exact h.unitOrZero (by omega)

theorem operands_op (code : Code) (off : UInt32) :
    (code.operands off).op = ⟨(code.unitOrZero off).toUInt8⟩ := by
  rw [operands]
  split <;> rfl

/-- The width of an instruction that is no description is that of its format. -/
theorem toNat_operands_width (code : Code) (off : UInt32) :
    (code.operands off).width.toNat = (code.operands off).op.width := by
  obtain ⟨op, va, vb, vbWide, vc, args, hOperands⟩ := code.operands_eq off
  rw [hOperands]
  change op.format.width.toUInt32.toNat = op.format.width
  cases op.format <;> rfl

/-- The operands of a format are read from as many units as the format is wide. -/
theorem operands_congr (hFirst : longer.unitOrZero off = code.unitOrZero off)
    (hUnits : ∀ k : UInt32, k.toNat < (code.operands off).op.width →
      longer.unitOrZero (off + k) = code.unitOrZero (off + k)) :
    longer.operands off = code.operands off := by
  rw [operands_op, Opcode.width] at hUnits
  rw [operands, operands, hFirst]
  -- Formats of one unit have nothing left to compare.
  split <;> rename_i hFormat <;> rw [hFormat] at hUnits
  all_goals simp (disch := decide) only [hUnits]

/-- The width of inline data is read from its header, which is in the code where the data fits. -/
theorem Extends.payloadWidth (h : longer.Extends code) {mark : UInt16}
    (hOff : off.toNat < code.units.size)
    (hEnds : off.toNat + (code.payloadWidth off mark).toNat ≤ code.units.size) :
    longer.payloadWidth off mark = code.payloadWidth off mark := by
  by_cases hPacked : mark = packedSwitchMark
  · subst hPacked
    rw [payloadWidth_packedSwitch] at hEnds
    apply UInt32.toNat_inj.mp
    rw [payloadWidth_packedSwitch, payloadWidth_packedSwitch,
      h.unitOrZero_add (k := 1) (by simp; omega)]
  by_cases hSparse : mark = sparseSwitchMark
  · subst hSparse
    rw [payloadWidth_sparseSwitch] at hEnds
    apply UInt32.toNat_inj.mp
    rw [payloadWidth_sparseSwitch, payloadWidth_sparseSwitch,
      h.unitOrZero_add (k := 1) (by simp; omega)]
  by_cases hArray : mark = arrayDataMark
  · subst hArray
    have hHeader := code.header_of_arrayData hOff hEnds
    apply UInt32.toNat_inj.mp
    rw [payloadWidth_arrayData, payloadWidth_arrayData,
      h.unitOrZero_add (k := 1) (by simp; omega), h.unitOrZero_add (k := 2) (by simp; omega),
      h.unitOrZero_add (k := 3) (by simp; omega)]
  · simp [Code.payloadWidth, hPacked, hSparse, hArray]

/-- An instruction that fits is decoded to the same when the code goes on. -/
theorem Extends.instructionAt (h : longer.Extends code) (hFits : code.Fits off.toNat) :
    longer.instructionAt off = code.instructionAt off := by
  obtain ⟨hOff, _, hEnds⟩ := hFits
  rw [← placedAt_width] at hEnds
  change off.toNat + (code.instructionAt off).width.toNat ≤ code.units.size at hEnds
  have hFirst := h.unitOrZero hOff
  unfold Code.instructionAt at hEnds ⊢
  rw [hFirst]
  dsimp only at hEnds ⊢
  split at hEnds
  next hPayload =>
      have hNop : (code.operands off).op = ⟨0⟩ := by
        rw [operands_op]
        simp only [Bool.and_eq_true, beq_iff_eq] at hPayload
        rw [hPayload.1]
      rw [if_pos hPayload, if_pos hPayload, h.payloadWidth hOff hEnds,
        operands_congr hFirst fun k hk => ?_]
      -- The operands of inline data are those of a nop, which has none.
      have hWidth : Opcode.width ⟨0⟩ = 1 := by
        rw [Opcode.width, Opcode.format, Opcode.info_eq]
        rfl
      rw [hNop, hWidth] at hk
      exact h.unitOrZero_add (by omega)
  next hPlain =>
      rw [if_neg hPlain, if_neg hPlain, operands_congr hFirst fun k hk => ?_]
      rw [toNat_operands_width] at hEnds
      exact h.unitOrZero_add (by omega)

end Reads

end Code

namespace WorkUnit

/-- Nothing that is accepted depends on the zeros past the end of the code. An instruction that can
be stepped over is decoded to the same, its width included, in any code that starts with this one;
and so is every instruction that a build accepts. -/
theorem accepted_of_extends (code longer : Code) (hMore : longer.Extends code) :
    (∀ off next insn, code.decode off = .ok insn → code.advance off insn.width = .ok next →
      longer.decode off = .ok insn) ∧
    ∀ u v : WorkUnit, u.code = code → u.Fresh → u.BuildsTo v →
      ∀ p ∈ v.compiled, longer.decode p.offset = .ok p.insn := by
  have hSize := hMore.size_le
  constructor
  · intro off next insn hDecode hAdvance
    obtain ⟨rfl, hFits, _⟩ := Code.fits_of_step hDecode hAdvance
    have hOff := hFits.1
    exact Code.decode_eq_ok_iff.mpr ⟨by omega, (hMore.instructionAt hFits).symm⟩
  · rintro u v rfl hFresh hBuild p hp
    obtain ⟨hFits, hPlaced⟩ := hBuild.fits hFresh hp
    have hOff := hFits.1
    refine Code.decode_eq_ok_iff.mpr ⟨by omega, ?_⟩
    rw [hMore.instructionAt hFits]
    exact congrArg Placed.insn hPlaced

/-- An array of two bytes, a constant of 64 bits and a return. -/
def wideCode : Code :=
  ⟨#[0x0300, 0x0001, 0x0002, 0x0000, 0x0201, 0x0018, 0x1111, 0x2222, 0x3333, 0x4444, 0x000e],
    by decide⟩

def wideCodeOn : Code := ⟨wideCode.units.push 0x00ff, by decide⟩

/-- The widest instruction, and code that goes on behind it. -/
theorem accepted_of_extends_wide :
    wideCodeOn.Extends wideCode ∧
      wideCode.decode 5 = .ok (wideCode.instructionAt 5) ∧
      wideCode.advance 5 (wideCode.instructionAt 5).width = .ok 10 ∧
      (wideCode.instructionAt 5).vbWide = 0x4444333322221111 ∧
      wideCodeOn.decode 5 = .ok (wideCode.instructionAt 5) ∧
      (loose wideCode none).Fresh ∧
      ∃ v, (loose wideCode none).BuildsTo v ∧ wideCode.placedAt 0 ∈ v.compiled ∧
        wideCodeOn.decode 0 = .ok (wideCode.instructionAt 0) := by
  have hAll : wideCode.advance 5 (wideCode.instructionAt 5).width = .ok 10 ∧
      (wideCode.instructionAt 5).vbWide = 0x4444333322221111 ∧
      (loose wideCode none).buildMethod.stop? = none ∧
      wideCode.placedAt 0 ∈ (loose wideCode none).buildMethod.unit.compiled := by
    decide +kernel
  obtain ⟨hAdvance, hConstant, hStop, hMem⟩ := hAll
  obtain ⟨v, hBuild⟩ := Build.stop?_eq_none_iff.mp hStop
  rw [hBuild] at hMem
  have hMore : wideCodeOn.Extends wideCode := ⟨[0x00ff], rfl⟩
  have hFresh := fresh_loose wideCode none
  obtain ⟨hSteps, hBuilds⟩ := accepted_of_extends wideCode wideCodeOn hMore
  have hDecode : wideCode.decode 5 = .ok (wideCode.instructionAt 5) :=
    Code.decode_eq_ok_iff.mpr ⟨by decide, rfl⟩
  exact ⟨hMore, hDecode, hAdvance, hConstant, hSteps 5 10 _ hDecode hAdvance, hFresh, v,
    .method hBuild, hMem, hBuilds _ v rfl hFresh (.method hBuild) _ hMem⟩

end WorkUnit

end TraceJit
