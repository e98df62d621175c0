import TraceJit.Proofs.Bytecode.Payload
import TraceJit.Proofs.Graph.Validate

/-!
The instructions that a build accepts. All of them fit into the code, by the width that they were
decoded with. For inline data this is the size that its header describes, unless the size does not
fit into a word of 32 bits: then the data reaches past the end of the code, and what stands behind
the remainder of its size is decoded as instructions.
-/

namespace TraceJit.WorkUnit

/-- The unit `v` is what a build makes of `u`. -/
inductive BuildsTo (u v : WorkUnit) : Prop where
  | method (hBuild : u.buildMethod = .ok v)
  | trace (c : Int64) (hBuild : u.buildTrace c.toInt = .ok v)

variable {u v : WorkUnit}

/-- Every instruction of a finished method fits where it stands. -/
theorem fits_of_buildMethod (hFresh : u.Fresh) (hBuild : u.buildMethod = .ok v) {p : Placed}
    (hp : p ∈ v.compiled) : ∃ off, u.code.Fits off ∧ p = u.code.placedAt off.toUInt32 := by
  obtain ⟨_, n, bodies, h⟩ := methodBuilt_of_ok hFresh hBuild
  rw [h.compiled_eq] at hp
  obtain ⟨k, hk, rfl⟩ := Code.mem_walk.mp hp
  exact ⟨_, h.covers.passes.fits k hk, rfl⟩

/-- So does every instruction of a finished trace. -/
theorem fits_of_buildTrace {c : Int64} (hFresh : u.Fresh) (hBuild : u.buildTrace c.toInt = .ok v)
    {p : Placed} (hp : p ∈ v.compiled) :
    ∃ off, u.code.Fits off ∧ p = u.code.placedAt off.toUInt32 := by
  obtain ⟨t, hTrace, hRuns, hPos, hCounts⟩ := exists_trace_of_ok hBuild
  obtain ⟨hFits, m, hCode⟩ := isTraceCode_of_buildTrace hFresh hTrace hRuns hCounts
    (Int64.lt_iff_toInt_lt.mpr hPos) hBuild
  rw [hCode.compiled] at hp
  obtain ⟨off, hOff, rfl⟩ := List.mem_map.mp hp
  exact ⟨off, hFits off hOff, rfl⟩

/-- Whatever is accepted is decoded from the code where it stands, and fits there. -/
theorem BuildsTo.fits (h : u.BuildsTo v) (hFresh : u.Fresh) {p : Placed} (hp : p ∈ v.compiled) :
    u.code.Fits p.offset.toNat ∧ p = u.code.placedAt p.offset := by
  have hOff : ∃ off, u.code.Fits off ∧ p = u.code.placedAt off.toUInt32 := by
    cases h with
    | method hBuild => exact fits_of_buildMethod hFresh hBuild hp
    | trace c hBuild => exact fits_of_buildTrace hFresh hBuild hp
  obtain ⟨off, hFits, rfl⟩ := hOff
  refine ⟨?_, rfl⟩
  rw [← u.code.toNat_toUInt32_of_lt hFits.1] at hFits
  exact hFits

/-- Where the width of inline data is the size that its header describes. A step over data with a
header leads on by the size modulo `2 ^ 32`, which is the size itself exactly if it is below
`2 ^ 32`; it always is for the tables of switches. So data that a build accepts lies inside the code
exactly if its size is below `2 ^ 32`. -/
theorem payload_exact_iff (code : Code) :
    (∀ off next insn, code.decode off = .ok insn → insn.payload ∈ Payload.marks →
      code.advance off insn.width = .ok next →
      ∃ d, Payload.ofUnits? (code.units.toList.drop off.toNat) = some d ∧
        next.toNat = off.toNat + d.units % 2 ^ 32 ∧
        (next.toNat = off.toNat + d.units ↔ d.units < 2 ^ 32) ∧
        ((∀ elemBytes n, d ≠ .arrayData elemBytes n) → d.units < 2 ^ 32)) ∧
    ∀ u v : WorkUnit, u.code = code → u.Fresh → u.BuildsTo v →
      ∀ p ∈ v.compiled, p.insn.payload ∈ Payload.marks →
        ∃ d, Payload.ofUnits? (code.units.toList.drop p.offset.toNat) = some d ∧
          (p.offset.toNat + d.units ≤ code.units.size ↔ d.units < 2 ^ 32) := by
  have hSmall := code.units_size_lt
  constructor
  · intro off next insn hDecode hMark hAdvance
    obtain ⟨rfl, hFits, hNext⟩ := Code.fits_of_step hDecode hAdvance
    obtain ⟨d, hHeader, hUnits⟩ := code.exists_payload_of_fits hFits hMark
    have hEnds := hFits.2.2
    refine ⟨d, hHeader, ?_, ?_, Payload.units_lt_of_ofUnits? hHeader⟩
    · rw [hNext, hUnits]
    · rw [hNext, hUnits]
      omega
  · rintro u v rfl hFresh hBuild p hp hMark
    obtain ⟨hFits, hPlaced⟩ := hBuild.fits hFresh hp
    rw [hPlaced] at hMark
    obtain ⟨d, hHeader, hUnits⟩ := u.code.exists_payload_of_fits hFits hMark
    refine ⟨d, hHeader, ?_⟩
    have hEnds := hFits.2.2
    rw [← Code.placedAt_width] at hEnds
    change p.offset.toNat + (u.code.instructionAt p.offset).width.toNat ≤ _ at hEnds
    omega

/-- Three bytes, which take two code units behind their header, and a return. -/
def dataCode : Code := ⟨#[0x0300, 0x0001, 0x0003, 0x0000, 0x0201, 0x0003, 0x000e], by decide⟩

/-- A method that begins with an array of one item. -/
theorem payload_exact_iff_data :
    dataCode.decode 0 = .ok (dataCode.instructionAt 0) ∧
      (dataCode.instructionAt 0).payload ∈ Payload.marks ∧
      dataCode.advance 0 (dataCode.instructionAt 0).width = .ok 6 ∧
      (loose dataCode none).Fresh ∧
      ∃ v d, (loose dataCode none).BuildsTo v ∧ dataCode.placedAt 0 ∈ v.compiled ∧
        Payload.ofUnits? dataCode.units.toList = some d ∧
        (6 : UInt32).toNat = 0 + d.units % 2 ^ 32 ∧ d.units ≤ dataCode.units.size := by
  have hAll : (dataCode.instructionAt 0).payload ∈ Payload.marks ∧
      dataCode.advance 0 (dataCode.instructionAt 0).width = .ok 6 ∧
      Payload.ofUnits? dataCode.units.toList = some (.arrayData 1 3) ∧
      (loose dataCode none).buildMethod.stop? = none ∧
      dataCode.placedAt 0 ∈ (loose dataCode none).buildMethod.unit.compiled := by
    decide +kernel
  obtain ⟨hMark, hAdvance, hHeader, hStop, hMem⟩ := hAll
  obtain ⟨v, hBuild⟩ := Build.stop?_eq_none_iff.mp hStop
  rw [hBuild] at hMem
  have hFresh := fresh_loose dataCode none
  obtain ⟨d, hd, hNext, _⟩ := (payload_exact_iff dataCode).1 0 6 _ rfl hMark hAdvance
  obtain ⟨d', hd', hInside⟩ :=
    (payload_exact_iff dataCode).2 _ v rfl hFresh (.method hBuild) _ hMem hMark
  obtain rfl : .arrayData 1 3 = d := Option.some.inj (hHeader.symm.trans hd)
  obtain rfl : .arrayData 1 3 = d' := Option.some.inj (hHeader.symm.trans hd')
  refine ⟨rfl, hMark, hAdvance, hFresh, v, _, .method hBuild, hMem, hd, hNext, ?_⟩
  simpa [Code.placedAt] using hInside.mpr (by decide)

/-- The header of an array of `2 ^ 31` elements of four bytes, and a return. -/
def overrunCode : Code := ⟨#[0x0300, 0x0004, 0x0000, 0x8000, 0x000e], by decide⟩

/-- Data that reaches past the end of the code is accepted: its size is `2 ^ 32 + 4`, its width is
four, and the return behind its header is taken for the next instruction. -/
theorem payload_overrun_array :
    (overrunCode.instructionAt 0).payload ∈ Payload.marks ∧
    overrunCode.decode 0 = .ok (overrunCode.instructionAt 0) ∧
    overrunCode.advance 0 (overrunCode.instructionAt 0).width = .ok 4 ∧
    Payload.ofUnits? overrunCode.units.toList = some (.arrayData 4 (2 ^ 31)) ∧
    (Payload.arrayData 4 (2 ^ 31)).units = 2 ^ 32 + 4 ∧
    (loose overrunCode none).Fresh ∧
    ∃ v, (loose overrunCode none).BuildsTo v ∧
      v.compiled = [overrunCode.placedAt 0, overrunCode.placedAt 4] ∧
      (overrunCode.placedAt 0).insn.payload = arrayDataMark ∧
      ¬(Payload.arrayData 4 (2 ^ 31)).units ≤ overrunCode.units.size := by
  have hAll : (overrunCode.instructionAt 0).payload ∈ Payload.marks ∧
      overrunCode.advance 0 (overrunCode.instructionAt 0).width = .ok 4 ∧
      Payload.ofUnits? overrunCode.units.toList = some (.arrayData 4 (2 ^ 31)) ∧
      (loose overrunCode none).buildMethod.stop? = none ∧
      (loose overrunCode none).buildMethod.unit.compiled =
        [overrunCode.placedAt 0, overrunCode.placedAt 4] ∧
      (overrunCode.placedAt 0).insn.payload = arrayDataMark := by
    decide +kernel
  have hUnits : (Payload.arrayData 4 (2 ^ 31)).units = 2 ^ 32 + 4 := rfl
  obtain ⟨hMark, hAdvance, hHeader, hStop, hCode, hArray⟩ := hAll
  obtain ⟨v, hBuild⟩ := Build.stop?_eq_none_iff.mp hStop
  rw [hBuild] at hCode
  refine ⟨hMark, rfl, hAdvance, hHeader, hUnits, fresh_loose .., v, .method hBuild, hCode, hArray,
    ?_⟩
  rw [hUnits]
  decide

end TraceJit.WorkUnit
