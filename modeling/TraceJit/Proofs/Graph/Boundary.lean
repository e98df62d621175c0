import TraceJit.Bytecode.Sweep
import TraceJit.Graph.Boundary
import TraceJit.Graph.BuildError

/-!
How builds end, and what the instruction at the end of a block says about where control goes.
-/

namespace TraceJit

def Build.stop? : Build → Option Stop
  | .ok _ => none
  | .error h => some h.stop

theorem Build.stop?_eq_none_iff {b : Build} : b.stop? = none ↔ ∃ u, b = .ok u := by
  cases b with
  | ok u => simp [stop?]
  | error h => simp [stop?]

/-- A build that has stopped stays so. -/
theorem Build.stop?_bind {b : Build} {s : Stop} (hStop : b.stop? = some s)
    (f : WorkUnit → Build) : Build.stop? (b >>= f) = some s := by
  cases b with
  | ok u => cases hStop
  | error h => exact hStop

namespace Linkage

/-- Where the instruction branches to, if it is a branch. -/
def target? (l : Linkage) (p : Placed) : Option UInt32 :=
  (classify l p.insn p.offset).bind (·.target)

def EndsBlock (l : Linkage) (p : Placed) : Prop := (classify l p.insn p.offset).isSome

instance (l : Linkage) (p : Placed) : Decidable (l.EndsBlock p) :=
  inferInstanceAs (Decidable (_ = true))

/-- The block starts that an instruction calls for. -/
def marks (l : Linkage) (p : Placed) : List UInt32 :=
  match classify l p.insn p.offset with
  | none => []
  | some bd => p.next :: bd.target.toList

/-- An instruction marks its target and, where it ends its block, the offset behind it. -/
theorem mem_marks {l : Linkage} {p : Placed} {off : UInt32} :
    off ∈ l.marks p ↔ (l.EndsBlock p ∧ off = p.next) ∨ l.target? p = some off := by
  unfold marks EndsBlock target?
  cases classify l p.insn p.offset with
  | none => simp
  | some bd => simp

/-- An instruction with a target ends its block. -/
theorem endsBlock_of_target? {l : Linkage} {p : Placed} {t : UInt32}
    (hTarget : l.target? p = some t) : l.EndsBlock p := by
  unfold target? at hTarget
  unfold EndsBlock
  cases hClass : classify l p.insn p.offset with
  | none => rw [hClass] at hTarget; cases hTarget
  | some bd => rfl

/-- What an instruction does at the end of a block; one that is no boundary goes nowhere. -/
def boundaryOf (l : Linkage) (p : Placed) : Boundary :=
  (classify l p.insn p.offset).getD ⟨none, false, none⟩

/-- The target that linking uses is the one that was marked. -/
theorem boundaryOf_target (l : Linkage) (p : Placed) : (l.boundaryOf p).target = l.target? p := by
  unfold boundaryOf target?
  cases classify l p.insn p.offset <;> rfl

/-- A branch is an instruction proper, calls nothing, and leads to its own offset plus its
displacement. -/
theorem classify_of_target? {l : Linkage} {p : Placed} {t : UInt32}
    (hTarget : l.target? p = some t) :
    p.insn.isPayload = false ∧ p.insn.op.exit? = some .branch ∧ l.boundaryOf p = .branch t ∧
      ∃ d, p.insn.branchOffset? = some d ∧ t = p.offset + d.toUInt32 := by
  unfold boundaryOf
  obtain ⟨bd, hClass, hBranch⟩ := Option.bind_eq_some_iff.mp hTarget
  rw [hClass, Option.getD_some]
  unfold classify at hClass
  by_cases hPayload : p.insn.isPayload = true
  · rw [if_pos hPayload] at hClass
    cases hClass
  · rw [if_neg hPayload] at hClass
    cases hExit : p.insn.op.exit? with
    | none => simp [hExit] at hClass
    | some x =>
        cases x with
        | branch =>
            simp only [hExit, Option.map_eq_some_iff] at hClass
            obtain ⟨d, hOffset, rfl⟩ := hClass
            cases hBranch
            exact ⟨by simpa using hPayload, rfl, rfl, d, hOffset, rfl⟩
        | leave | superCall | superSlot | directCall =>
            simp only [hExit, Option.some.injEq] at hClass
            subst hClass
            cases hBranch

/-- A branch calls nothing. -/
theorem redirect?_of_target? {l : Linkage} {p : Placed} {t : UInt32}
    (hTarget : l.target? p = some t) : (l.boundaryOf p).redirect? = none := by
  obtain ⟨_, _, hBranch, _⟩ := classify_of_target? hTarget
  rw [hBranch]
  rfl

end Linkage

/-- The three gotos. -/
def Instruction.isGoto (insn : Instruction) : Bool :=
  0x28 ≤ insn.op.byte.toNat && insn.op.byte.toNat ≤ 0x2a

theorem Opcode.info_eq (op : Opcode) : op.info = OpcodeInfo.ofNumber op.byte.toNat := by
  have hByte := op.byte.toNat_lt
  simp only [info, opcodeTable, Array.getD_eq_getD_getElem?, Array.getElem?_map,
    Array.getElem?_range, hByte, if_true, Option.map_some, Option.getD_some]

/-- What holds of every row of a table of opcodes holds of every opcode. -/
theorem Opcode.of_table {P : Opcode → Prop} (hTable : ∀ n < 256, P ⟨n.toUInt8⟩) (op : Opcode) :
    P op := by
  simpa using hTable op.byte.toNat op.byte.toNat_lt

/-- Of the branches, the gotos and no others are always taken. -/
theorem Linkage.has_always_of_target? {l : Linkage} {p : Placed} {t : UInt32}
    (hTarget : l.target? p = some t) : p.insn.flow.has .always = p.insn.isGoto := by
  obtain ⟨hProper, hExit, _⟩ := classify_of_target? hTarget
  have hRow : ∀ op : Opcode, op.exit? = some .branch →
      (OpcodeInfo.ofNumber op.byte.toNat).flow.has .always =
        (0x28 ≤ op.byte.toNat && op.byte.toNat ≤ 0x2a : Bool) :=
    Opcode.of_table (by decide +kernel)
  rw [Instruction.flow, hProper, Opcode.flow, Opcode.info_eq]
  exact hRow p.insn.op hExit

end TraceJit
