import TraceJit.Bytecode.Code
import TraceJit.Program.Method

/-!
Which instructions end a block, and where control goes from them.
-/

namespace TraceJit

/-- How an instruction ends a block. -/
structure Boundary where
  /-- Destination of a branch. -/
  target : Option UInt32
  /-- A call, or a return or throw, which leave the compiled region the same way. -/
  isInvoke : Bool
  /-- The method that a call resolves to. -/
  callee : Option MethodInfo
  deriving DecidableEq, Repr, Inhabited

namespace Boundary

/-- A call that can be chained straight to its callee: the callee is known and has bytecode. -/
def redirect? (b : Boundary) : Option MethodInfo :=
  b.callee.filter (!·.native)

/-- Leaves the compiled region for an unknown place. -/
def leave : Boundary := ⟨none, true, none⟩

/-- A call of a method that may be known. -/
def invoke (callee : Option MethodInfo) : Boundary := ⟨none, true, callee⟩

def branch (target : UInt32) : Boundary := ⟨some target, false, none⟩

end Boundary

/-- The ways in which an opcode can end a block. -/
inductive Exit where
  /-- Returns, throw, and calls whose callee is only known when they run. -/
  | leave
  /-- A call of the super class's version of the method resolved for the call site. -/
  | superCall
  /-- A call of the super class's method in a given slot. -/
  | superSlot
  /-- A call of the method resolved for the call site. -/
  | directCall
  /-- A jump or conditional branch. -/
  | branch
  deriving DecidableEq, Repr

def Opcode.exit? (op : Opcode) : Option Exit :=
  let n := op.byte.toNat
  if (0x0e ≤ n && n ≤ 0x11) || n == 0x27 || n == 0x6e || n == 0x72 || n == 0x74 || n == 0x78 ||
      n == 0xf8 || n == 0xf9 then some .leave
  else if n == 0x6f || n == 0x75 then some .superCall
  else if n == 0xfa || n == 0xfb then some .superSlot
  else if n == 0x70 || n == 0x71 || n == 0x76 || n == 0x77 || n == 0xf0 then some .directCall
  else if (0x28 ≤ n && n ≤ 0x2a) || (0x32 ≤ n && n ≤ 0x3d) then some .branch
  else none

/-- How `insn` at `off` ends a block, if it does, where calls are resolved through `linkage`.
Inline data never ends a block. -/
def classify (linkage : Linkage) (insn : Instruction) (off : UInt32) : Option Boundary :=
  if insn.isPayload then none
  else
    match insn.op.exit? with
    | none => none
    | some .leave => some .leave
    | some .superCall =>
      some (.invoke ((linkage.callee? insn.vb).bind fun m => linkage.superMethod? m.slot))
    | some .superSlot => some (.invoke (linkage.superMethod? insn.vb.toNat))
    | some .directCall => some (.invoke (linkage.callee? insn.vb))
    | some .branch => insn.branchOffset?.map fun d => .branch (off + d.toUInt32)

/-- Control never falls out of the instruction: the four returns and the three gotos. -/
def Instruction.isUnconditionalExit (insn : Instruction) : Bool :=
  let n := insn.op.byte.toNat
  !insn.isPayload && ((0x0e ≤ n && n ≤ 0x11) || (0x28 ≤ n && n ≤ 0x2a))

end TraceJit
