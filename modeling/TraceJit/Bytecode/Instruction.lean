import TraceJit.Bytecode.Opcode

/-!
One decoded instruction: its operands, the displacement of its branch and its text.
-/

namespace TraceJit

/-- First code unit of the table that a packed switch points to. -/
def packedSwitchMark : UInt16 := 0x0100
/-- First code unit of the table that a sparse switch points to. -/
def sparseSwitchMark : UInt16 := 0x0200
/-- First code unit of the contents that a fill-array-data points to. -/
def arrayDataMark : UInt16 := 0x0300

/-- A decoded instruction. Signed operands are kept as their two's complement words. -/
structure Instruction where
  op : Opcode
  format : Format
  va : UInt32
  vb : UInt32
  vbWide : UInt64
  vc : UInt32
  args : Vector UInt32 5
  /-- First code unit of inline data; zero for an instruction proper. -/
  payload : UInt16
  /-- Width in code units. -/
  width : UInt32
  deriving DecidableEq, Repr

namespace Instruction

def zero : Instruction :=
  { op := ⟨0⟩, format := .unknown, va := 0, vb := 0, vbWide := 0, vc := 0,
    args := Vector.replicate 5 0, payload := 0, width := 0 }

instance : Inhabited Instruction := ⟨zero⟩

def isPayload (insn : Instruction) : Bool := insn.payload != 0

/-- How the instruction may move control; inline data never does. -/
def flow (insn : Instruction) : Flow :=
  if insn.isPayload then .none else insn.op.flow

/-- The signed displacement of a jump or conditional branch. -/
def branchOffset? (insn : Instruction) : Option Int32 :=
  match insn.format with
  | .f10t | .f20t | .f30t => some insn.va.toInt32
  | .f22t => some insn.vc.toInt32
  | .f21t => some insn.vb.toInt32
  | _ => none

def register (n : UInt32) : String := "v" ++ toString n.toNat

def literal (i : Int) : String := "#" ++ toString i

def operandText (insn : Instruction) : String :=
  let a := register insn.va
  let b := register insn.vb
  let c := register insn.vc
  let listed (regs : String) := " \x7b" ++ regs ++ "\x7d, @" ++ toString insn.vb.toNat
  match insn.format with
  | .f10x => ""
  | .f12x => " " ++ a ++ ", " ++ b
  | .f11n | .f21s => " " ++ a ++ ", " ++ literal insn.vb.toInt32.toInt
  | .f11x => " " ++ a
  | .f10t | .f20t | .f30t => " " ++ Text.signed insn.va.toInt32.toInt
  | .f21t => " " ++ a ++ ", " ++ Text.signed insn.vb.toInt32.toInt
  | .f22t => " " ++ a ++ ", " ++ b ++ ", " ++ Text.signed insn.vc.toInt32.toInt
  | .f22s | .f22b => " " ++ a ++ ", " ++ b ++ ", " ++ literal insn.vc.toInt32.toInt
  | .f23x => " " ++ a ++ ", " ++ b ++ ", " ++ c
  | .f35c | .f35ms | .f35fs =>
    listed (String.intercalate ", " ((insn.args.toList.take insn.va.toNat).map register))
  | .f3rc | .f3rms =>
    if insn.va == 0 then listed ""
    else listed (c ++ " .. " ++ register (insn.vc + insn.va - 1))
  | .f51l => " " ++ a ++ ", " ++ literal insn.vbWide.toInt64.toInt
  | _ => " " ++ a ++ ", " ++ toString insn.vb.toNat

/-- The instruction as a listing shows it. Inline data with a known mark shows its size. -/
def text (insn : Instruction) : String :=
  let sized (what : String) := what ++ " (" ++ toString insn.width.toNat ++ " units)"
  if insn.payload == packedSwitchMark then sized "packed-switch-data"
  else if insn.payload == sparseSwitchMark then sized "sparse-switch-data"
  else if insn.payload == arrayDataMark then sized "array-data"
  else insn.op.name ++ insn.operandText

end Instruction

end TraceJit
