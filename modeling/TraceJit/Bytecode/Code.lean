import TraceJit.Bytecode.Instruction
import TraceJit.Text.Hex

/-!
The body of a method as a window of code units. Reads are checked against its end, and decoding
reads operands past the end as zero, so that a truncated last instruction still has a text.
-/

namespace TraceJit

/-- Code units few enough that every offset is a 32 bit word. -/
structure Code where
  units : Array UInt16
  small : units.size < UInt32.size

/-- A read past the end of the code, which no caller may ask for. -/
inductive CodeFault where
  /-- One unit was read at `off`. -/
  | read (off size : UInt32)
  /-- The units from `off` on were asked for. -/
  | slice (off size : UInt32)
  deriving DecidableEq, Repr

def CodeFault.message : CodeFault → String
  | .read off size =>
    "bytecode: read at " ++ Text.hexMarked off.toNat ++ " beyond code size " ++
      Text.hexMarked size.toNat
  | .slice off size =>
    "bytecode: slice at " ++ Text.hexMarked off.toNat ++ " beyond code size " ++
      Text.hexMarked size.toNat

/-- A step of `width` units from `off` that leaves the code or stands still. -/
structure AdvanceError where
  off : UInt32
  width : UInt32
  size : UInt32
  deriving DecidableEq, Repr

def AdvanceError.message (e : AdvanceError) : String :=
  "bytecode: cannot advance " ++ toString e.width.toNat ++ " units from " ++
    Text.hexMarked e.off.toNat ++ " (size " ++ Text.hexMarked e.size.toNat ++ ")"

namespace Code

/-- The code with these units, unless there are too many for 32 bit offsets. -/
def ofUnits? (units : Array UInt16) : Option Code :=
  if h : units.size < UInt32.size then some ⟨units, h⟩ else none

def size (code : Code) : UInt32 := code.units.size.toUInt32

def unit (code : Code) (off : UInt32) : Except CodeFault UInt16 :=
  match code.units[off.toNat]? with
  | some u => .ok u
  | none => .error (.read off code.size)

/-- The code unit at `off`, zero past the end. -/
def unitOrZero (code : Code) (off : UInt32) : UInt16 :=
  code.units.getD off.toNat 0

def tail (code : Code) (off : UInt32) : Except CodeFault (List UInt16) :=
  if code.size < off then .error (.slice off code.size)
  else .ok (code.units.toList.drop off.toNat)

/-- The offset `width` units after `off`, which must lie past `off` and not past the end. -/
def advance (code : Code) (off width : UInt32) : Except AdvanceError UInt32 :=
  let next := off + width
  if width == 0 || next < off || code.size < next then .error ⟨off, width, code.size⟩
  else .ok next

/-- Width of inline data that starts with `mark` at `off`, read from its header. Data with an
unknown mark is one unit wide. -/
def payloadWidth (code : Code) (off : UInt32) (mark : UInt16) : UInt32 :=
  let unitAt (i : UInt32) := code.unitOrZero (off + i)
  if mark == packedSwitchMark then 4 + (unitAt 1).toUInt32 * 2
  else if mark == sparseSwitchMark then 2 + (unitAt 1).toUInt32 * 4
  else if mark == arrayDataMark then
    let elemWidth := (unitAt 1).toUInt64
    let count := (unitAt 2).toUInt64 ||| ((unitAt 3).toUInt64 <<< 16)
    (4 + (count * elemWidth + 1) / 2).toUInt32
  else 1

end Code

def signExtend8 (b : UInt8) : UInt32 := b.toInt8.toInt32.toUInt32

def signExtend16 (u : UInt16) : UInt32 := u.toInt16.toInt32.toUInt32

namespace Code

/-- Registers of a call with up to five arguments. Four come from the third unit; a fifth one
stands in the first. -/
def callArgs (first regs : UInt16) (count : UInt32) : Vector UInt32 5 :=
  let nibble (u : UInt16) (shift : UInt16) : UInt32 := (u >>> shift).toUInt32 &&& 0x0f
  let pick (i : UInt32) (v : UInt32) : UInt32 := if i < count then v else 0
  #v[pick 0 (nibble regs 0), pick 1 (nibble regs 4), pick 2 (nibble regs 8),
    pick 3 (nibble regs 12), pick 4 (nibble first 8)]

/-- The instruction at `off` with its operands, as if it were no inline data. -/
def operands (code : Code) (off : UInt32) : Instruction :=
  let first := code.unitOrZero off
  let u1 := code.unitOrZero (off + 1)
  let u2 := code.unitOrZero (off + 2)
  let u3 := code.unitOrZero (off + 3)
  let u4 := code.unitOrZero (off + 4)
  let op : Opcode := ⟨first.toUInt8⟩
  let high := (first >>> 8).toUInt32
  let low4 := high &&& 0x0f
  let high4 := (first >>> 12).toUInt32
  let long := u1.toUInt32 ||| (u2.toUInt32 <<< 16)
  let insn := { Instruction.zero with op, format := op.format, width := op.width.toUInt32 }
  match op.format with
  | .unknown | .f10x => insn
  | .f12x => { insn with va := low4, vb := high4 }
  | .f11n => { insn with va := low4, vb := (first.toInt16.toInt32 >>> 12).toUInt32 }
  | .f11x => { insn with va := high }
  | .f10t => { insn with va := signExtend8 (first >>> 8).toUInt8 }
  | .f20t => { insn with va := signExtend16 u1 }
  | .f20bc | .f22x | .f21c | .f21h => { insn with va := high, vb := u1.toUInt32 }
  | .f21t | .f21s => { insn with va := high, vb := signExtend16 u1 }
  | .f23x => { insn with va := high, vb := u1.toUInt32 &&& 0xff, vc := (u1 >>> 8).toUInt32 }
  | .f22b =>
    { insn with va := high, vb := u1.toUInt32 &&& 0xff, vc := signExtend8 (u1 >>> 8).toUInt8 }
  | .f22t | .f22s => { insn with va := low4, vb := high4, vc := signExtend16 u1 }
  | .f22c | .f22cs => { insn with va := low4, vb := high4, vc := u1.toUInt32 }
  | .f32x => { insn with va := u1.toUInt32, vb := u2.toUInt32 }
  | .f30t => { insn with va := long }
  | .f31t | .f31i | .f31c => { insn with va := high, vb := long }
  | .f35c | .f35ms | .f35fs =>
    let args := callArgs first u2 high4
    { insn with va := high4, vb := u1.toUInt32, args, vc := args[0] }
  | .f3rc | .f3rms => { insn with va := high, vb := u1.toUInt32, vc := u2.toUInt32 }
  | .f51l =>
    { insn with
      va := high
      vbWide := u1.toUInt64 ||| (u2.toUInt64 <<< 16) ||| (u3.toUInt64 <<< 32) |||
        (u4.toUInt64 <<< 48) }

/-- The instruction at `off`; a first unit past the end reads as zero. A first unit whose low
byte is a nop and whose high byte is not zero introduces inline data. -/
def instructionAt (code : Code) (off : UInt32) : Instruction :=
  let first := code.unitOrZero off
  let insn := code.operands off
  if first.toUInt8 == 0 && first != 0 then
    { insn with payload := first, width := code.payloadWidth off first }
  else insn

/-- The instruction at `off`, which must lie inside the code. -/
def decode (code : Code) (off : UInt32) : Except CodeFault Instruction := do
  let _ ← code.unit off
  return code.instructionAt off

end Code

end TraceJit
