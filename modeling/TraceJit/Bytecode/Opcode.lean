import TraceJit.Bytecode.Format
import TraceJit.Text.Hex

/-!
The instruction set as a table. Opcodes come in families: consecutive numbers that share a
format and their flow. A number that no family covers is unused.
-/

namespace TraceJit

/-- The low byte of the first code unit of an instruction. -/
structure Opcode where
  byte : UInt8
  deriving DecidableEq, Repr, Inhabited

/-- Opcodes with consecutive numbers that share a format and their flow. -/
structure OpcodeFamily where
  first : Nat
  format : Format
  flow : Flow
  names : List String
  /-- Only an optimizer writes these opcodes. -/
  optimized : Bool := false

/-- The static description of one opcode. -/
structure OpcodeInfo where
  name : String
  format : Format
  flow : Flow
  optimized : Bool
  deriving DecidableEq, Repr, Inhabited

namespace OpcodeFamily

/-- Control goes on to the next instruction and nothing can be raised. -/
def plain : Flow := .next
/-- Control goes on unless an exception is raised. -/
def raising : Flow := .next ||| .throws
def calling : Flow := .next ||| .throws ||| .call
def testing : Flow := .branch ||| .next
def jumping : Flow := .branch ||| .always

/-- Names of the arithmetic operations, in the order of their opcodes. -/
def arithmetic : List String :=
  ["add-int", "sub-int", "mul-int", "div-int", "rem-int", "and-int", "or-int", "xor-int",
    "shl-int", "shr-int", "ushr-int",
    "add-long", "sub-long", "mul-long", "div-long", "rem-long", "and-long", "or-long", "xor-long",
    "shl-long", "shr-long", "ushr-long",
    "add-float", "sub-float", "mul-float", "div-float", "rem-float",
    "add-double", "sub-double", "mul-double", "div-double", "rem-double"]

/-- Names of the operations with a sixteen bit literal. -/
def wideLiteral : List String :=
  ["add-int/lit16", "rsub-int", "mul-int/lit16", "div-int/lit16", "rem-int/lit16",
    "and-int/lit16", "or-int/lit16", "xor-int/lit16"]

/-- Names of the operations with an eight bit literal. -/
def byteLiteral : List String :=
  ["add-int/lit8", "rsub-int/lit8", "mul-int/lit8", "div-int/lit8", "rem-int/lit8",
    "and-int/lit8", "or-int/lit8", "xor-int/lit8", "shl-int/lit8", "shr-int/lit8",
    "ushr-int/lit8"]

/-- Integer division and remainder, which raise an exception on a zero divisor. -/
def dividing : List String :=
  ["div-int", "rem-int", "div-long", "rem-long",
    "div-int/lit16", "rem-int/lit16", "div-int/lit8", "rem-int/lit8"]

/-- One family per operation, numbered from `first`, with `suffix` after each name. -/
def operations (first : Nat) (format : Format) (names : List String) (suffix : String) :
    List OpcodeFamily :=
  names.mapIdx fun i name =>
    { first := first + i, format, names := [name ++ suffix],
      flow := if dividing.contains name then raising else plain }

def all : List OpcodeFamily :=
  [⟨0x00, .f10x, plain, ["nop"], false⟩,
    ⟨0x01, .f12x, plain, ["move"], false⟩,
    ⟨0x02, .f22x, plain, ["move/from16"], false⟩,
    ⟨0x03, .f32x, plain, ["move/16"], false⟩,
    ⟨0x04, .f12x, plain, ["move-wide"], false⟩,
    ⟨0x05, .f22x, plain, ["move-wide/from16"], false⟩,
    ⟨0x06, .f32x, plain, ["move-wide/16"], false⟩,
    ⟨0x07, .f12x, plain, ["move-object"], false⟩,
    ⟨0x08, .f22x, plain, ["move-object/from16"], false⟩,
    ⟨0x09, .f32x, plain, ["move-object/16"], false⟩,
    ⟨0x0a, .f11x, plain,
      ["move-result", "move-result-wide", "move-result-object", "move-exception"], false⟩,
    ⟨0x0e, .f10x, .returns, ["return-void"], false⟩,
    ⟨0x0f, .f11x, .returns, ["return", "return-wide", "return-object"], false⟩,
    ⟨0x12, .f11n, plain, ["const/4"], false⟩,
    ⟨0x13, .f21s, plain, ["const/16"], false⟩,
    ⟨0x14, .f31i, plain, ["const"], false⟩,
    ⟨0x15, .f21h, plain, ["const/high16"], false⟩,
    ⟨0x16, .f21s, plain, ["const-wide/16"], false⟩,
    ⟨0x17, .f31i, plain, ["const-wide/32"], false⟩,
    ⟨0x18, .f51l, plain, ["const-wide"], false⟩,
    ⟨0x19, .f21h, plain, ["const-wide/high16"], false⟩,
    ⟨0x1a, .f21c, raising, ["const-string"], false⟩,
    ⟨0x1b, .f31c, raising, ["const-string/jumbo"], false⟩,
    ⟨0x1c, .f21c, raising, ["const-class"], false⟩,
    ⟨0x1d, .f11x, raising, ["monitor-enter", "monitor-exit"], false⟩,
    ⟨0x1f, .f21c, raising, ["check-cast"], false⟩,
    ⟨0x20, .f22c, raising, ["instance-of"], false⟩,
    ⟨0x21, .f12x, raising, ["array-length"], false⟩,
    ⟨0x22, .f21c, raising, ["new-instance"], false⟩,
    ⟨0x23, .f22c, raising, ["new-array"], false⟩,
    ⟨0x24, .f35c, raising, ["filled-new-array"], false⟩,
    ⟨0x25, .f3rc, raising, ["filled-new-array/range"], false⟩,
    ⟨0x26, .f31t, raising, ["fill-array-data"], false⟩,
    ⟨0x27, .f11x, .throws, ["throw"], false⟩,
    ⟨0x28, .f10t, jumping, ["goto"], false⟩,
    ⟨0x29, .f20t, jumping, ["goto/16"], false⟩,
    ⟨0x2a, .f30t, jumping, ["goto/32"], false⟩,
    ⟨0x2b, .f31t, .next ||| .switch, ["packed-switch", "sparse-switch"], false⟩,
    ⟨0x2d, .f23x, plain,
      ["cmpl-float", "cmpg-float", "cmpl-double", "cmpg-double", "cmp-long"], false⟩,
    ⟨0x32, .f22t, testing, ["if-eq", "if-ne", "if-lt", "if-ge", "if-gt", "if-le"], false⟩,
    ⟨0x38, .f21t, testing, ["if-eqz", "if-nez", "if-ltz", "if-gez", "if-gtz", "if-lez"], false⟩,
    ⟨0x44, .f23x, raising,
      ["aget", "aget-wide", "aget-object", "aget-boolean", "aget-byte", "aget-char", "aget-short",
        "aput", "aput-wide", "aput-object", "aput-boolean", "aput-byte", "aput-char",
        "aput-short"], false⟩,
    ⟨0x52, .f22c, raising,
      ["iget", "iget-wide", "iget-object", "iget-boolean", "iget-byte", "iget-char", "iget-short",
        "iput", "iput-wide", "iput-object", "iput-boolean", "iput-byte", "iput-char",
        "iput-short"], false⟩,
    ⟨0x60, .f21c, raising,
      ["sget", "sget-wide", "sget-object", "sget-boolean", "sget-byte", "sget-char", "sget-short",
        "sput", "sput-wide", "sput-object", "sput-boolean", "sput-byte", "sput-char",
        "sput-short"], false⟩,
    ⟨0x6e, .f35c, calling,
      ["invoke-virtual", "invoke-super", "invoke-direct", "invoke-static", "invoke-interface"],
      false⟩,
    ⟨0x74, .f3rc, calling,
      ["invoke-virtual/range", "invoke-super/range", "invoke-direct/range", "invoke-static/range",
        "invoke-interface/range"], false⟩,
    ⟨0x7b, .f12x, plain,
      ["neg-int", "not-int", "neg-long", "not-long", "neg-float", "neg-double",
        "int-to-long", "int-to-float", "int-to-double", "long-to-int", "long-to-float",
        "long-to-double", "float-to-int", "float-to-long", "float-to-double", "double-to-int",
        "double-to-long", "double-to-float", "int-to-byte", "int-to-char", "int-to-short"],
      false⟩] ++
  operations 0x90 .f23x arithmetic "" ++
  operations 0xb0 .f12x arithmetic "/2addr" ++
  operations 0xd0 .f22s wideLiteral "" ++
  operations 0xd8 .f22b byteLiteral "" ++
  [⟨0xed, .f20bc, .throws, ["throw-verification-error"], true⟩,
    ⟨0xee, .f35ms, raising, ["execute-inline"], true⟩,
    ⟨0xf0, .f35c, calling, ["invoke-direct-empty"], true⟩,
    ⟨0xf2, .f22cs, raising,
      ["iget-quick", "iget-wide-quick", "iget-object-quick",
        "iput-quick", "iput-wide-quick", "iput-object-quick"], true⟩,
    ⟨0xf8, .f35ms, calling, ["invoke-virtual-quick"], true⟩,
    ⟨0xf9, .f3rms, calling, ["invoke-virtual-quick/range"], true⟩,
    ⟨0xfa, .f35ms, calling, ["invoke-super-quick"], true⟩,
    ⟨0xfb, .f3rms, calling, ["invoke-super-quick/range"], true⟩]

/-- The description that a family gives for opcode number `n`, if it covers it. -/
def info? (fam : OpcodeFamily) (n : Nat) : Option OpcodeInfo :=
  if fam.first ≤ n then
    (fam.names[n - fam.first]?).map fun name =>
      { name, format := fam.format, flow := fam.flow, optimized := fam.optimized }
  else none

end OpcodeFamily

/-- The description of opcode number `n`; one that no family covers is named for its number. -/
def OpcodeInfo.ofNumber (n : Nat) : OpcodeInfo :=
  (OpcodeFamily.all.findSome? (·.info? n)).getD
    { name := "unused-" ++ Text.padLeft '0' 2 (Text.hex n),
      format := .unknown, flow := .none, optimized := false }

def opcodeTable : Array OpcodeInfo :=
  (Array.range 256).map OpcodeInfo.ofNumber

namespace Opcode

def info (op : Opcode) : OpcodeInfo :=
  opcodeTable.getD op.byte.toNat default

def name (op : Opcode) : String := op.info.name

def format (op : Opcode) : Format := op.info.format

def flow (op : Opcode) : Flow := op.info.flow

def width (op : Opcode) : Nat := op.format.width

/-- The width, negative for the opcodes that only an optimizer writes. -/
def tableWidth (op : Opcode) : Int :=
  if op.info.optimized then -(op.width : Int) else op.width

def isAssigned (op : Opcode) : Bool := op.format != .unknown

end Opcode

end TraceJit
