/-!
Instruction encodings and control-flow flags. The first digit of a format's name is its width in
code units, the second the number of registers, the letters the kind of the further operand.
-/

namespace TraceJit

/-- How the operands of an instruction are laid out in its code units. -/
inductive Format where
  | unknown
  | f10x | f12x | f11n | f11x | f10t
  | f20bc | f20t | f22x | f21t | f21s | f21h | f21c
  | f23x | f22b | f22t | f22s | f22c | f22cs
  | f32x | f30t | f31t | f31i | f31c
  | f35c | f35ms | f35fs | f3rc | f3rms
  | f51l
  deriving DecidableEq, Repr, Inhabited

namespace Format

def all : List Format :=
  [.unknown, .f10x, .f12x, .f11n, .f11x, .f10t, .f20bc, .f20t, .f22x, .f21t, .f21s, .f21h, .f21c,
    .f23x, .f22b, .f22t, .f22s, .f22c, .f22cs, .f32x, .f30t, .f31t, .f31i, .f31c,
    .f35c, .f35ms, .f35fs, .f3rc, .f3rms, .f51l]

/-- The format with number `n`; numbers past the last one name no format. -/
def ofNumber (n : Nat) : Format :=
  all.getD n .unknown

def number (f : Format) : Nat :=
  all.idxOf f

def name : Format → String
  | .unknown => "??"
  | .f10x => "10x" | .f12x => "12x" | .f11n => "11n" | .f11x => "11x" | .f10t => "10t"
  | .f20bc => "20bc" | .f20t => "20t" | .f22x => "22x" | .f21t => "21t" | .f21s => "21s"
  | .f21h => "21h" | .f21c => "21c" | .f23x => "23x" | .f22b => "22b" | .f22t => "22t"
  | .f22s => "22s" | .f22c => "22c" | .f22cs => "22cs" | .f32x => "32x" | .f30t => "30t"
  | .f31t => "31t" | .f31i => "31i" | .f31c => "31c" | .f35c => "35c" | .f35ms => "35ms"
  | .f35fs => "35fs" | .f3rc => "3rc" | .f3rms => "3rms" | .f51l => "51l"

/-- Encoded size in code units; an unknown format has none. -/
def width : Format → Nat
  | .unknown => 0
  | .f10x | .f12x | .f11n | .f11x | .f10t => 1
  | .f20bc | .f20t | .f22x | .f21t | .f21s | .f21h | .f21c
  | .f23x | .f22b | .f22t | .f22s | .f22c | .f22cs => 2
  | .f32x | .f30t | .f31t | .f31i | .f31c
  | .f35c | .f35ms | .f35fs | .f3rc | .f3rms => 3
  | .f51l => 5

end Format

/-- How an instruction may move control, one bit per ability. -/
structure Flow where
  bits : UInt8
  deriving DecidableEq, Repr, Inhabited

namespace Flow

def none : Flow := ⟨0⟩
def branch : Flow := ⟨1⟩
/-- Control can go on to the next instruction. -/
def next : Flow := ⟨2⟩
def switch : Flow := ⟨4⟩
def throws : Flow := ⟨8⟩
def returns : Flow := ⟨16⟩
def call : Flow := ⟨32⟩
def always : Flow := ⟨64⟩

instance : OrOp Flow := ⟨fun a b => ⟨a.bits ||| b.bits⟩⟩

/-- Every ability of `mask` is present. -/
def has (f mask : Flow) : Bool :=
  f.bits &&& mask.bits == mask.bits

/-- Some ability of `mask` is present. -/
def any (f mask : Flow) : Bool :=
  f.bits &&& mask.bits != 0

/-- The instruction itself can send control elsewhere than to its successor. -/
def changesFlow (f : Flow) : Bool :=
  f.any (branch ||| switch ||| returns ||| call)

/-- The abilities with their names, in the order in which they are listed. -/
def named : List (Flow × String) :=
  [(branch, "can_branch"), (next, "can_continue"), (switch, "can_switch"), (throws, "can_throw"),
    (returns, "can_return"), (call, "invoke"), (always, "unconditional")]

def names (f : Flow) : List String :=
  (named.filter fun (flag, _) => f.has flag).map (·.2)

end Flow

end TraceJit
