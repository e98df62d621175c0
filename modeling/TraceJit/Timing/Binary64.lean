import TraceJit.Text.Hex

/-!
Binary floating-point numbers of 64 bits, as the words that hold them, and their decimal text
with a fixed number of places. The text is worked out in whole numbers from the fields of the
word, so it is the exact value, rounded once.
-/

namespace TraceJit

/-- A binary floating-point number: a sign, eleven bits of exponent and 52 bits of fraction. -/
structure Binary64 where
  bits : UInt64
  deriving DecidableEq, Repr, Inhabited

namespace Binary64

def zero : Binary64 := ⟨0⟩

def fraction (x : Binary64) : Nat := x.bits.toNat % (1 <<< 52)

def exponent (x : Binary64) : Nat := (x.bits.toNat >>> 52) % (1 <<< 11)

/-- The sign bit is set. Zero has a sign, too. -/
def isNegative (x : Binary64) : Bool := 1 <<< 63 ≤ x.bits.toNat

/-- An infinity or no number at all. -/
def isSpecial (x : Binary64) : Bool := x.exponent == 2047

def isNaN (x : Binary64) : Bool := x.isSpecial && x.fraction != 0

/-- The finite magnitude is `significand * 2 ^ power`. -/
def significand (x : Binary64) : Nat :=
  if x.exponent = 0 then x.fraction else (1 <<< 52) + x.fraction

/-- The power of two that goes with the significand. -/
def power (x : Binary64) : Int :=
  if x.exponent = 0 then -1074 else (x.exponent : Int) - 1075

/-- The sum, rounded to the nearest number. A word that is no number stays as it is but for the
bit that makes it quiet; the sum of opposite infinities is no number, either. -/
def add (x y : Binary64) : Binary64 :=
  let quiet (z : Binary64) : Binary64 := ⟨z.bits ||| 0x8000000000000⟩
  if x.isNaN then quiet x
  else if y.isNaN then quiet y
  else if x.isSpecial && y.isSpecial && x.isNegative != y.isNegative then ⟨0xfff8000000000000⟩
  else ⟨(Float.ofBits x.bits + Float.ofBits y.bits).toBits⟩

instance : Add Binary64 := ⟨add⟩

/-- `n / d` rounded to the nearest whole number; a half goes to the even neighbour. -/
def roundDiv (n d : Nat) : Nat :=
  let q := n / d
  let twice := 2 * (n % d)
  if twice < d || (twice = d && q % 2 = 0) then q else q + 1

/-- The decimal text of a finite magnitude with `places` digits behind the point. -/
def magnitudeText (places : Nat) (x : Binary64) : String :=
  let scaled := x.significand * Nat.pow 10 places
  let units :=
    if 0 ≤ x.power then scaled <<< x.power.toNat else roundDiv scaled (1 <<< (-x.power).toNat)
  let digits := (Text.padLeft '0' (places + 1) (toString units)).toList
  String.ofList (digits.take (digits.length - places)) ++ "." ++
    String.ofList (digits.drop (digits.length - places))

/-- The decimal text with `places` digits behind the point. An infinity always has a sign; a
finite number has one if its sign bit is set. -/
def fixedText (places : Nat) (x : Binary64) : String :=
  if x.isNaN then "NaN"
  else if x.isSpecial then (if x.isNegative then "-Inf" else "+Inf")
  else (if x.isNegative then "-" else "") ++ x.magnitudeText places

/-- So many nanoseconds, in milliseconds. -/
def ofNanos (n : Int) : Binary64 := ⟨(Float.ofInt n / 1000000.0).toBits⟩

end Binary64

end TraceJit
