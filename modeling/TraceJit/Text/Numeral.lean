/-!
Reading numerals in a base up to 36 under an upper limit. Digits are read from left to right and
the first problem decides the failure. A numeral may say its base by a mark in front, and then its
digits may be set apart by underscores.
-/

namespace TraceJit.Text

/-- Why a numeral could not be read. -/
inductive NumeralFault where
  /-- There is no digit, or a character is no digit of the base. -/
  | badDigit
  /-- The value passes the limit. -/
  | outOfRange
  deriving DecidableEq, Repr

def NumeralFault.message : NumeralFault → String
  | .badDigit => "invalid syntax"
  | .outOfRange => "value out of range"

/-- The value of a digit or letter, with letters of either case counting on from ten. -/
def digitValue (c : Char) : Option Nat :=
  if '0' ≤ c ∧ c ≤ '9' then some (c.toNat - '0'.toNat)
  else if 'a' ≤ c ∧ c ≤ 'z' then some (c.toNat - 'a'.toNat + 10)
  else if 'A' ≤ c ∧ c ≤ 'Z' then some (c.toNat - 'A'.toNat + 10)
  else none

/-- Continue a numeral whose digits so far have the value `acc`. -/
def readDigitsFrom (base limit : Nat) : Nat → List Char → Except NumeralFault Nat
  | acc, [] => .ok acc
  | acc, c :: cs =>
    match digitValue c with
    | none => .error .badDigit
    | some d =>
      if d < base then
        if limit < acc * base + d then .error .outOfRange
        else readDigitsFrom base limit (acc * base + d) cs
      else .error .badDigit

/-- The value of a numeral of at least one digit. -/
def readDigits (base limit : Nat) (cs : List Char) : Except NumeralFault Nat :=
  if cs.isEmpty then .error .badDigit else readDigitsFrom base limit 0 cs

/-- The base that a numeral has by its mark, and the digits behind the mark. A leading zero alone
marks base eight. -/
def markedBase : List Char → Nat × List Char
  | '0' :: m :: d :: cs =>
    if m == 'b' || m == 'B' then (2, d :: cs)
    else if m == 'o' || m == 'O' then (8, d :: cs)
    else if m == 'x' || m == 'X' then (16, d :: cs)
    else (8, m :: d :: cs)
  | '0' :: cs => (8, cs)
  | cs => (10, cs)

/-- Every underscore stands behind a digit, or behind the mark of a base, and in front of a digit.
`digitBefore` tells whether a digit or a mark has just been passed. -/
def underscoresApart (digitBefore : Bool) : List Char → Bool
  | [] => true
  | '_' :: cs => digitBefore && !cs.isEmpty && underscoresApart false cs
  | _ :: cs => underscoresApart true cs

/-- The value of a numeral in the base that its mark says. -/
def readMarked (limit : Nat) (cs : List Char) : Except NumeralFault Nat :=
  if cs.isEmpty then .error .badDigit
  else
    let (base, digits) := markedBase cs
    match readDigitsFrom base limit 0 (digits.filter (· != '_')) with
    | .error e => .error e
    | .ok n =>
      if underscoresApart (digits.length < cs.length) digits then .ok n else .error .badDigit

/-- The value of a numeral with an optional sign that fits into `bits` bits. -/
def readMarkedSigned (bits : Nat) (cs : List Char) : Except NumeralFault Int :=
  let (negative, cs) :=
    match cs with
    | '+' :: cs => (false, cs)
    | '-' :: cs => (true, cs)
    | cs => (false, cs)
  match readMarked ((1 <<< bits) - 1) cs with
  | .error e => .error e
  | .ok n =>
    if negative then (if n ≤ 1 <<< (bits - 1) then .ok (-n) else .error .outOfRange)
    else if n < 1 <<< (bits - 1) then .ok n
    else .error .outOfRange

end TraceJit.Text
