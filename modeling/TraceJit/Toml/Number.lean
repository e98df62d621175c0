import TraceJit.Toml.Value
import TraceJit.Text.Numeral

/-!
Numbers, dates and times of the TOML format. A scan takes the longest stretch of characters that
could belong to such a value; a check then says whether the stretch is one.
-/

namespace TraceJit.Toml

def isDigit (c : Char) : Bool := '0' ≤ c && c ≤ '9'

def isDigitOf (base : Nat) (c : Char) : Bool :=
  match Text.digitValue c with
  | some d => d < base
  | none => false

/-- Every underscore stands between digits, and a digit ends the number. `before` says that a
digit comes directly before. -/
def underscoresFit (before : Bool) : List Char → Bool
  | [] => before
  | '_' :: rest => before && underscoresFit false rest
  | c :: rest => underscoresFit (isDigitOf 16 c) rest

/-- A zero stands in front of further digits. -/
def hasLeadingZero : List Char → Bool
  | '0' :: c :: _ => c != 'b' && c != 'o' && c != 'x'
  | s :: '0' :: _ :: _ => s == '-' || s == '+'
  | _ => false

def magnitude? (limit : Nat) (cs : List Char) : Option Nat :=
  let read (base : Nat) (cs : List Char) := (Text.readDigits base limit cs).toOption
  match cs with
  | '0' :: 'x' :: ds => read 16 ds
  | '0' :: 'o' :: ds => read 8 ds
  | '0' :: 'b' :: ds => read 2 ds
  | ds => read 10 ds

/-- The value of an integer, which fits in a signed word of 64 bits. -/
def integer? (cs : List Char) : Option Int :=
  if !underscoresFit false cs || hasLeadingZero cs then none
  else match cs.filter (· != '_') with
    | '-' :: ds => (magnitude? (1 <<< 63) ds).map fun n => -(n : Int)
    | '+' :: ds => (magnitude? ((1 <<< 63) - 1) ds).map fun n => (n : Int)
    | ds => (magnitude? ((1 <<< 63) - 1) ds).map fun n => (n : Int)

/-- Cut at the points and at the exponent mark, leaving out empty pieces. -/
def floatParts (part : List Char) : List Char → List (List Char)
  | [] => if part.isEmpty then [] else [part.reverse]
  | c :: rest =>
    if c == '.' || c == 'e' || c == 'E' then
      if part.isEmpty then floatParts [] rest else part.reverse :: floatParts [] rest
    else floatParts (c :: part) rest

/-- A digit follows every point. -/
def pointsFit : List Char → Bool
  | [] => true
  | '.' :: rest => (rest.head?.map isDigit).getD false && pointsFit rest
  | _ :: rest => pointsFit rest

/-- Whether `m · 10^e` is rounded to a finite number of 53 bits with exponents up to 1023. Numbers
from 2^1024 - 2^970 on are too large. -/
def isFinite (m : Nat) (e : Int) : Bool :=
  let bound : Nat := (1 <<< 1024) - (1 <<< 970)
  if m = 0 then true
  else
    let digits := (Nat.toDigits 10 m).length
    if 400 < digits + e then false
    else if e < 0 then m < bound * Nat.pow 10 e.natAbs
    else m * Nat.pow 10 e.natAbs < bound

/-- The value of the digits of an exponent. Digits after the value has reached 10000 do not
count. -/
def exponentValue (ds : List Char) : Nat :=
  ds.foldl (fun n c => if n < 10000 then n * 10 + (c.toNat - '0'.toNat) else n) 0

/-- A decimal number with sign, point and exponent that is not too large. -/
def isDecimal (cs : List Char) : Bool :=
  let unsigned := match cs with
    | '+' :: r | '-' :: r => r
    | r => r
  let whole := unsigned.takeWhile isDigit
  let afterWhole := unsigned.drop whole.length
  let (fraction, afterFraction) := match afterWhole with
    | '.' :: r => (r.takeWhile isDigit, r.dropWhile isDigit)
    | r => ([], r)
  let value (ds : List Char) : Nat := ds.foldl (fun n c => n * 10 + (c.toNat - '0'.toNat)) 0
  if whole.isEmpty && fraction.isEmpty then false
  else
    let check (e : Int) : Bool := isFinite (value (whole ++ fraction)) (e - fraction.length)
    match afterFraction with
    | [] => check 0
    | m :: r =>
      if m == 'e' || m == 'E' then
        let (negative, ds) := match r with
          | '-' :: ds => (true, ds)
          | '+' :: ds => (false, ds)
          | ds => (false, ds)
        if ds.isEmpty || !ds.all isDigit then false
        else check (if negative then -(exponentValue ds : Int) else exponentValue ds)
      else false

/-- The stretch is a floating point number. -/
def isFloat (cs : List Char) : Bool :=
  let unsigned := match cs with
    | '+' :: r | '-' :: r => r
    | r => r
  if unsigned == ['i', 'n', 'f'] || unsigned == ['n', 'a', 'n'] then true
  else
    let parts := floatParts [] cs
    parts.all (underscoresFit false) && !(parts.head?.map hasLeadingZero).getD false &&
      pointsFit cs && isDecimal (cs.filter (· != '_'))

/-- The number of two digits, if they are at most `limit`. -/
def twoDigits? (limit : Nat) : List Char → Option (Nat × List Char)
  | a :: b :: rest =>
    match Text.readDigits 10 limit [a, b] with
    | .ok n => some (n, rest)
    | .error _ => none
  | _ => none

def after? (c : Char) : List Char → Option (List Char)
  | d :: rest => if d == c then some rest else none
  | [] => none

def monthDays (year month : Nat) : Nat :=
  match month with
  | 2 => if year % 4 = 0 && (year % 100 ≠ 0 || year % 400 = 0) then 29 else 28
  | 4 | 6 | 9 | 11 => 30
  | _ => 31

def afterDate? (cs : List Char) : Option (List Char) := do
  let (high, rest) ← twoDigits? 99 cs
  let (low, rest) ← twoDigits? 99 rest
  let (month, rest) ← twoDigits? 12 (← after? '-' rest)
  let (day, rest) ← twoDigits? 31 (← after? '-' rest)
  if 1 ≤ month && 1 ≤ day && day ≤ monthDays (high * 100 + low) month then some rest else none

/-- The number of one or two digits, if they are at most `limit`. -/
def shortNumber? (limit : Nat) (cs : List Char) : Option (Nat × List Char) :=
  match cs with
  | a :: b :: _ =>
    if isDigit b then twoDigits? limit cs
    else (Text.readDigits 10 limit [a]).toOption.map fun n => (n, cs.drop 1)
  | _ => none

/-- What follows a time at the front, with or without a fraction of a second. The hour may have
one digit. -/
def afterTime? (cs : List Char) : Option (List Char) := do
  let (_, rest) ← shortNumber? 23 cs
  let (_, rest) ← twoDigits? 59 (← after? ':' rest)
  let (_, rest) ← twoDigits? 59 (← after? ':' rest)
  match rest with
  | '.' :: d :: rest => if isDigit d then some (rest.dropWhile isDigit) else none
  | rest => some rest

/-- What follows a distance from universal time at the front. -/
def afterZone? : List Char → Option (List Char)
  | 'Z' :: rest => some rest
  | s :: rest =>
    if s == '+' || s == '-' then do
      let (_, rest) ← twoDigits? 24 rest
      let (_, rest) ← twoDigits? 60 (← after? ':' rest)
      some rest
    else none
  | [] => none

/-- The stretch is a date, a time, or a date and a time with or without a zone. -/
def isMoment (cs : List Char) : Bool :=
  let cs := cs.map fun
    | 't' | ' ' => 'T'
    | 'z' => 'Z'
    | c => c
  match afterDate? cs with
  | some [] => true
  | some ('T' :: rest) =>
    match afterTime? rest with
    | some [] => true
    | some rest => afterZone? rest == some []
    | none => false
  | some _ => false
  | none => afterTime? cs == some []

def ofStretch (p : Char → Bool) (v : List Char → Option Value) (cs : List Char) :
    Option (Value × List Char) :=
  (v (cs.takeWhile p)).map fun v => (v, cs.dropWhile p)

def integerValue (cs : List Char) : Option Value := (integer? cs).map .integer

def floatValue (cs : List Char) : Option Value :=
  if isFloat cs then some (.float (String.ofList cs)) else none

/-- The date or time of a stretch that may end in blanks. -/
def momentValue (cs : List Char) : Option Value :=
  let cs := (cs.reverse.dropWhile (· == ' ')).reverse
  if isMoment cs then some (.moment (String.ofList cs)) else none

/-- A decimal number: a point or an exponent makes it a floating point number. -/
def decimalNumber (signed : Bool) (cs : List Char) : Option (Value × List Char) :=
  let body := if signed then cs.drop 1 else cs
  match (body.dropWhile fun c => isDigit c || c == '_').head? with
  | some '.' | some 'e' | some 'E' =>
    ofStretch (fun c => isDigit c || c == '_' || c == '.' || c == '-' || c == '+' || c == 'e' ||
      c == 'E') floatValue cs
  | _ =>
    (integerValue (cs.take (if signed then 1 else 0) ++
      body.takeWhile fun c => isDigit c || c == '_')).map
      fun v => (v, body.dropWhile fun c => isDigit c || c == '_')

/-- Whether the digits at the front begin a date or a time. A single zero does not. -/
def beginsMoment (cs : List Char) : Bool :=
  let digits := cs.takeWhile isDigit
  digits != ['0'] && match cs.drop digits.length with
    | '-' :: _ | ':' :: _ => true
    | _ => false

/-- A number, date or time at the front, which begins with a digit or a sign. -/
def numberOrMoment (cs : List Char) : Option (Value × List Char) :=
  let based (base : Nat) (mark d : Char) (rest : List Char) :=
    if isDigitOf base d then
      let p := fun c => isDigitOf base c || c == '_'
      (integerValue ('0' :: mark :: (d :: rest).takeWhile p)).map
        fun v => (v, (d :: rest).dropWhile p)
    else none
  match cs with
  | '0' :: 'x' :: d :: rest => based 16 'x' d rest
  | '0' :: 'o' :: d :: rest => based 8 'o' d rest
  | '0' :: 'b' :: d :: rest => based 2 'b' d rest
  | c :: rest =>
    if c == '-' || c == '+' then
      match rest with
      | 'i' :: 'n' :: 'f' :: rest => some (.float (String.ofList [c, 'i', 'n', 'f']), rest)
      | 'n' :: 'a' :: 'n' :: rest => some (.float (String.ofList [c, 'n', 'a', 'n']), rest)
      | d :: _ => if isDigit d then decimalNumber true cs else none
      | [] => none
    else if beginsMoment cs then
      ofStretch (fun c => isDigit c || "-:Tt .Zz+".toList.contains c) momentValue cs
    else decimalNumber false cs
  | [] => none

end TraceJit.Toml
