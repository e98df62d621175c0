import TraceJit.Text.Blank
import TraceJit.Text.Numeral
import TraceJit.Text.Quoted

/-!
Code units as text: hexadecimal fields between blanks, each with or without a `0x` mark. Written
text has four lower-case digits per unit and single blanks between them.
-/

namespace TraceJit

/-- A field that is no code unit. -/
structure CodeTextError where
  /-- Position of the field, from zero. -/
  index : Nat
  field : String
  /-- The field without its mark, which is what was read as a numeral. -/
  digits : String
  cause : Text.NumeralFault
  deriving DecidableEq, Repr

def CodeTextError.message (e : CodeTextError) : String :=
  "code unit " ++ toString e.index ++ " " ++ Text.quoted e.field ++
    ": strconv.ParseUint: parsing " ++ Text.quoted e.digits ++ ": " ++ e.cause.message

namespace CodeText

/-- Remove the mark `0` followed by `letter`, once, where it stands. -/
def dropMark (letter : Char) : List Char → List Char
  | '0' :: c :: cs => if c = letter then cs else '0' :: c :: cs
  | cs => cs

/-- A field without its mark. Both marks are removed where they follow each other. -/
def numeral (field : List Char) : List Char :=
  dropMark 'X' (dropMark 'x' field)

def readUnit (field : List Char) : Except Text.NumeralFault UInt16 :=
  (Text.readDigits 16 0xffff (numeral field)).map Nat.toUInt16

/-- The code units of fields, where the first field has position `index`. -/
def readFields : Nat → List (List Char) → Except CodeTextError (List UInt16)
  | _, [] => .ok []
  | index, field :: rest =>
    match readUnit field with
    | .error cause =>
      .error ⟨index, String.ofList field, String.ofList (numeral field), cause⟩
    | .ok u => (readFields (index + 1) rest).map (u :: ·)

def parse (src : String) : Except CodeTextError (List UInt16) :=
  readFields 0 (Text.fields src.toList)

def digit (n : Nat) : Char :=
  if n < 10 then Char.ofNat (48 + n) else Char.ofNat (87 + n)

def unitDigits (u : UInt16) : List Char :=
  let n := u.toNat
  [digit (n / 4096), digit (n / 256 % 16), digit (n / 16 % 16), digit (n % 16)]

def chars : List UInt16 → List Char
  | [] => []
  | [u] => unitDigits u
  | u :: rest => unitDigits u ++ ' ' :: chars rest

def format (units : List UInt16) : String :=
  String.ofList (chars units)

end CodeText

end TraceJit
