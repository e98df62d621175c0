/-!
Characters as octets. Every character is one to four octets; the first one tells how many, and
each of the others carries six bits. Octets that begin no character are read one by one as the
replacement character.
-/

namespace TraceJit.Text

def utf8 (s : String) : List UInt8 :=
  s.toList.flatMap String.utf8EncodeChar

/-- The six bits of an octet that continues a character. -/
def continuation? (b : UInt8) : Option Nat :=
  if 0x80 ≤ b.toNat ∧ b.toNat < 0xC0 then some (b.toNat - 0x80) else none

/-- The character with a number that needs more than `least - 1` and is no surrogate. -/
def scalar? (least n : Nat) : Option Char :=
  if least ≤ n ∧ n.isValidChar then some (Char.ofNat n) else none

/-- The character at the front and the octets behind it. -/
def utf8Next? : List UInt8 → Option (Char × List UInt8)
  | [] => none
  | a :: rest =>
    let n := a.toNat
    if n < 0x80 then some (Char.ofNat n, rest)
    else if n < 0xC0 then none
    else if n < 0xE0 then
      match rest with
      | b :: rest => do
        let c ← scalar? 0x80 ((n - 0xC0) * 64 + (← continuation? b))
        return (c, rest)
      | [] => none
    else if n < 0xF0 then
      match rest with
      | b :: c :: rest => do
        let c ← scalar? 0x800
          (((n - 0xE0) * 64 + (← continuation? b)) * 64 + (← continuation? c))
        return (c, rest)
      | _ => none
    else
      match rest with
      | b :: c :: d :: rest => do
        let c ← scalar? 0x10000
          ((((n - 0xF0) * 64 + (← continuation? b)) * 64 + (← continuation? c)) * 64 +
            (← continuation? d))
        return (c, rest)
      | _ => none

/-- The character that stands for octets without meaning. -/
def replacement : Char := '\uFFFD'

/-- Read at most `fuel` characters. -/
def utf8CharsFrom : Nat → List UInt8 → List Char
  | 0, _ => []
  | _, [] => []
  | fuel + 1, b :: rest =>
    match utf8Next? (b :: rest) with
    | some (c, rest) => c :: utf8CharsFrom fuel rest
    | none => replacement :: utf8CharsFrom fuel rest

/-- The characters of some octets. There are no more characters than octets. -/
def utf8Chars (bytes : List UInt8) : List Char :=
  utf8CharsFrom bytes.length bytes

def ofUtf8 (bytes : List UInt8) : String :=
  String.ofList (utf8Chars bytes)

/-- The octets are exactly those of a text. -/
def isUtf8 (bytes : List UInt8) : Bool :=
  utf8 (ofUtf8 bytes) == bytes

end TraceJit.Text
