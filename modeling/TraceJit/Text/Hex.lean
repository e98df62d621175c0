/-!
Hexadecimal text of natural numbers as it appears in listings, keys and messages, and the
padding that lines columns up.
-/

namespace TraceJit.Text

/-- `s` filled up on the left with `fill` until it is `width` characters wide. -/
def padLeft (fill : Char) (width : Nat) (s : String) : String :=
  "".pushn fill (width - s.length) ++ s

/-- `s` filled up on the right with blanks until it is `width` characters wide. -/
def padRight (width : Nat) (s : String) : String :=
  s.pushn ' ' (width - s.length)

/-- Lower-case hexadecimal digits without leading zeros; zero is the one digit `0`. -/
def hex (n : Nat) : String :=
  String.ofList (Nat.toDigits 16 n)

def hexMarked (n : Nat) : String :=
  "0x" ++ hex n

/-- A code offset in a listing: at least six digits behind the mark `0x`. -/
def hexOffset (n : Nat) : String :=
  "0x" ++ padLeft '0' 6 (hex n)

/-- A decimal number that always shows its sign. -/
def signed (i : Int) : String :=
  if 0 ≤ i then "+" ++ toString i else toString i

end TraceJit.Text
