/-!
Blank characters are those with the Unicode property White_Space. Text is cut into fields at
blanks and trimmed of them.
-/

namespace TraceJit.Text

/-- The characters with the property White_Space. -/
def isBlank (c : Char) : Bool :=
  let n := c.toNat
  (9 ≤ n && n ≤ 13) || n == 0x20 || n == 0x85 || n == 0xA0 || n == 0x1680 ||
    (0x2000 ≤ n && n ≤ 0x200A) || n == 0x2028 || n == 0x2029 || n == 0x202F ||
    n == 0x205F || n == 0x3000

/-- The fields of `cs` when `field`, in reverse, has already been read of the first one. -/
def fieldsFrom (field : List Char) : List Char → List (List Char)
  | [] => if field.isEmpty then [] else [field.reverse]
  | c :: cs =>
    if isBlank c then
      if field.isEmpty then fieldsFrom [] cs else field.reverse :: fieldsFrom [] cs
    else
      fieldsFrom (c :: field) cs

/-- The maximal stretches without a blank, in order. -/
def fields (cs : List Char) : List (List Char) :=
  fieldsFrom [] cs

def trimBlank (s : String) : String :=
  String.ofList (((s.toList.dropWhile isBlank).reverse.dropWhile isBlank).reverse)

def allBlank (s : String) : Bool :=
  s.toList.all isBlank

end TraceJit.Text
