/-!
Whole numbers with their digits in groups of three.
-/

namespace TraceJit.Text

/-- Digits from the right end, a comma after each full group that is not the last. -/
def groupDigits : List Char → List Char
  | a :: b :: c :: d :: rest => a :: b :: c :: ',' :: groupDigits (d :: rest)
  | cs => cs

/-- A whole number with commas between groups of three digits. -/
def grouped (i : Int) : String :=
  (if i < 0 then "-" else "") ++
    String.ofList (groupDigits (toString i.natAbs).toList.reverse).reverse

end TraceJit.Text
