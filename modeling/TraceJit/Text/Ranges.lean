/-!
Classes of characters as ranges of code points.
-/

namespace TraceJit.Text

/-- First and last code points of ranges, ascending. -/
abbrev Ranges := Array (Nat × Nat)

def Ranges.holds (ranges : Ranges) (c : Char) : Bool :=
  ranges.any fun (first, last) => first ≤ c.toNat && c.toNat ≤ last

end TraceJit.Text
