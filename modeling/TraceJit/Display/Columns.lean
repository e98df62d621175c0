import TraceJit.Text.Grapheme.Cluster
import TraceJit.Text.Wide

/-!
How many columns of a terminal a name takes, and names that are cut to fit. Most characters take
one column, wide ones take two, and marks that are drawn over the character before them take none.
Characters that are drawn as one take as much as the first of them that takes any.
-/

namespace TraceJit.Display

open Text

/-- Controls and other characters without a picture. -/
def unseenRanges : Ranges := #[
    (0x0, 0x1f), (0x7f, 0x9f), (0xad, 0xad), (0x70f, 0x70f), (0x180b, 0x180e), (0x200b, 0x200f),
    (0x2028, 0x202e), (0x206a, 0x206f), (0xfeff, 0xfeff), (0xfff9, 0xfffb), (0xfffe, 0xffff)]

/-- Marks that are drawn over the character before them. -/
def combiningRanges : Ranges := #[
    (0x300, 0x36f), (0x483, 0x489), (0x7eb, 0x7f3), (0xc00, 0xc00), (0xc04, 0xc04),
    (0xcf3, 0xcf3), (0xd00, 0xd01), (0x135d, 0x135f), (0x1a7f, 0x1a7f), (0x1ab0, 0x1ace),
    (0x1b6b, 0x1b73), (0x1dc0, 0x1dff), (0x20d0, 0x20f0), (0x2cef, 0x2cf1), (0x2de0, 0x2dff),
    (0x3099, 0x309a), (0xa66f, 0xa672), (0xa674, 0xa67d), (0xa69e, 0xa69f), (0xa6f0, 0xa6f1),
    (0xa8e0, 0xa8f1), (0xfe20, 0xfe2f), (0x101fd, 0x101fd), (0x10376, 0x1037a),
    (0x10eab, 0x10eac), (0x10f46, 0x10f50), (0x10f82, 0x10f85), (0x11300, 0x11301),
    (0x1133b, 0x1133c), (0x11366, 0x1136c), (0x11370, 0x11374), (0x16af0, 0x16af4),
    (0x1cf00, 0x1cf2d), (0x1cf30, 0x1cf46), (0x1d165, 0x1d169), (0x1d16d, 0x1d172),
    (0x1d17b, 0x1d182), (0x1d185, 0x1d18b), (0x1d1aa, 0x1d1ad), (0x1d242, 0x1d244),
    (0x1e000, 0x1e006), (0x1e008, 0x1e018), (0x1e01b, 0x1e021), (0x1e023, 0x1e024),
    (0x1e026, 0x1e02a), (0x1e08f, 0x1e08f), (0x1e8d0, 0x1e8d6)]

/-- Wide characters that are counted as such in names only. -/
def laterWideRanges : Ranges := #[(0x2ffc, 0x2fff), (0x31ef, 0x31ef)]

def charColumns (c : Char) : Nat :=
  if unseenRanges.holds c || combiningRanges.holds c then 0
  else if isWide c || laterWideRanges.holds c then 2
  else 1

/-- The columns of a cluster: those of its first character that takes any. -/
def clusterColumns (cluster : List Char) : Nat :=
  ((cluster.map charColumns).find? (0 < ·)).getD 0

def columns (s : String) : Nat :=
  ((clusters s.toList).map clusterColumns).foldr (· + ·) 0

/-- The clusters from the front that fit into `width` columns. -/
def fitting : Nat → List (List Char) → List (List Char)
  | _, [] => []
  | width, cluster :: rest =>
    if clusterColumns cluster ≤ width then
      cluster :: fitting (width - clusterColumns cluster) rest
    else []

/-- A name that takes at most `width` columns: what does not fit gives way to three points. -/
def truncate (s : String) (width : Nat) : String :=
  if columns s ≤ width then s
  else String.ofList (fitting (width - 3) (clusters s.toList)).flatten ++ "..."

end TraceJit.Display
