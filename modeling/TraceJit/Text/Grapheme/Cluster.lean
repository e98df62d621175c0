import TraceJit.Text.Grapheme.Class

/-!
Clusters of characters that are drawn as one, by the rules of the Unicode standard for extended
grapheme clusters. Whether a cluster goes on depends on its last characters only.
-/

namespace TraceJit.Text

/-- What the end of a cluster says about the characters that may follow. -/
structure ClusterEnd where
  last : GraphemeClass
  /-- A picture ends the cluster, with nothing behind it but marks and then perhaps a joiner. -/
  picture : Bool
  /-- An odd number of halves of flags ends the cluster. -/
  halfFlag : Bool
  deriving DecidableEq, Repr, Inhabited

namespace ClusterEnd

def start (k : GraphemeClass) : ClusterEnd :=
  { last := k, picture := k = .picture, halfFlag := k = .flagHalf }

def add (e : ClusterEnd) (k : GraphemeClass) : ClusterEnd :=
  { last := k
    picture := k = .picture || ((k = .mark || k = .joiner) && e.picture && e.last ≠ .joiner)
    halfFlag := k = .flagHalf && !(e.last = .flagHalf && e.halfFlag) }

/-- A character of class `k` belongs to the cluster. -/
def goesOn (e : ClusterEnd) (k : GraphemeClass) : Bool :=
  match e.last, k with
  | .carriageReturn, .lineFeed => true
  | .carriageReturn, _ | .lineFeed, _ | .control, _ => false
  | _, .carriageReturn | _, .lineFeed | _, .control => false
  | .leading, .leading | .leading, .vowel | .leading, .openSyllable
  | .leading, .closedSyllable => true
  | .openSyllable, .vowel | .vowel, .vowel | .openSyllable, .trailing | .vowel, .trailing => true
  | .closedSyllable, .trailing | .trailing, .trailing => true
  | _, .mark | _, .joiner | _, .spacingMark => true
  | .prepended, _ => true
  | .joiner, .picture => e.picture
  | .flagHalf, .flagHalf => e.halfFlag
  | _, _ => false

end ClusterEnd

/-- The clusters of a text of which `seen`, latest first and with end `e`, has been read. -/
def clustersFrom (seen : List Char) (e : ClusterEnd) : List Char → List (List Char)
  | [] => [seen.reverse]
  | c :: cs =>
    let k := graphemeClass c
    if e.goesOn k then clustersFrom (c :: seen) (e.add k) cs
    else seen.reverse :: clustersFrom [c] (.start k) cs

def clusters : List Char → List (List Char)
  | [] => []
  | c :: cs => clustersFrom [c] (.start (graphemeClass c)) cs

end TraceJit.Text
