import TraceJit.Display.ControlSequence
import TraceJit.Text.Grapheme.Cluster
import TraceJit.Text.Wide

/-!
Blocks of text on a terminal. Every line of a block is filled up to the widest one, whose width is
what the terminal shows of it: control sequences take no columns, and characters that are drawn as
one are counted together.
-/

namespace TraceJit.Display

open Text

/-- The columns of a character of class `k`. The two longest dashes take three and four. -/
def plainColumns (c : Char) (k : GraphemeClass) : Nat :=
  match k with
  | .control | .carriageReturn | .lineFeed | .mark | .joiner => 0
  | .flagHalf => 2
  | .picture => if emojiRanges.holds c then 2 else 1
  | _ =>
    if c = '\u2e3a' then 3
    else if c = '\u2e3b' then 4
    else if isWide c then 2
    else 1

/-- A cluster that may go on. -/
structure OpenCluster where
  first : GraphemeClass
  tail : ClusterEnd
  columns : Nat
  deriving DecidableEq, Repr, Inhabited

namespace OpenCluster

def start (c : Char) (k : GraphemeClass) : OpenCluster :=
  { first := k, tail := .start k, columns := plainColumns c k }

/-- A cluster with one more character. A picture is as wide as the form that is asked for, and
flags and syllables are as wide as they begin. -/
def add (o : OpenCluster) (c : Char) (k : GraphemeClass) : OpenCluster :=
  { o with
    tail := o.tail.add k
    columns :=
      match o.first with
      | .picture => if c = '\ufe0e' then 1 else if c = '\ufe0f' then 2 else o.columns
      | .flagHalf | .leading => o.columns
      | _ => o.columns + plainColumns c k }

end OpenCluster

/-- A terminal that counts the columns it fills. -/
structure Meter where
  /-- Columns in front of the open cluster. -/
  settled : Nat := 0
  state : TerminalState := .ground
  cluster : Option OpenCluster := none
  deriving DecidableEq, Repr, Inhabited

namespace Meter

def columns (m : Meter) : Nat := m.settled + (m.cluster.map (·.columns)).getD 0

/-- Show a character that belongs to no cluster before it. Plain text fills a column with every
character of ASCII from the blank to the last one, which is the delete character. Beyond ASCII a
character ends a control sequence, unless the octets of the sequence are kept. -/
def feedApart (m : Meter) (c : Char) : Meter :=
  if c.toNat < 0x80 || m.state.keepsOctets then
    { settled :=
        if m.state = .ground && 0x20 ≤ c.toNat then m.columns + 1
        else m.columns
      state := (String.utf8EncodeChar c).foldl TerminalState.next m.state }
  else
    { settled := m.columns, cluster := some (.start c (graphemeClass c)) }

def feed (m : Meter) (c : Char) : Meter :=
  match m.cluster with
  | none => m.feedApart c
  | some o =>
    let k := graphemeClass c
    if o.tail.goesOn k then { m with cluster := some (o.add c k) } else m.feedApart c

end Meter

def lineColumns (s : String) : Nat :=
  (s.toList.foldl Meter.feed ({} : Meter)).columns

/-- A text as a block: tabs become four blanks, and lines are filled up to the widest. -/
def block (s : String) : String :=
  match (s.replace "\t" "    ").splitOn "\n" with
  | [line] => line
  | lines =>
    let widest := (lines.map lineColumns).foldl max 0
    String.intercalate "\n" (lines.map fun l => l.pushn ' ' (widest - lineColumns l))

end TraceJit.Display
