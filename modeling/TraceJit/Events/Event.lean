import TraceJit.Calendar
import TraceJit.Events.Level
import TraceJit.Text.Json

/-!
Single reports and their text.
-/

namespace TraceJit

/-- What a report is about. -/
inductive EventKind where
  | spanBegin
  | spanEnd
  /-- An instant. -/
  | point
  /-- A broken invariant. -/
  | fatal
  | unknown
  deriving DecidableEq, Repr, Inhabited

namespace EventKind

/-- The kind with a number; numbers start at one. -/
def ofNumber : Nat → EventKind
  | 1 => .spanBegin
  | 2 => .spanEnd
  | 3 => .point
  | 4 => .fatal
  | _ => .unknown

def name : EventKind → String
  | .spanBegin => "begin"
  | .spanEnd => "end"
  | .point => "point"
  | .fatal => "fatal"
  | .unknown => "unknown"

def mark : EventKind → String
  | .spanBegin => "→ "
  | .spanEnd => "← "
  | .point => "• "
  | .fatal => "!! "
  | .unknown => ""

end EventKind

structure Event where
  time : Instant
  /-- Position among all reports ever stored. -/
  seq : Nat
  kind : EventKind
  scope : Scope
  /-- Number of the span; zero outside of spans. -/
  span : Nat
  /-- Number of the enclosing span; zero for none. -/
  parent : Nat
  name : String
  detail : String
  /-- Notes by key. -/
  extra : List (String × String)
  /-- Reported at every level but `off`. -/
  forced : Bool
  /-- The notes are those of a span, which can still get further ones. -/
  shared : Bool := false
  deriving DecidableEq, Repr, Inhabited

namespace Event

/-- The report passes at level `l`. -/
def passes (l : Level) (e : Event) : Bool :=
  l.enabled && (e.forced || l.admits e.scope)

def sortedExtra (e : Event) : List (String × String) :=
  e.extra.mergeSort fun a b => a.1 ≤ b.1

/-- The line of a report for readers: number, indentation by scope, mark, name, detail, notes. -/
def text (e : Event) : String :=
  "[" ++ Text.padLeft ' ' 6 (toString e.seq) ++ "] " ++
    "".pushn ' ' (2 * (e.scope.depth.toNat - 1)) ++ e.kind.mark ++ e.name ++
    (if e.detail = "" then "" else " (" ++ e.detail ++ ")") ++
    (if e.extra.isEmpty then ""
      else " \x7b" ++ String.intercalate ", " (e.sortedExtra.map fun (k, v) => k ++ "=" ++ v) ++
        "\x7d") ++ "\n"

/-- The line of a report for programs. Numbers that are zero and texts that are empty are left
out, except for the sequence number and the name. -/
def json (e : Event) : String :=
  let optional (key : String) (absent : Bool) (value : String) :=
    if absent then [] else [(key, value)]
  Text.jsonObject (
    [("time", Text.jsonString e.time.microText),
      ("seq", toString e.seq),
      ("kind", Text.jsonString e.kind.name),
      ("scope", Text.jsonString e.scope.name)] ++
    optional "span_id" (e.span = 0) (toString e.span) ++
    optional "parent_id" (e.parent = 0) (toString e.parent) ++
    [("name", Text.jsonString e.name)] ++
    optional "detail" (e.detail = "") (Text.jsonString e.detail) ++
    optional "extra" e.extra.isEmpty
      (Text.jsonObject (e.sortedExtra.map fun (k, v) => (k, Text.jsonString v)))) ++ "\n"

/-- The line of a report in a form; `auto` is the form for readers. -/
def render (e : Event) : EventFormat → String
  | .ndjson => e.json
  | .auto | .text => e.text

end Event

end TraceJit
