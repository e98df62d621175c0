import TraceJit.Text.Hex

/-!
Values of the TOML format, tables and the paths that lead into them.
-/

namespace TraceJit.Toml

/-- The names that lead to a value, outermost first. -/
abbrev Path := List String

/-- A value. A list that was written as a series of tables is kept apart from a written-out list,
because only the former can be continued. -/
inductive Value where
  | text (s : String)
  | integer (i : Int)
  | float (s : String)
  | truth (b : Bool)
  /-- A date, a time or both. -/
  | moment (s : String)
  | array (items : List Value)
  | table (entries : List (String × Value))
  | series (tables : List (List (String × Value)))
  deriving Inhabited

abbrev Table := List (String × Value)

def isBare (c : Char) : Bool :=
  c.isAlphanum || c == '_' || c == '-'

def nameChar (c : Char) : String :=
  match c with
  | '"' => "\\\""
  | '\\' => "\\\\"
  | '\t' => "\\t"
  | '\n' => "\\n"
  | '\r' => "\\r"
  | c =>
    let n := c.toNat
    if n = 8 then "\\b"
    else if n = 12 then "\\f"
    else if n < 0x20 || n = 0x7F then "\\u" ++ Text.padLeft '0' 4 (Text.hex n)
    else c.toString

def nameText (s : String) : String :=
  if !s.isEmpty && s.toList.all isBare then s
  else "\"" ++ String.join (s.toList.map nameChar) ++ "\""

/-- A path with a point between names. -/
def pathText (p : Path) : String :=
  String.intercalate "." (p.map nameText)

namespace Table

/-- Put a value under a name, replacing an earlier one. -/
def insert (t : Table) (name : String) (v : Value) : Table :=
  if t.any (·.1 == name) then t.map fun e => if e.1 == name then (name, v) else e
  else t ++ [(name, v)]

/-- Change the table at a path. A series stands for its last table. -/
def update? (f : Table → Option Table) : Path → Table → Option Table
  | [], t => f t
  | name :: rest, t =>
    match t.lookup name with
    | some (.table s) => (update? f rest s).map fun s => insert t name (.table s)
    | some (.series ss) =>
      match ss.getLast? with
      | some s => (update? f rest s).map fun s => insert t name (.series (ss.dropLast ++ [s]))
      | none => none
    | _ => none

/-- The table at a path. A series stands for its last table. -/
def at? : Path → Table → Option Table
  | [], t => some t
  | name :: rest, t =>
    match t.lookup name with
    | some (.table s) => at? rest s
    | some (.series ss) =>
      match ss.getLast? with
      | some s => at? rest s
      | none => none
    | _ => none

/-- There is a value at a path that leads through tables only. -/
def defines : Path → Table → Bool
  | [], _ => false
  | [name], t => (t.lookup name).isSome
  | name :: rest, t =>
    match t.lookup name with
    | some (.table s) => defines rest s
    | _ => false

end Table

end TraceJit.Toml
