import TraceJit.Toml.Number
import TraceJit.Toml.Quoted

/-!
The lines of a TOML document: headers of tables and values under names. Readers take characters
from the front; a document that does not follow the grammar gives nothing.
-/

namespace TraceJit.Toml

/-- A value as it is written. -/
inductive Expr where
  | atom (v : Value)
  | array (items : List Expr)
  | inline (fields : List (Path × Expr))
  deriving Inhabited

/-- A line of a document. -/
inductive Statement where
  /-- What follows belongs to the table at `path`. -/
  | table (path : Path)
  /-- What follows belongs to a new table at the end of the series at `path`. -/
  | nextTable (path : Path)
  | entry (path : Path) (value : Expr)
  deriving Inhabited

/-- Takes something from the front of some characters. -/
abbrev Scan (α : Type) := List Char → Option (α × List Char)

def skipGaps (cs : List Char) : List Char := cs.dropWhile isGap

def skipComment (cs : List Char) : List Char := cs.dropWhile fun c => !isLineEnd c

/-- Pass over at most `fuel` blanks, line ends and comments. -/
def skipLinesFrom : Nat → List Char → List Char
  | 0, cs => cs
  | _, [] => []
  | fuel + 1, c :: rest =>
    if c == '#' then skipLinesFrom fuel (skipComment rest)
    else if isGap c || isLineEnd c then skipLinesFrom fuel rest
    else c :: rest

def skipLines (cs : List Char) : List Char := skipLinesFrom cs.length cs

def name : Scan String
  | '"' :: rest => basicText rest
  | '\'' :: rest => literalText rest
  | cs =>
    let bare := cs.takeWhile isBare
    if bare.isEmpty then none else some (String.ofList bare, cs.drop bare.length)

/-- Names with points between them up to the character `stop`, at most `fuel` of them. -/
def pathFrom (stop : Char) : Nat → Scan Path
  | 0, _ => none
  | fuel + 1, cs =>
    match name (skipGaps cs) with
    | none => none
    | some (part, rest) =>
      match skipGaps rest with
      | [] => none
      | c :: rest =>
        if c == '.' then (pathFrom stop fuel rest).map fun (parts, rest) => (part :: parts, rest)
        else if c == stop then some ([part], rest)
        else none

/-- Names with points between them up to the character `stop`. -/
def path (stop : Char) : Scan Path := fun cs => pathFrom stop (cs.length + 1) cs

def atom : Scan Value
  | '"' :: '"' :: '"' :: rest => (longBasicText rest).map fun (s, rest) => (.text s, rest)
  | '"' :: rest => (basicText rest).map fun (s, rest) => (.text s, rest)
  | '\'' :: '\'' :: '\'' :: rest => (longLiteralText rest).map fun (s, rest) => (.text s, rest)
  | '\'' :: rest => (literalText rest).map fun (s, rest) => (.text s, rest)
  | 'i' :: 'n' :: 'f' :: rest => some (.float "inf", rest)
  | 'n' :: 'a' :: 'n' :: rest => some (.float "nan", rest)
  | 't' :: 'r' :: 'u' :: 'e' :: rest => some (.truth true, rest)
  | 'f' :: 'a' :: 'l' :: 's' :: 'e' :: rest => some (.truth false, rest)
  | c :: rest => if isDigit c || c == '-' || c == '+' then numberOrMoment (c :: rest) else none
  | [] => none

mutual

/-- A value that is nested at most `fuel` deep. -/
def value : Nat → Scan Expr
  | 0, _ => none
  | fuel + 1, cs =>
    match skipGaps cs with
    | '[' :: rest => (items fuel rest).map fun (es, rest) => (.array es, rest)
    | '\x7b' :: rest =>
      match skipGaps rest with
      | '\x7d' :: rest => some (.inline [], rest)
      | rest => (fields fuel rest).map fun (fs, rest) => (.inline fs, rest)
    | cs => (atom cs).map fun (v, rest) => (.atom v, rest)

/-- The items of a list up to its closing bracket. A comma may follow the last one. -/
def items : Nat → Scan (List Expr)
  | 0, _ => none
  | fuel + 1, cs =>
    match skipLines cs with
    | ']' :: rest => some ([], rest)
    | cs =>
      match value fuel cs with
      | none => none
      | some (e, rest) =>
        match skipLines rest with
        | ',' :: rest => (items fuel rest).map fun (es, rest) => (e :: es, rest)
        | ']' :: rest => some ([e], rest)
        | _ => none

/-- The entries of a table on one line up to its closing brace. No comma follows the last one. -/
def fields : Nat → Scan (List (Path × Expr))
  | 0, _ => none
  | fuel + 1, cs =>
    match path '=' cs with
    | none => none
    | some (p, rest) =>
      match value fuel rest with
      | none => none
      | some (e, rest) =>
        match skipGaps rest with
        | ',' :: rest => (fields fuel rest).map fun (fs, rest) => ((p, e) :: fs, rest)
        | '\x7d' :: rest => some ([(p, e)], rest)
        | _ => none

end

def statement : Scan Statement
  | '[' :: '[' :: rest =>
    match path ']' rest with
    | some (p, ']' :: rest) => some (.nextTable p, rest)
    | _ => none
  | '[' :: rest => (path ']' rest).map fun (p, rest) => (.table p, rest)
  | cs =>
    match path '=' cs with
    | none => none
    | some (p, rest) => (value (rest.length + 1) rest).map fun (e, rest) => (.entry p e, rest)

/-- What remains after the end of a line, where nothing but a comment may stand. -/
def lineEnd? (cs : List Char) : Option (List Char) :=
  match skipGaps cs with
  | [] => some []
  | c :: rest =>
    if c == '#' then some (skipComment rest)
    else if isLineEnd c then some rest
    else none

/-- At most `fuel` lines. -/
def statementsFrom : Nat → List Char → Option (List Statement)
  | 0, _ => none
  | fuel + 1, cs =>
    match skipLines cs with
    | [] => some []
    | cs => do
      let (s, rest) ← statement cs
      return s :: (← statementsFrom fuel (← lineEnd? rest))

/-- Neither the replacement character nor a control character occurs, other than blanks and line
ends, and a carriage return only in front of a line feed. -/
def isClean : List Char → Bool
  | [] => true
  | '\r' :: rest => rest.head? == some '\n' && isClean rest
  | c :: rest =>
    (c == '\t' || c == '\n' || (0x20 ≤ c.toNat && c.toNat ≠ 0x7F && c.toNat ≠ 0xFFFD)) &&
      isClean rest

def statements? (cs : List Char) : Option (List Statement) :=
  if isClean cs then statementsFrom (cs.length + 1) cs else none

end TraceJit.Toml
