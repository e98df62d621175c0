import TraceJit.Toml.Document

/-!
Reading records of a known shape out of a TOML document. A name stands for the field that is
spelled the same or else for the one that differs in case only. Along with the record comes the
list of paths that were used, so that the others can be reported.
-/

namespace TraceJit.Toml

/-- Reads a value at a path; the paths that were used inside it come along. -/
abbrev Shape (α : Type) := Path → Value → Option (α × List Path)

namespace Shape

def text : Shape String
  | _, .text s => some (s, [])
  | _, _ => none

def truth : Shape Bool
  | _, .truth b => some (b, [])
  | _, _ => none

def integer : Shape Int
  | _, .integer i => some (i, [])
  | _, _ => none

/-- An integer as a word of 64 bits; negative ones wrap around. -/
def word64 : Shape UInt64
  | _, .integer i => some ((i % UInt64.size).toNat.toUInt64, [])
  | _, _ => none

def word32 : Shape UInt32
  | _, .integer i => if 0 ≤ i ∧ i < UInt32.size then some (i.toNat.toUInt32, []) else none
  | _, _ => none

def list {α : Type} (item : Shape α) : Shape (List α) := fun path v => do
  let vs ← match v with
    | .array vs => some vs
    | .series ts => some (ts.map .table)
    | _ => none
  let read ← vs.mapM (item path)
  return (read.map (·.1), (read.map (·.2)).flatten)

end Shape

/-- How the value under a name is read into a record. -/
structure TableField (α : Type) where
  name : String
  read : Path → Value → α → Option (α × List Path)

def field {α β : Type} (name : String) (shape : Shape β) (put : α → β → α) : TableField α :=
  { name, read := fun path v a => (shape path v).map fun (b, used) => (put a b, used) }

/-- A character for comparison without regard to case, as far as letters of ASCII are concerned. -/
def foldChar (c : Char) : Char :=
  if c.toNat = 0x212A then 'k'
  else if c.toNat = 0x017F then 's'
  else c.toLower

/-- The names differ in case at most. -/
def sameFolded (a b : String) : Bool :=
  a.toList.map foldChar == b.toList.map foldChar

/-- The field that a name stands for. -/
def findField {α : Type} (fields : List (TableField α)) (name : String) : Option (TableField α) :=
  (fields.find? (·.name == name)).or (fields.find? fun f => sameFolded f.name name)

/-- A record with the given fields on top of `zero`. Names that stand for no field are left
alone. -/
def Shape.record {α : Type} (zero : α) (fields : List (TableField α)) : Shape α := fun path v =>
  match v with
  | .table entries =>
    entries.foldlM (fun (a, used) (name, v) =>
      match findField fields name with
      | none => some (a, used)
      | some f => do
        let p := path ++ [name]
        let (a, more) ← f.read p v a
        return (a, used ++ p :: more)) (zero, [])
  | _ => none

namespace Document

def read? {α : Type} (d : Document) (shape : Shape α) : Option (α × List Path) :=
  shape [] (.table d.root)

/-- The written paths that were not used, in order. -/
def unused (d : Document) (used : List Path) : List Path :=
  d.keys.filter fun p => !used.contains p

/-- There is a value at exactly this path. -/
def defines (d : Document) (p : Path) : Bool := Table.defines p d.root

end Document

/-- Why a record could not be read from a document. -/
inductive ReadError where
  /-- The text is no document, or a value has the wrong kind. -/
  | malformed
  /-- Names that stand for nothing. -/
  | unknown (paths : List Path)
  deriving DecidableEq, Repr

def ReadError.message : ReadError → String
  | .malformed => "failed to parse TOML: unexpected text"
  | .unknown paths => "unknown keys: " ++ String.intercalate ", " (paths.map pathText)

def read {α : Type} (shape : Shape α) (bytes : List UInt8) : Except ReadError (α × Document) :=
  match Document.parse? bytes with
  | none => .error .malformed
  | some d =>
    match d.read? shape with
    | none => .error .malformed
    | some (a, used) =>
      match d.unused used with
      | [] => .ok (a, d)
      | paths => .error (.unknown paths)

end TraceJit.Toml
