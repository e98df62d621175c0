import TraceJit.Text.Utf8
import TraceJit.Toml.Statement

/-!
Putting the lines of a TOML document together. A table that a longer path only passes through is
implied: it may still be given a header of its own, once. Paths are compared without regard to the
position in a series, so what is implied in one table of a series is implied in all of them.
-/

namespace TraceJit.Toml

/-- A document under construction. -/
structure Builder where
  root : Table := []
  /-- Every written path, in order. -/
  keys : List Path := []
  /-- Paths of tables that were only passed through so far. -/
  implied : List Path := []
  /-- Paths of written-out lists. -/
  arrays : List Path := []
  /-- The table that entries go to. -/
  context : Path := []
  deriving Inhabited

namespace Builder

def imply (b : Builder) (p : Path) : Builder :=
  { b with implied := p :: b.implied }

def settle (b : Builder) (p : Path) : Builder :=
  { b with implied := b.implied.filter (· != p) }

/-- Remember whether a written-out list stands under `name`. The empty name stands for the table
itself. -/
def classify (b : Builder) (name : String) (isArray : Bool) : Builder :=
  let p := if name = "" then b.context else b.context ++ [name]
  let p := if p.isEmpty then [""] else p
  let others := b.arrays.filter (· != p)
  { b with arrays := if isArray then p :: others else others }

/-- Put a value under a name of the current table. A list may be replaced, and an implied table
stays as it is; any other value under the name stands in the way. -/
def put (b : Builder) (name : String) (v : Value) : Option Builder := do
  let p := b.context ++ [name]
  let t ← Table.at? b.context b.root
  let insert (b : Builder) : Option Builder := do
    let root ← Table.update? (fun t => some (Table.insert t name v)) b.context b.root
    return { b with root }
  if (t.lookup name).isSome then
    if b.arrays.contains p then insert (b.settle p)
    else if b.implied.contains p then return b.settle p
    else none
  else insert b

/-- Make the tables on the way down to a name, starting from the table at `done`. -/
def passThrough (b : Builder) (done : Path) : Path → Option Builder
  | [] => some { b with context := done }
  | name :: rest => do
    let t ← Table.at? done b.root
    let b ← match t.lookup name with
      | some (.table _) | some (.series _) => some b
      | some _ => none
      | none => do
        let root ← Table.update? (fun t => some (Table.insert t name (.table []))) done b.root
        some ({ b with root }.imply (done ++ [name]))
    passThrough b (done ++ [name]) rest

/-- Add an empty table at the end of the series under a name of the current table. -/
def extendSeries (b : Builder) (name : String) : Option Builder := do
  let extend (t : Table) : Option Table :=
    match t.lookup name with
    | none => some (Table.insert t name (.series [[]]))
    | some (.series ts) => some (Table.insert t name (.series (ts ++ [[]])))
    | some _ => none
  let root ← Table.update? extend b.context b.root
  return { b with root }

/-- Make the table at a path the current one: a new table of a series, or a table of its own. -/
def enter (b : Builder) (p : Path) (inSeries : Bool) : Option Builder := do
  let b ← b.passThrough [] p.dropLast
  let name := p.getLastD ""
  let b ← if inSeries then b.extendSeries name else b.put name (.table [])
  return { b with context := p }

/-- Descend from the current table through the given names. -/
def descend (b : Builder) : Path → Option Builder
  | [] => some b
  | name :: rest => do
    let p := b.context ++ [name]
    let b ← (b.imply p).enter p false
    b.descend rest

def note (b : Builder) (p : Path) : Builder := { b with keys := b.keys ++ [p] }

/-- A list as written. -/
def isArray : Value → Bool
  | .array _ => true
  | _ => false

mutual

/-- Evaluate what stands under `name` of the current table. Tables on one line are entered, so
that their paths are noted and checked; `inList` says that the value is an item of a list. -/
def evaluate (b : Builder) (name : String) (inList : Bool) : Expr → Option (Value × Builder)
  | .atom v => some (v, b)
  | .array es => do
    let (vs, b) ← evaluateItems (b.classify name true) name es
    return (.array vs, b)
  | .inline fs => do
    let outer := b.context
    let p := outer ++ [name]
    let b ← (b.imply p).enter p inList
    let (entries, b) ← evaluateFields b [] fs
    return (.table entries, { b with context := outer })

def evaluateItems (b : Builder) (name : String) : List Expr → Option (List Value × Builder)
  | [] => some ([], b)
  | e :: rest => do
    let (v, b) ← evaluate b name true e
    let (vs, b) ← evaluateItems b name rest
    return (v :: vs, b)

/-- Put the entries of a table on one line into the current table. The table as an item of a list
has every value under the last name of its path. -/
def evaluateFields (b : Builder) (entries : Table) :
    List (Path × Expr) → Option (Table × Builder)
  | [] => some (entries, b)
  | (p, e) :: rest => do
    let outer := b.context
    let name := p.getLastD ""
    let b ← b.descend p.dropLast
    let (v, b) ← evaluate (b.note (b.context ++ [name])) name false e
    let b := (← b.put name v).classify name (isArray v)
    evaluateFields { b with context := outer } (Table.insert entries name v) rest

end

def add (b : Builder) : Statement → Option Builder
  | .table p => do
    let b ← b.enter p false
    return (b.classify "" false).note p
  | .nextTable p => do
    let b ← b.enter p true
    return (b.classify "" false).note p
  | .entry p e => do
    let (_, b) ← evaluateFields b [] [(p, e)]
    return b

end Builder

/-- A document: its table and every path that was written, in order. -/
structure Document where
  root : Table
  keys : List Path
  deriving Inhabited

namespace Document

def ofStatements? (lines : List Statement) : Option Document := do
  let b ← lines.foldlM Builder.add {}
  return { root := b.root, keys := b.keys }

/-- Octets without a mark of their order at the front. -/
def dropByteOrderMark : List UInt8 → List UInt8
  | 0xff :: 0xfe :: rest => rest
  | 0xfe :: 0xff :: rest => rest
  | 0xef :: 0xbb :: 0xbf :: rest => rest
  | bytes => bytes

/-- Read a document, which must be well-formed text. -/
def parse? (bytes : List UInt8) : Option Document := do
  let bytes := dropByteOrderMark bytes
  if Text.isUtf8 bytes then ofStatements? (← statements? (Text.utf8Chars bytes)) else none

end Document

end TraceJit.Toml
