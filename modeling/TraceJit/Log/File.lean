import TraceJit.Files
import TraceJit.Log.Entry
import TraceJit.MessagePack.Codec

/-!
The file that holds a log: a version, the time of writing and the entries. How values are written
and read is left to a codec.
-/

namespace TraceJit

/-- What a log file holds. -/
structure LogFile where
  schema : UInt16 := 0
  written : Instant := .unset
  entries : Option (List LogEntry) := none
  deriving DecidableEq, Repr, Inhabited

/-- Why a log could not be read. -/
inductive LogError where
  /-- The file cannot be opened. -/
  | unopened (path : String) (cause : Files.OpenError)
  /-- The content does not follow the format. -/
  | undecodable (path : String)
  /-- The time of writing is absent. -/
  | undated
  /-- The log has another version. -/
  | schema (path : String) (version : UInt16)
  deriving DecidableEq, Repr

/-- Why a log could not be written. -/
inductive LogWriteError where
  /-- A directory that it is in cannot be made. -/
  | directory (path : String) (cause : Files.OpenError)
  /-- It cannot be put in its place. -/
  | place (path : String) (cause : Files.OpenError)
  deriving DecidableEq, Repr

namespace LogFile

/-- The version that is written and read. -/
def version : UInt16 := 1

open MessagePack

variable (K : Codec)

/-- A cell in the file. A callee that is empty and a target that is zero are left out. -/
def writeCell (c : LogCell) : List UInt8 :=
  K.record (
    [("kind", K.text c.kind), ("offset", K.word32 c.offset)] ++
    (if c.callee.octets.isEmpty then [] else [("callee", K.text c.callee)]) ++
    (if c.target = 0 then [] else [("target", K.word64 c.target)]))

def writeList {α : Type} (item : α → List UInt8) : Option (List α) → List UInt8
  | none => K.absent
  | some l => K.list (l.map item)

def writeEntry (e : LogEntry) : List UInt8 :=
  K.record
    [("key", K.text e.key), ("method", K.text e.method), ("mode", K.text e.mode),
      ("entry", K.word64 e.entry), ("base", K.word64 e.base), ("size", K.word32 e.size),
      ("insts", K.number e.insts), ("ceilings", writeList K K.number e.ceilings),
      ("cells", writeList K (writeCell K) e.cells)]

def encode (f : LogFile) : List UInt8 :=
  K.record
    [("schema", K.word16 f.schema), ("written", K.time f.written),
      ("entries", writeList K (writeEntry K) f.entries)]

def cellFields : List (RecordField LogCell) :=
  [("kind", fun c => do return { c with kind := ← K.readText }),
    ("offset", fun c => do return { c with offset := (← K.readWord 32).toUInt32 }),
    ("callee", fun c => do return { c with callee := ← K.readText }),
    ("target", fun c => do return { c with target := (← K.readWord 64).toUInt64 })]

/-- An entry while it is read. -/
structure EntryDraft where
  entry : LogEntry := {}
  /-- Cells beyond the end of the list of cells. -/
  beyond : List LogCell := []
  deriving Inhabited

def entryField (name : String) (read : LogEntry → Reader LogEntry) : RecordField EntryDraft :=
  (name, fun d => do return { d with entry := ← read d.entry })

def entryFields : List (RecordField EntryDraft) :=
  [entryField "key" fun e => do return { e with key := ← K.readText },
    entryField "method" fun e => do return { e with method := ← K.readText },
    entryField "mode" fun e => do return { e with mode := ← K.readText },
    entryField "entry" fun e => do return { e with entry := (← K.readWord 64).toUInt64 },
    entryField "base" fun e => do return { e with base := (← K.readWord 64).toUInt64 },
    entryField "size" fun e => do return { e with size := (← K.readWord 32).toUInt32 },
    entryField "insts" fun e => do return { e with insts := ← K.readNumber },
    entryField "ceilings" fun e => do
      return { e with ceilings := (← K.readList 0 (fun _ => K.readNumber) {}).shown },
    ("cells", fun d => do
      let cells ← K.readList {} (K.readRecord {} (cellFields K)) ⟨d.entry.cells, d.beyond⟩
      return { entry := { d.entry with cells := cells.shown }, beyond := cells.beyond })]

/-- A file while it is read. -/
structure Draft where
  schema : UInt16 := 0
  written : Instant := .unset
  entries : KeptList EntryDraft := {}
  deriving Inhabited

def fileFields : List (RecordField Draft) :=
  [("schema", fun f => do return { f with schema := (← K.readWord 16).toUInt16 }),
    ("written", fun f => do return { f with written := ← K.readTime }),
    ("entries", fun f => do
      return { f with entries := ← K.readList {} (K.readRecord {} (entryFields K)) f.entries })]

/-- What was read in the end. -/
def ofDraft (d : Draft) : LogFile :=
  { schema := d.schema, written := d.written
    entries := d.entries.shown.map (·.map (·.entry)) }

/-- Read a file. What stands behind the record is ignored. -/
def decode (bytes : List UInt8) : Except ReadError LogFile :=
  (K.readRecord {} (fileFields K) {} bytes).map fun (d, _) => ofDraft d

/-- Read the log at `path`, where `found` stands. -/
def read (path : String) (found : Found) : Except LogError LogFile :=
  match found with
  | .nothing cause => .error (.unopened path cause)
  | .directory => .error (.undecodable path)
  | .file bytes =>
    match decode K bytes with
    | .error .malformed => .error (.undecodable path)
    | .error .absentTime => .error .undated
    | .ok f => if f.schema = version then .ok f else .error (.schema path f.schema)

/-- Write a log to `path`, in the place of a file that may be there. The directories that it is in
are made first. -/
def write (files : Files) (path : String) (now : Instant) (entries : Option (List LogEntry)) :
    Option LogWriteError × Files :=
  match files.makeParents path with
  | (some (dir, e), files) => (some (.directory dir e), files)
  | (none, files) =>
    match files.writeError? path with
    | some e => (some (.place path e), files)
    | none => (none, files.replace path (encode K { schema := version, written := now, entries }))

end LogFile

def LogError.message : LogError → String
  | .unopened path cause => "open " ++ path ++ ": " ++ cause.message
  | .undecodable path => "jit: decode translation log " ++ path ++ ": unexpected data"
  | .undated => "reflect: call of reflect.Value.IsNil on struct Value"
  | .schema path version =>
    "jit: translation log schema mismatch: " ++ path ++ " has version " ++
      toString version.toNat ++ ", want " ++ toString LogFile.version.toNat

def LogWriteError.message : LogWriteError → String
  | .directory path cause => "mkdir " ++ path ++ ": " ++ cause.message
  | .place path cause => "rename tmp " ++ path ++ ": " ++ cause.message

end TraceJit
