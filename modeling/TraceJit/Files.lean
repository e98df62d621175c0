/-!
Files by name. Names are paths below one directory. A path is followed step by step: a name leads
down, `.` stays where it is and `..` goes up, and every step but the last must lead to a directory.
-/

namespace TraceJit

/-- The files below a directory, and the directories among them that may be empty. -/
structure Files where
  files : List (String × List UInt8) := []
  directories : List String := []
  deriving DecidableEq, Repr, Inhabited

namespace Files

/-- Why a path cannot be opened. -/
inductive OpenError where
  | missing
  | isDirectory
  /-- A step of the path goes through a file. -/
  | notDirectory
  /-- A name, or the path as a whole, is too long. -/
  | tooLong
  /-- No path can be spelt like this. -/
  | invalid
  deriving DecidableEq, Repr

def OpenError.message : OpenError → String
  | .missing => "no such file or directory"
  | .isDirectory => "is a directory"
  | .notDirectory => "not a directory"
  | .tooLong => "file name too long"
  | .invalid => "invalid argument"

end Files

/-- What stands at a path. -/
inductive Found where
  | file (content : List UInt8)
  | directory
  | nothing (cause : Files.OpenError)
  deriving DecidableEq, Repr

def Found.missing : Found := .nothing .missing

/-- A place relative to the directory: the steps down from it, unless the path leads out. -/
inductive Place where
  | inside (steps : List String)
  | outside
  deriving DecidableEq, Repr

namespace Files

def maxNameBytes : Nat := 255

def maxPathBytes : Nat := 4095

/-- The step leads to something else than the place it is taken from or the one above. -/
def isName (step : String) : Bool := step != "" && step != "." && step != ".."

/-- The parts of a path between its strokes, as lists of characters. -/
def cutStrokes : List Char → List (List Char)
  | [] => [[]]
  | c :: cs =>
    if c = '/' then [] :: cutStrokes cs
    else (c :: (cutStrokes cs).headD []) :: (cutStrokes cs).tail

/-- The parts of a path between its strokes. -/
def segments (path : String) : List String := (cutStrokes path.toList).map String.ofList

def rooted (path : String) : Bool := path.toList.head? == some '/'

/-- Take one step of a path by its spelling. Leading out of the directory is for good. -/
def step : Place → String → Place
  | .outside, _ => .outside
  | .inside steps, s =>
    if isName s then .inside (steps ++ [s])
    else if s = ".." then
      if steps.isEmpty then .outside else .inside steps.dropLast
    else .inside steps

/-- The place that a path leads to by its spelling, whether there is anything or not. -/
def place (path : String) : Place :=
  if rooted path then .outside else (segments path).foldl step (.inside [])

/-- The steps down to a file or directory with the given name, unless the name leads out. -/
def steps? (name : String) : Option (List String) :=
  match place name with
  | .inside steps => some steps
  | .outside => none

def spell (steps : List String) : String := String.intercalate "/" steps

def found? (f : Files) (steps : List String) : Option Found :=
  if steps.isEmpty then some .directory
  else match f.files.find? fun e => steps? e.1 == some steps with
    | some (_, content) => some (.file content)
    | none =>
      let leadsTo (name : String) : Bool := (steps? name).any (steps.isPrefixOf ·)
      if f.directories.any leadsTo || f.files.any fun e => leadsTo e.1 then some .directory
      else none

/-- Where a path leads. -/
inductive Reached where
  | entry (found : Found)
  /-- Nothing is there, but everything up to the last step is. -/
  | vacant
  | outside
  | failed (cause : OpenError)
  deriving DecidableEq, Repr

/-- Follow the steps of a path from the directory at `dir`. -/
def walk (f : Files) (dir : List String) : List String → Reached
  | [] => .entry .directory
  | s :: rest =>
    if isName s then
      if maxNameBytes < s.utf8ByteSize then .failed .tooLong
      else match f.found? (dir ++ [s]) with
        | none => if rest.isEmpty then .vacant else .failed .missing
        | some .directory => walk f (dir ++ [s]) rest
        | some found => if rest.isEmpty then .entry found else .failed .notDirectory
    else if s = ".." then
      if dir.isEmpty then .outside else walk f dir.dropLast rest
    else walk f dir rest

/-- Why a path is refused for its spelling alone. -/
def misspelt? (path : String) : Option OpenError :=
  if path = "" then some .missing
  else if path.toList.contains '\x00' then some .invalid
  else if maxPathBytes < path.utf8ByteSize then some .tooLong
  else none

def reach (f : Files) (path : String) : Reached :=
  match misspelt? path with
  | some e => .failed e
  | none => if rooted path then .outside else f.walk [] (segments path)

/-- The file that is always empty, whatever is written to it. -/
def nullDevice : String := "/dev/null"

/-- What a path that leads out leads to. Only files that are known by this very spelling are
found, and the directories on the way up. -/
def findOutside (f : Files) (path : String) : Found :=
  match f.files.lookup path with
  | some content => .file content
  | none =>
    if path = nullDevice then .file []
    else if f.directories.contains path then .directory
    else match (segments path).find? isName with
      | none => .directory
      | some s => if maxNameBytes < s.utf8ByteSize then .nothing .tooLong else .missing

def find (f : Files) (path : String) : Found :=
  match f.reach path with
  | .entry found => found
  | .vacant => .missing
  | .outside => f.findOutside path
  | .failed e => .nothing e

def parent (path : String) : String :=
  let ss := segments path
  if ss.length ≤ 1 then "." else
    let p := spell ss.dropLast
    if p = "" then "/" else p

def dropStrokes (path : String) : String :=
  String.ofList (path.toList.reverse.dropWhile (· == '/')).reverse

/-- Why no file can be made in what is found; none if one can. -/
def Found.closed? : Found → Option OpenError
  | .directory => none
  | .file _ => some .notDirectory
  | .nothing e => some e

/-- Why no file can be opened for writing at a path; none if one can. A name with a stroke behind
it is taken for that of a directory. -/
def writeError? (f : Files) (path : String) : Option OpenError :=
  let named := dropStrokes path
  match misspelt? path with
  | some e => some e
  | none =>
    if named ≠ path && isName ((segments named).getLastD "") then
      (Found.closed? (f.find (parent named))).or (some .isDirectory)
    else match f.reach path with
      | .vacant => none
      | .failed e => some e
      | .entry .directory => some .isDirectory
      | .entry _ => none
      | .outside =>
        match f.findOutside path with
        | .file _ => none
        | .directory => some .isDirectory
        | .nothing _ => Found.closed? (f.find (parent path))

/-- The name under which a file at a path is kept. -/
def nameOf (path : String) : String :=
  match place path with
  | .inside ss => spell ss
  | .outside => path

/-- Put a file in the place of one that may be there. -/
def replace (f : Files) (path : String) (content : List UInt8) : Files :=
  let name := nameOf path
  { f with files := (f.files.filter fun e => nameOf e.1 != name) ++ [(name, content)] }

/-- Write a file. The null device keeps nothing. -/
def write (f : Files) (path : String) (content : List UInt8) : Files :=
  if nameOf path = nullDevice then f else f.replace path content

/-- Make the directories at the steps that follow `dir`, unless they are there. Where that is not
possible, say at which path and why. -/
def makeFrom (f : Files) (dir : List String) : List String → Option (String × OpenError) × Files
  | [] => (none, f)
  | s :: rest =>
    let here := dir ++ [s]
    match f.found? here with
    | some .directory => makeFrom f here rest
    | some _ => (some (spell here, .notDirectory), f)
    | none =>
      if maxNameBytes < s.utf8ByteSize || maxPathBytes < (spell here).utf8ByteSize then
        (some (spell here, .tooLong), f)
      else makeFrom { f with directories := f.directories ++ [spell here] } here rest

/-- Make the directories that the spelling of a path asks for. -/
def makeParents (f : Files) (path : String) : Option (String × OpenError) × Files :=
  match place (spell (segments path).dropLast) with
  | .inside steps => if rooted path then (none, f) else makeFrom f [] steps
  | .outside => (none, f)

/-- Look for a file called `name` at the given steps and then further and further up. Where
something else than its absence is in the way the search fails. -/
def searchFrom (f : Files) (name : String) : Nat → List String → Except OpenError (Option String)
  | fuel, ss =>
    let path := spell (ss ++ [name])
    match f.find path with
    | .file _ | .directory => .ok (some path)
    | .nothing .missing =>
      match fuel with
      | 0 => .ok none
      | fuel + 1 => searchFrom f name fuel ss.dropLast
    | .nothing e => .error e

/-- Look for a file called `name` from the directory at `start` upwards. -/
def searchUp (f : Files) (name start : String) : Except OpenError (Option String) :=
  match place start with
  | .inside ss => searchFrom f name ss.length ss
  | .outside => .ok none

end Files

end TraceJit
