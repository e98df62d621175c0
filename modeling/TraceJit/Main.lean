import Std.Time.DateTime.Timestamp
import TraceJit.Cli.Run

/-!
The program. It reads the files that a command line mentions, runs the command line on them, and
writes the files that the run leaves.
-/

namespace TraceJit

def readFile? (path : String) : IO (Option (List UInt8)) := do
  try
    let bytes ← IO.FS.readBinFile path
    return some bytes.toList
  catch _ => return none

/-- The paths that a command line may mean. -/
def mentioned (words : List String) : List String :=
  words.flatMap fun w => w :: (Release.cut '=' w).2.toList

/-- The content of the nearest settings file: that of this directory or of one above it. -/
def nearestSettings? : Nat → String → IO (Option (List UInt8))
  | 0, _ => return none
  | fuel + 1, path => do
    match ← readFile? path with
    | some bytes => return some bytes
    | none => nearestSettings? fuel ("../" ++ path)

/-- The files that a command line can see. -/
def visibleFiles (words : List String) : IO Files := do
  let mut files := []
  for path in mentioned words do
    if let some bytes ← readFile? path then
      files := files ++ [(Files.nameOf path, bytes)]
  if let some bytes ← nearestSettings? 64 Settings.fileName then
    files := files ++ [(Settings.fileName, bytes)]
  return { files, directories := (mentioned words).map Files.parent }

/-- Write the files that are not as they were. -/
def writeChanged (before after : Files) : IO Unit := do
  for (name, bytes) in after.files do
    if before.files.lookup name != some bytes then
      IO.FS.createDirAll (Files.parent name)
      IO.FS.writeBinFile name ⟨bytes.toArray⟩

end TraceJit

open TraceJit in
def main (words : List String) : IO UInt32 := do
  let now ← Std.Time.Timestamp.now
  let files ← visibleFiles words
  let ran := Cli.run files ⟨now.val.second.val, now.val.nano.val.toNat, 0⟩ words
  IO.print ran.stdout
  IO.eprint ran.stderr
  writeChanged files ran.files
  return ran.exit.toUInt32
