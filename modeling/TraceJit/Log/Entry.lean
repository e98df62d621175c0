import TraceJit.Compiler.Result
import TraceJit.Text.Stored

/-!
Entries of the log that a batch leaves behind, one for each fragment that was installed.
-/

namespace TraceJit

/-- A chaining cell in the log. -/
structure LogCell where
  kind : StoredText := {}
  offset : UInt32 := 0
  callee : StoredText := {}
  target : UInt64 := 0
  deriving DecidableEq, Repr, Inhabited

/-- An installed fragment in the log. A list may be absent, which counts as empty. -/
structure LogEntry where
  key : StoredText := {}
  method : StoredText := {}
  mode : StoredText := {}
  entry : UInt64 := 0
  base : UInt64 := 0
  size : UInt32 := 0
  insts : Int := 0
  ceilings : Option (List Int) := none
  cells : Option (List LogCell) := none
  deriving DecidableEq, Repr, Inhabited

/-- A list that is absent where it would be empty. -/
def nonEmpty? {α : Type} (l : List α) : Option (List α) :=
  if l.isEmpty then none else some l

def LogCell.ofCell (c : Cell) : LogCell :=
  { kind := .ofString c.kind.name, offset := c.offset, callee := .ofString c.callee
    target := c.target }

def LogEntry.ofResult (r : CompileResult) : LogEntry :=
  { key := .ofString r.key, method := .ofString r.method, mode := .ofString r.mode
    entry := r.fragment.entry, base := r.fragment.base, size := r.fragment.size
    insts := r.insts
    ceilings := nonEmpty? r.ceilings
    cells := nonEmpty? (r.fragment.cells.map LogCell.ofCell) }

end TraceJit
