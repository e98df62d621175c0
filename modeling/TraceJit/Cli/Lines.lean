import TraceJit.Compiler.Batch
import TraceJit.Display.Paint
import TraceJit.Log.File
import TraceJit.Text.Grouped
import TraceJit.Text.Json
import TraceJit.Timing.Report

/-!
What the commands print: results of compilations, statistics and logs.
-/

namespace TraceJit

/-- The phases of a compilation. A compilation has no clock, so they take no time. -/
def CompileResult.timings (r : CompileResult) : TimingReport :=
  { phases := r.phases.map fun p => { name := p.name, note := p.note } }

namespace Cli

/-- What was compiled, and where the code went. -/
def fragmentText (r : CompileResult) : String :=
  r.mode ++ ", " ++ Text.grouped r.insts ++ " insns, entry " ++
    Text.hexMarked r.fragment.entry.toNat ++ ", " ++ Text.grouped r.fragment.size.toNat ++
    " bytes" ++
    (if 1 < r.ceilings.length then
      ", ceilings " ++ String.intercalate " > " (r.ceilings.map toString) else "")

/-- A chaining cell: its kind, where it leads, and the callee if it has one. -/
def cellText (kind : String) (offset : UInt32) (callee : String) (target : UInt64) : String :=
  Text.padRight 12 kind ++ " @" ++ Text.hexMarked offset.toNat ++
    (if callee = "" then ""
      else " -> " ++ callee ++ " (" ++ Text.hexMarked target.toNat ++ ")")

def inset (lines : List String) : String :=
  String.join (lines.map fun l => "       " ++ l ++ "\n")

/-- The lines about one compilation; fragments that were found under their key are not described
again. -/
def resultText (colored timings : Bool) (name : String) (r : CompileResult)
    (error : Option String) : String :=
  match error with
  | some e => Paint.red.apply colored "FAIL" ++ " " ++ name ++ ": " ++ e ++ "\n"
  | none =>
    (if r.cached then Paint.cyan.apply colored "hit " else Paint.green.apply colored "ok  ") ++
      " " ++ name ++ " " ++ Paint.faint.apply colored (fragmentText r) ++ "\n" ++
      (if r.cached then ""
        else inset
          (r.fragment.cells.map fun c => cellText c.kind.name c.offset c.callee c.target)) ++
      (if timings && !r.phases.isEmpty then inset (r.timings.summary.splitOn "\n").dropLast else "")

/-- The counters of a compiler and the use of its code cache. -/
def statsText (c : Compiler Assembler) : String :=
  let n := c.counters
  let cache := c.state.cache
  let count (k : Nat) : String := Text.grouped k
  "compilations " ++ count n.units ++ " (traces " ++ count n.traces ++ ", methods " ++
    count n.methods ++ "), retries " ++ count n.retries ++ ", cache hits " ++ count n.hits ++
    "\n" ++
    (if 0 < n.failures || 0 < n.tooLarge then
      "failures " ++ count n.failures ++ ", oversize attempts " ++ count n.tooLarge ++
        ", aborts " ++ count n.aborts ++ "\n" else "") ++
    "code cache " ++ count cache.used ++ " / " ++ count cache.capacity ++ " bytes in " ++
    count cache.count ++ " translations\n"

def entryText (colored : Bool) (e : LogEntry) : String :=
  let ceilings := e.ceilings.getD []
  Paint.green.apply colored e.mode.shown ++ " " ++ e.key.shown ++ "\n    " ++
    Text.grouped e.insts ++ " insns, entry " ++ Text.hexMarked e.entry.toNat ++ ", " ++
    Text.grouped e.size.toNat ++ " bytes" ++
    (if 1 < ceilings.length then ", " ++ toString ceilings.length ++ " attempts" else "") ++ "\n" ++
    String.join ((e.cells.getD []).map fun c =>
      "    " ++ cellText c.kind.shown c.offset c.callee.shown c.target ++ "\n")

def logText (colored : Bool) (entries : List LogEntry) (written : Instant) : String :=
  Text.grouped entries.length ++ " translations, written " ++ written.dateTimeText " " ++ "\n" ++
    String.join (entries.map (entryText colored))

def listJson {α : Type} (depth : Nat) (item : α → String) : Option (List α) → String
  | none => "null"
  | some l => Text.jsonList depth (l.map item)

def cellJson (c : LogCell) : String :=
  Text.jsonFields 3
    [("Kind", Text.jsonString c.kind.shown), ("Offset", toString c.offset.toNat),
      ("Callee", Text.jsonString c.callee.shown), ("Target", toString c.target.toNat)]

def entryJson (e : LogEntry) : String :=
  Text.jsonFields 1
    [("Key", Text.jsonString e.key.shown), ("Method", Text.jsonString e.method.shown),
      ("Mode", Text.jsonString e.mode.shown), ("Entry", toString e.entry.toNat),
      ("BaseAddr", toString e.base.toNat), ("Size", toString e.size.toNat),
      ("Insts", toString e.insts), ("Ceilings", listJson 2 toString e.ceilings),
      ("Cells", listJson 2 cellJson e.cells)]

def logJson (entries : Option (List LogEntry)) : String :=
  listJson 0 entryJson entries ++ "\n"

end Cli

end TraceJit
