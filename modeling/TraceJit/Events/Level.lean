import TraceJit.Text.Lower
import TraceJit.Text.Quoted

/-!
How much is reported, where reports are kept and in which form they are written.
-/

namespace TraceJit

/-- How coarse a report is; larger numbers are finer. -/
structure Scope where
  depth : UInt8
  deriving DecidableEq, Repr, Inhabited

namespace Scope

def driver : Scope := ⟨1⟩
def attempt : Scope := ⟨2⟩
def pass : Scope := ⟨3⟩
def instr : Scope := ⟨4⟩

def name (s : Scope) : String :=
  match s.depth.toNat with
  | 1 => "driver"
  | 2 => "attempt"
  | 3 => "pass"
  | 4 => "instr"
  | _ => "unknown"

end Scope

/-- How much is reported. -/
inductive Level where
  | off
  /-- Fatal reports only. -/
  | error
  /-- Requests and attempts. -/
  | phase
  /-- Passes too. -/
  | detail
  /-- Everything. -/
  | debug
  deriving DecidableEq, Repr, Inhabited

namespace Level

def all : List Level := [.off, .error, .phase, .detail, .debug]

def name : Level → String
  | .off => "off"
  | .error => "error"
  | .phase => "phase"
  | .detail => "detail"
  | .debug => "debug"

def enabled (l : Level) : Bool := l != .off

/-- Reports of `scope` pass at this level without being forced. -/
def admits (l : Level) (scope : Scope) : Bool :=
  match l with
  | .phase => scope.depth ≤ Scope.attempt.depth
  | .detail => scope.depth ≤ Scope.pass.depth
  | .debug => true
  | .off | .error => false

/-- The level that a word names; the empty word is `off`. -/
def parse (s : String) : Except String Level :=
  match Text.lower s with
  | "off" | "" => .ok .off
  | "error" => .ok .error
  | "phase" => .ok .phase
  | "detail" => .ok .detail
  | "debug" => .ok .debug
  | _ => .error ("invalid trace level: " ++ Text.quoted s ++
      " (expected: off|error|phase|detail|debug)")

end Level

/-- Where reports are kept. -/
inductive StorageMode where
  /-- Written at once. -/
  | stream
  /-- The latest ones are kept in memory. -/
  | ring
  | both
  deriving DecidableEq, Repr, Inhabited

namespace StorageMode

def name : StorageMode → String
  | .stream => "stream"
  | .ring => "ring"
  | .both => "both"

/-- The mode with a number; numbers start at one. -/
def ofNumber? : Nat → Option StorageMode
  | 1 => some .stream
  | 2 => some .ring
  | 3 => some .both
  | _ => none

/-- The mode that a word names; the empty word is `stream`. -/
def parse (s : String) : Except String StorageMode :=
  match Text.lower s with
  | "stream" | "" => .ok .stream
  | "ring" => .ok .ring
  | "both" => .ok .both
  | _ => .error ("invalid storage mode: " ++ Text.quoted s ++ " (expected: stream|ring|both)")

end StorageMode

/-- The form in which reports are written. -/
inductive EventFormat where
  /-- Chosen by the name of the output. -/
  | auto
  | text
  /-- One JSON object a line. -/
  | ndjson
  deriving DecidableEq, Repr, Inhabited

namespace EventFormat

def number : EventFormat → Nat
  | .auto => 0
  | .text => 1
  | .ndjson => 2

/-- The format that a word names; the empty word is `auto`. -/
def parse (s : String) : Except String EventFormat :=
  match Text.lower s with
  | "auto" | "" => .ok .auto
  | "text" => .ok .text
  | "ndjson" | "json" => .ok .ndjson
  | _ => .error ("invalid trace format: " ++ Text.quoted s ++ " (expected: auto|text|ndjson)")

end EventFormat

end TraceJit
