/-!
Control sequences of a terminal. A terminal reads octet by octet and is always in one of a few
states: an escape character leads away from plain text, and what follows decides how far the
sequence reaches. What a sequence consists of is not shown.
-/

namespace TraceJit.Display

/-- What a terminal is reading. -/
inductive TerminalState where
  | ground
  /-- Behind an escape character. -/
  | escape
  /-- Inside a sequence that is about to end, of which only its last character is missing. -/
  | intermediate
  /-- Inside a control sequence with parameters. -/
  | csi
  | dcsEntry
  | dcsParam
  | dcsIntermediate
  /-- The content of a device control string. -/
  | dcsString
  /-- The content of a command to the operating system. -/
  | oscString
  /-- The content of a string that no one reads. -/
  | skippedString
  deriving DecidableEq, Repr, Inhabited

namespace TerminalState

/-- The content of the string may have octets beyond ASCII. -/
def keepsOctets (s : TerminalState) : Bool := s = .dcsString || s = .oscString

/-- The state to which an octet leads from almost every state. -/
def anywhere? (b : UInt8) : Option TerminalState :=
  match b with
  | 0x18 | 0x1a => some .ground
  | 0x1b => some .escape
  | 0x90 => some .dcsEntry
  | 0x98 | 0x9e | 0x9f => some .skippedString
  | 0x9b => some .csi
  | 0x9d => some .oscString
  | b => if 0x80 ≤ b then some .ground else none

def afterPrintable (s : TerminalState) (b : UInt8) : TerminalState :=
  match s with
  | .ground => .ground
  | .escape =>
    if b < 0x30 then .intermediate
    else match b with
      | 0x50 => .dcsEntry
      | 0x5b => .csi
      | 0x5d => .oscString
      | 0x58 | 0x5e | 0x5f => .skippedString
      | _ => .ground
  | .intermediate => if b < 0x30 then .intermediate else .ground
  | .csi => if b < 0x30 then .intermediate else if b < 0x40 then .csi else .ground
  | .dcsEntry | .dcsParam =>
    if b < 0x30 then .dcsIntermediate else if b < 0x40 then .dcsParam else .dcsString
  | .dcsIntermediate => if b < 0x30 then .dcsIntermediate else .dcsString
  | .dcsString => .dcsString
  | .oscString => .oscString
  | .skippedString => .skippedString

def next (s : TerminalState) (b : UInt8) : TerminalState :=
  if s.keepsOctets then
    if b = 0x1b then .escape
    else if b = 0x9c || b = 0x18 || b = 0x1a || (s = .oscString && b = 0x07) then .ground
    else s
  else if s = .dcsEntry && (b = 0x1b || (0x08 ≤ b && b ≤ 0x0d)) then .dcsString
  else match anywhere? b with
    | some s => s
    | none => if b < 0x20 || b = 0x7f then s else s.afterPrintable b

end TerminalState

end TraceJit.Display
