import TraceJit.Graph.WorkUnit

/-!
The listing of a unit, and what a printed unit reports while it is built and compiled.
-/

namespace TraceJit.WorkUnit

def instructionLine (offset : UInt32) (insn : Instruction) : String :=
  Text.hexOffset offset.toNat ++ ": " ++ insn.text

def sayInsn (u : WorkUnit) (offset : UInt32) (insn : Instruction) : WorkUnit :=
  u.say .instr "insn" (instructionLine offset insn)

def blockLine (i : BlockId) (b : Block) : String :=
  BlockId.text i ++ " " ++ b.kind.name ++ " @" ++ Text.hexMarked b.start.toNat ++
    (if b.taken = noBlock then "" else " taken=" ++ b.taken.text) ++
    (if b.fallThrough = noBlock then "" else " fallthrough=" ++ b.fallThrough.text) ++
    (if b.explicitBranch then " explicit-branch" else "") ++
    match b.callee with
    | none => ""
    | some m => " callee=" ++ m.ref ++ "@" ++ Text.hexMarked m.addr.toNat

def headLine (u : WorkUnit) : String :=
  let mode := match u.trace with
    | none => "method"
    | some t => "trace " ++ t.name
  "unit " ++ toString u.id.toNat ++ " " ++ u.name ++ " (" ++ mode ++ ") insns=" ++
    toString u.numInsts ++ " size=" ++ toString u.traceSize.toNat ++ " blocks=" ++
    toString u.blocks.size ++ (if u.singleStep then " single-step" else "")

def listingLines (u : WorkUnit) : List String :=
  u.headLine :: (u.blocks.toList.mapIdx fun i b =>
    blockLine i b :: (u.nodesOf i).map fun (_, n) =>
      "  " ++ instructionLine n.offset n.insn).flatten

/-- The listing, every line closed by a line break. -/
def listing (u : WorkUnit) : String :=
  String.join (u.listingLines.map (· ++ "\n"))

def traceSummary (u : WorkUnit) : String :=
  let start := ((u.trace.bind (·.runs.head?)).map (·.start)).getD 0
  toString u.id.toNat ++ ": " ++ Text.hexMarked u.method.addr.toNat ++ " " ++
    u.method.signature ++ " " ++ Text.hexMarked start.toNat ++ " " ++
    toString u.traceSize.toNat ++ " of " ++ toString u.code.size.toNat ++ ", " ++
    toString u.blocks.size ++ " blocks"

def methodSummary (u : WorkUnit) : String :=
  toString u.id.toNat ++ ": " ++ Text.hexMarked u.method.addr.toNat ++ " " ++
    u.method.signature ++ " size " ++ toString u.code.size.toNat ++ ", " ++
    toString u.blocks.size ++ " blocks"

def dump (u : WorkUnit) : WorkUnit :=
  u.say .attempt "cfg" (String.intercalate "\n" u.listingLines)

/-- Report the end of an attempt at a trace, which the backend may have found too large. -/
def sayEnd (u : WorkUnit) (tooLarge : Bool) : WorkUnit :=
  let u := if tooLarge then u.say .attempt "assemble" "Assembler aborted" else u
  u.say .attempt "end" ("End " ++ u.method.signature ++ ", " ++ toString u.numInsts ++
    " instructions")

end TraceJit.WorkUnit
