import TraceJit.Graph.Boundary
import TraceJit.Graph.WorkUnit

/-!
The structural rules that a finished unit keeps, checked on their own. Every violation is found
and reported, in a fixed order.
-/

namespace TraceJit

/-- A broken rule. Block numbers say where. -/
inductive Violation where
  | recordedId (at_ recorded : BlockId)
  | successorOutOfRange (at_ taken fallThrough next : BlockId)
  | ownsInstructions (at_ : BlockId) (kind : BlockKind)
  | emptyCode (at_ : BlockId)
  | startMismatch (at_ : BlockId) (start first : UInt32)
  | foreignOwner (at_ : BlockId) (off : UInt32) (owner : BlockId)
  | gap (at_ : BlockId) (prev off : UInt32)
  | blockCount (at_ : BlockId) (held : Nat) (counted : Int)
  | unitCount (counted : Int) (held : Nat)
  | noTakenEdge (at_ : BlockId) (off : UInt32)
  | noFallThrough (at_ : BlockId) (op : Opcode) (off : UInt32)
  | tooFewBlocks (count : Nat)
  | noEpilogue
  | codeAfterCells (at_ : BlockId)
  | foreignKind (at_ : BlockId) (kind : BlockKind)
  | wrongBlocks (expected have_ : Nat)
  deriving DecidableEq, Repr

def Violation.message : Violation → String
  | .recordedId b recorded => b.text ++ ": recorded id " ++ recorded.text
  | .successorOutOfRange b taken fall next =>
    b.text ++ ": successor out of range (taken=" ++ taken.text ++ " fallthrough=" ++ fall.text ++
      " next=" ++ next.text ++ ")"
  | .ownsInstructions b kind => b.text ++ ": " ++ kind.name ++ " block owns instructions"
  | .emptyCode b => b.text ++ ": empty code block"
  | .startMismatch b start first =>
    b.text ++ ": starts at " ++ Text.hexMarked start.toNat ++ ", first instruction at " ++
      Text.hexMarked first.toNat
  | .foreignOwner b off owner =>
    b.text ++ ": instruction at " ++ Text.hexMarked off.toNat ++ " owned by " ++ owner.text
  | .gap b prev off =>
    b.text ++ ": gap between " ++ Text.hexMarked prev.toNat ++ " and " ++ Text.hexMarked off.toNat
  | .blockCount b held counted =>
    b.text ++ ": holds " ++ toString held ++ " instructions, counted " ++ toString counted
  | .unitCount counted held =>
    "unit counts " ++ toString counted ++ " instructions, blocks hold " ++ toString held
  | .noTakenEdge b off =>
    b.text ++ ": branch at " ++ Text.hexMarked off.toNat ++ " has no taken edge"
  | .noFallThrough b op off =>
    b.text ++ ": " ++ op.name ++ " at " ++ Text.hexMarked off.toNat ++ " has no fallthrough edge"
  | .tooFewBlocks count => "trace has " ++ toString count ++ " blocks"
  | .noEpilogue => "trace does not end with the epilogue blocks"
  | .codeAfterCells b => b.text ++ ": code block after chaining cells"
  | .foreignKind b kind => b.text ++ ": " ++ kind.name ++ " block in method unit"
  | .wrongBlocks expected have_ =>
    "expected " ++ toString expected ++ " blocks, have " ++ toString have_

namespace WorkUnit

def numbered (u : WorkUnit) : List (BlockId × Block) :=
  u.blocks.toList.mapIdx fun i b => ((i : BlockId), b)

/-- A successor is no block or an existing one. -/
def inRange (u : WorkUnit) (id : BlockId) : Bool :=
  id = noBlock || (0 ≤ id && id < u.blocks.size)

/-- Numbers match positions and successors exist. -/
def numberViolations (u : WorkUnit) : List Violation :=
  u.numbered.flatMap fun (i, b) =>
    (if b.id = i then [] else [.recordedId i b.id]) ++
    (if u.inRange b.taken && u.inRange b.fallThrough && u.inRange b.next then []
      else [.successorOutOfRange i b.taken b.fallThrough b.next])

/-- Nodes of block `i` that it does not own or that do not follow their predecessor. -/
def nodeViolations (i : BlockId) : Option Node → List Node → List Violation
  | _, [] => []
  | prev, n :: rest =>
    (if n.block = i then [] else [.foreignOwner i n.offset n.block]) ++
    (match prev with
      | some p => if p.fallThrough = n.offset then [] else [.gap i p.offset n.offset]
      | none => []) ++
    nodeViolations i (some n) rest

def blockRunViolations (u : WorkUnit) (i : BlockId) (b : Block) : List Violation :=
  if b.kind ≠ .code then
    if b.first = noNode then [] else [.ownsInstructions i b.kind]
  else if b.first = noNode then [.emptyCode i]
  else
    let nodes := (u.nodesOf i).map (·.2)
    (match nodes.head? with
      | some n => if n.offset = b.start then [] else [.startMismatch i b.start n.offset]
      | none => []) ++
    nodeViolations i none nodes ++
    (if (nodes.length : Int) = b.numInsts then [] else [.blockCount i nodes.length b.numInsts])

def heldInsts (u : WorkUnit) : Nat :=
  (u.codeBlocks.flatMap u.nodesOf).length

/-- Instruction runs are contiguous, owned by their block and counted right. -/
def runViolations (u : WorkUnit) : List Violation :=
  u.numbered.flatMap (fun (i, b) => u.blockRunViolations i b) ++
  (if (u.heldInsts : Int) = u.numInsts then [] else [.unitCount u.numInsts u.heldInsts])

/-- Branches have taken edges; what is no exit has a fallthrough edge, unless a method ends. -/
def edgeViolations (u : WorkUnit) : List Violation :=
  u.codeBlocks.flatMap fun i =>
    match u.block? i, u.lastNode? i with
    | some b, some last =>
      let target := (classify u.method.linkage last.insn last.offset).bind (·.target)
      let atEnd := u.trace.isNone && last.fallThrough = u.code.size
      (if target.isSome && b.taken = noBlock then [.noTakenEdge i last.offset] else []) ++
      (if !last.insn.isUnconditionalExit && b.fallThrough = noBlock && !atEnd then
        [.noFallThrough i last.insn.op last.offset] else [])
    | _, _ => []

/-- Code blocks among blocks of which `seenCell` says whether a cell came before them. -/
def lateCode : Bool → List (BlockId × Block) → List Violation
  | _, [] => []
  | seenCell, (i, b) :: rest =>
    (if seenCell && b.kind = .code then [.codeAfterCells i] else []) ++
      lateCode (seenCell || b.kind.isCell) rest

/-- A trace has code blocks, then cells, then the two closing blocks. -/
def traceShapeViolations (u : WorkUnit) : List Violation :=
  let n := u.blocks.size
  let kindAt (i : Nat) := (u.blocks[i]?).map (·.kind)
  if n < 3 then [.tooFewBlocks n]
  else if kindAt (n - 2) ≠ some .pcReconstruction || kindAt (n - 1) ≠ some .exceptionHandling then
    [.noEpilogue]
  else lateCode false u.numbered

/-- A method has code blocks only, as many as its marks call for. -/
def methodShapeViolations (u : WorkUnit) : List Violation :=
  u.numbered.flatMap (fun (i, b) => if b.kind = .code then [] else [.foreignKind i b.kind]) ++
  match u.starts with
  | some s =>
    if s.expectedBlocks = u.blocks.size then [] else [.wrongBlocks s.expectedBlocks u.blocks.size]
  | none => []

def violations (u : WorkUnit) : List Violation :=
  u.numberViolations ++ u.runViolations ++ u.edgeViolations ++
    if u.trace.isSome then u.traceShapeViolations else u.methodShapeViolations

/-- The broken rules as one message under the name of the unit; none if all are kept. -/
def invalid? (u : WorkUnit) : Option String :=
  match u.violations with
  | [] => none
  | vs => some (u.name ++ ": " ++ String.intercalate "\n" (vs.map (·.message)))

end WorkUnit

end TraceJit
