import TraceJit.Bytecode.Sweep
import TraceJit.Events.Tracer
import TraceJit.Graph.StartSet
import TraceJit.Program.Trace

/-!
The compilation unit of one attempt: blocks, and instruction nodes that are chained within their
blocks. Blocks and nodes are numbered in the order of their creation and refer to each other by
number; a negative number refers to nothing.
-/

namespace TraceJit

/-- Number of a block. The program keeps the numbers of blocks and of nodes in signed words of 32
bits; any integer stands for one here, which makes no difference as long as those words can tell all
blocks and nodes apart (`WorkUnit.Numberable`). -/
abbrev BlockId := Int

abbrev NodeId := Int

def noBlock : BlockId := -1

def noNode : NodeId := -1

def BlockId.text (id : BlockId) : String :=
  if id = noBlock then "-" else "bb" ++ toString id

/-- What a block is for. -/
inductive BlockKind where
  | code
  /-- Goes back to the interpreter through a guarded path. -/
  | chainNormal
  /-- Chains to a single successor that is often taken. -/
  | chainHot
  /-- Chains into a callee known in advance. -/
  | chainInvoke
  | pcReconstruction
  | exceptionHandling
  /-- A number that stands for no kind. -/
  | undefined (byte : UInt8)
  deriving DecidableEq, Repr, Inhabited

namespace BlockKind

def ofByte (byte : UInt8) : BlockKind :=
  match byte.toNat with
  | 0 => .code
  | 1 => .chainNormal
  | 2 => .chainHot
  | 3 => .chainInvoke
  | 4 => .pcReconstruction
  | 5 => .exceptionHandling
  | _ => .undefined byte

def name : BlockKind → String
  | .code => "code"
  | .chainNormal => "chain-normal"
  | .chainHot => "chain-hot"
  | .chainInvoke => "chain-invoke"
  | .pcReconstruction => "pc-reconstruction"
  | .exceptionHandling => "exception-handling"
  | .undefined byte => "kind(" ++ toString byte.toNat ++ ")"

def isCell : BlockKind → Bool
  | .chainNormal | .chainHot | .chainInvoke => true
  | _ => false

end BlockKind

/-- An instruction in the list of its block. -/
structure Node where
  insn : Instruction
  offset : UInt32
  width : UInt32
  block : BlockId
  prev : NodeId
  next : NodeId
  deriving DecidableEq, Repr

namespace Node

/-- A node as it is allocated, before anything is stored in it. -/
def zero : Node := { insn := .zero, offset := 0, width := 0, block := 0, prev := 0, next := 0 }

instance : Inhabited Node := ⟨zero⟩

def fallThrough (n : Node) : UInt32 := n.offset + n.width

end Node

/-- A count of instructions, kept in a signed word of 64 bits. -/
def wrapCount (n : Int) : Int := Int.bmod n UInt64.size

/-- A basic block, a chaining cell or one of the closing blocks of a trace. -/
structure Block where
  id : BlockId
  kind : BlockKind
  start : UInt32
  first : NodeId
  last : NodeId
  numInsts : Int
  taken : BlockId
  fallThrough : BlockId
  /-- The code block of the next run of a trace. -/
  next : BlockId
  /-- The last instruction cannot leave the block by itself, so a jump has to be emitted. -/
  explicitBranch : Bool
  /-- Callee of a chaining cell that calls. -/
  callee : Option MethodInfo
  deriving DecidableEq, Repr, Inhabited

def Block.empty (id : BlockId) (kind : BlockKind) (start : UInt32) : Block :=
  { id, kind, start, first := noNode, last := noNode, numInsts := 0, taken := noBlock,
    fallThrough := noBlock, next := noBlock, explicitBranch := false, callee := none }

/-- The state of one compilation attempt. -/
structure WorkUnit where
  id : UInt64
  method : Method
  /-- The trace that is compiled; none for a whole method. -/
  trace : Option Trace
  code : Code
  /-- Instructions added to code blocks. -/
  numInsts : Int
  /-- Code units that the attempt covers. -/
  traceSize : UInt32
  /-- Every step of the attempt is reported. -/
  print : Bool
  /-- Slow code is wanted that stops after each instruction. -/
  singleStep : Bool
  /-- Marked block starts, of whole methods only. -/
  starts : Option StartSet
  blocks : Array Block
  nodes : Array Node
  /-- Where steps are reported. -/
  tracer : Tracer := .nop
  /-- Number of the span that the attempt stands in. -/
  span : Nat := 0

/-- Why no unit can be made for a method. -/
inductive UnitError where
  | noMethod
  | native (ref : String)
  /-- The body has more code units than 32 bit offsets can tell apart. -/
  | oversized (ref : String)
  deriving DecidableEq, Repr

def UnitError.message : UnitError → String
  | .noMethod => "mir: nil method"
  | .native ref => "mir: " ++ ref ++ " is native"
  | .oversized ref => "mir: " ++ ref ++ ": code buffer too large"

namespace WorkUnit

def new (m : Method) : Except UnitError WorkUnit :=
  if m.native then .error (.native m.ref)
  else
    match Code.ofUnits? m.code with
    | none => .error (.oversized m.ref)
    | some code =>
      .ok { id := 0, method := m, trace := none, code, numInsts := 0, traceSize := 0,
            print := false, singleStep := false, starts := none, blocks := #[], nodes := #[] }

/-- Report a step of a printed unit. -/
def say (u : WorkUnit) (scope : Scope) (name detail : String) : WorkUnit :=
  { u with
    tracer := if u.print then u.tracer.point scope u.span name detail true else u.tracer }

/-- The reference of the method, which names the unit in messages. -/
def name (u : WorkUnit) : String := u.method.ref

def block? (u : WorkUnit) (id : BlockId) : Option Block :=
  if 0 ≤ id then u.blocks[id.toNat]? else none

def node? (u : WorkUnit) (id : NodeId) : Option Node :=
  if 0 ≤ id then u.nodes[id.toNat]? else none

/-- Change block `id`; a number of no block changes nothing. -/
def modifyBlock (u : WorkUnit) (id : BlockId) (f : Block → Block) : WorkUnit :=
  if 0 ≤ id then { u with blocks := u.blocks.modify id.toNat f } else u

/-- Change node `id`; a number of no node changes nothing. -/
def modifyNode (u : WorkUnit) (id : NodeId) (f : Node → Node) : WorkUnit :=
  if 0 ≤ id then { u with nodes := u.nodes.modify id.toNat f } else u

def nextBlock (u : WorkUnit) : BlockId := u.blocks.size

def nextNode (u : WorkUnit) : NodeId := u.nodes.size

/-- Add an empty block of `kind` that starts at `start`. Its number is `nextBlock`. -/
def newBlock (u : WorkUnit) (kind : BlockKind) (start : UInt32) : WorkUnit :=
  { u with blocks := u.blocks.push (.empty u.nextBlock kind start) }

/-- Add `insn` at `off` to the end of block `b`. Its number is `nextNode`. Where there is no such
block, the node is allocated but stays empty. -/
def append (u : WorkUnit) (b : BlockId) (insn : Instruction) (off : UInt32) : WorkUnit :=
  match u.block? b with
  | none => { u with nodes := u.nodes.push .zero }
  | some blk =>
    let id := u.nextNode
    let node : Node :=
      { insn, offset := off, width := insn.width, block := b, prev := blk.last, next := noNode }
    let u := { u with nodes := u.nodes.push node }
    let u := u.modifyNode blk.last fun n => { n with next := id }
    let u := u.modifyBlock b fun blk =>
      { blk with
        first := if blk.last = noNode then id else blk.first
        last := id
        numInsts := wrapCount (blk.numInsts + 1) }
    if blk.kind = .code then { u with numInsts := wrapCount (u.numInsts + 1) } else u

/-- The chain of nodes from `id` on, over at most `fuel` nodes. -/
def chainFrom (u : WorkUnit) : Nat → NodeId → List (NodeId × Node)
  | 0, _ => []
  | fuel + 1, id =>
    match u.node? id with
    | none => []
    | some n => (id, n) :: chainFrom u fuel n.next

/-- The chain of nodes from `id` on. No chain visits a node twice, so the number of nodes bounds
its length. -/
def chain (u : WorkUnit) (id : NodeId) : List (NodeId × Node) :=
  u.chainFrom (u.nodes.size + 1) id

def nodesOf (u : WorkUnit) (b : BlockId) : List (NodeId × Node) :=
  match u.block? b with
  | none => []
  | some blk => u.chain blk.first

/-- The last node of block `b`; none for an empty block. -/
def lastNode? (u : WorkUnit) (b : BlockId) : Option Node :=
  (u.block? b).bind fun blk => u.node? blk.last

/-- Move node `at` of block `b`, and all that follow it, into a new code block. Successors are
left alone. Nothing happens where there is no such node, and only the new block is made where
there is no such block. -/
def split (u : WorkUnit) (b : BlockId) (cut : NodeId) : WorkUnit :=
  match u.node? cut with
  | none => u
  | some node =>
    let tail := u.nextBlock
    let u := u.newBlock .code node.offset
    match u.block? b with
    | none => u
    | some head =>
      let u := u.modifyBlock tail fun t => { t with first := cut, last := head.last }
      let u := u.modifyBlock b fun h =>
        { h with last := node.prev, first := if node.prev = noNode then noNode else h.first }
      let u := u.modifyNode node.prev fun n => { n with next := noNode }
      let u := u.modifyNode cut fun n => { n with prev := noNode }
      let moved := u.chain cut
      let u := moved.foldl (fun u (id, _) => u.modifyNode id fun n => { n with block := tail }) u
      let u := u.modifyBlock tail fun t =>
        { t with numInsts := wrapCount (t.numInsts + moved.length) }
      u.modifyBlock b fun h => { h with numInsts := wrapCount (h.numInsts - moved.length) }

def codeBlocks (u : WorkUnit) : List BlockId :=
  (u.blocks.toList.mapIdx fun i b => ((i : BlockId), b)).filterMap fun (i, b) =>
    if b.kind = .code then some i else none

def countKind (u : WorkUnit) (kind : BlockKind) : Nat :=
  u.blocks.toList.countP (·.kind = kind)

/-- The first code block from number `lo` on that starts at `off`. -/
def findBlock (u : WorkUnit) (lo : Nat) (off : UInt32) : BlockId :=
  match (u.blocks.toList.drop lo).findIdx? fun b => b.kind = .code && b.start = off with
  | some i => ((lo + i : Nat) : BlockId)
  | none => noBlock

end WorkUnit

end TraceJit
