import TraceJit.Graph.WorkUnit

/-!
Lowering a finished unit to 32 bit words of a fixed cost per instruction, cell and stub.
-/

namespace TraceJit

structure Cell where
  kind : BlockKind
  /-- Bytecode offset at which execution goes on. -/
  offset : UInt32
  /-- Reference and address of the callee of a cell that calls; empty and zero otherwise. -/
  callee : String
  target : UInt64
  deriving DecidableEq, Repr, Inhabited

/-- The lowered form of a unit. -/
structure Lowered where
  words : Array UInt32 := #[]
  cells : List Cell := []
  /-- Stubs that restore the program counter, one per throwing instruction. -/
  stubs : Nat := 0
  insts : Int := 0
  /-- Throwing instructions met so far. -/
  throwing : Nat := 0
  deriving Inhabited

/-- A block of no kind that could be lowered. -/
structure LowerError where
  block : BlockId
  kind : BlockKind
  deriving DecidableEq, Repr

def LowerError.message (e : LowerError) : String :=
  "backend: " ++ e.block.text ++ ": unknown block kind " ++ e.kind.name

namespace Lowered

/-- `tag` in the top byte and the low three bytes of `arg`. -/
def tagged (tag : UInt8) (arg : UInt32) : UInt32 :=
  (tag.toUInt32 <<< 24) ||| (arg &&& 0xffffff)

/-- A tagged word followed by zeros, `n` words in all but at least one. -/
def padded (tag : UInt8) (arg : UInt32) (n : Nat) : List UInt32 :=
  tagged tag arg :: List.replicate (n - 1) 0

def cost (singleStep : Bool) (n : Node) : Nat :=
  if singleStep then 8
  else if n.insn.isPayload then (n.width + 1).toNat / 2
  else if n.insn.flow.has .call then 6
  else if n.insn.flow.any (.branch ||| .switch) then 2
  else 3

def addInsn (singleStep : Bool) (p : Lowered) (n : Node) : Lowered :=
  { p with
    words := p.words ++ padded n.insn.op.byte n.offset (cost singleStep n)
    insts := p.insts + 1
    throwing := if n.insn.flow.has .throws then p.throwing + 1 else p.throwing }

def addCell (p : Lowered) (tag : UInt8) (b : Block) (n : Nat) : Lowered :=
  let cell : Cell :=
    { kind := b.kind, offset := b.start
      callee := (b.callee.map (·.ref)).getD ""
      target := (b.callee.map (·.addr)).getD 0 }
  { p with cells := p.cells ++ [cell], words := p.words ++ padded tag b.start n }

def stubWords (count : Nat) : List UInt32 :=
  (List.range count).flatMap fun i => padded 0xfe i.toUInt32 2

def addBlock (u : WorkUnit) (p : Lowered) (i : BlockId) (b : Block) : Except LowerError Lowered :=
  match b.kind with
  | .code =>
    let p := ((u.nodesOf i).map (·.2)).foldl (addInsn u.singleStep) p
    .ok (if b.explicitBranch then
        { p with words := p.words.push (tagged 0xff (b.fallThrough % UInt32.size).toNat.toUInt32) }
      else p)
  | .chainNormal => .ok (p.addCell 0xf1 b 4)
  | .chainHot => .ok (p.addCell 0xf2 b 4)
  | .chainInvoke => .ok (p.addCell 0xf3 b 6)
  | .pcReconstruction =>
    .ok { p with words := p.words ++ stubWords p.throwing, stubs := p.throwing }
  | .exceptionHandling => .ok { p with words := p.words ++ padded 0xfd 0 3 }
  | .undefined _ => .error ⟨i, b.kind⟩

end Lowered

def WorkUnit.lower (u : WorkUnit) : Except LowerError Lowered :=
  (u.blocks.toList.mapIdx fun i b => ((i : BlockId), b)).foldlM
    (fun p (i, b) => p.addBlock u i b) {}

end TraceJit
