import TraceJit.Graph.Boundary
import TraceJit.Graph.BuildError
import TraceJit.Graph.Listing

/-!
Building the graph of a whole method in three passes: decode everything into one block and mark
where blocks start, split at every mark, link the branches. Blocks that contradict the marks are
reported as a broken invariant.
-/

namespace TraceJit.WorkUnit

/-- Decode the steps of a walk into block `whole`, marking the starts they call for. -/
def scanSteps (whole : BlockId) : List Placed → StartSet → WorkUnit → Build
  | [], starts, u => .ok { u with starts := some starts }
  | p :: rest, starts, u =>
    let u := (u.append whole p.insn p.offset).sayInsn p.offset p.insn
    match classify u.method.linkage p.insn p.offset with
    | none => scanSteps whole rest starts u
    | some bd =>
      let starts := starts.mark p.next
      match bd.target with
      | none => scanSteps whole rest starts u
      | some t =>
        if starts.accepts t then scanSteps whole rest (starts.mark t) u
        else .fail { u with starts := some starts } (.invariant (.mark u.name p.offset t))

/-- Decode the method into one block and mark its block starts. -/
def scan (u : WorkUnit) : Build := do
  let size := u.code.size
  let walk := u.code.sweep 0
  let whole := u.nextBlock
  let u ← scanSteps whole walk.steps (.new size) (u.newBlock .code 0)
  match walk.stuck with
  | none => return { u with traceSize := size }
  | some (p, e) => Build.fail u (.malformed (.stuck u.name p.insn.op p.offset e))

/-- The first node of block `id`, other than its very first, that a mark starts. -/
def splitPoint? (u : WorkUnit) (starts : StartSet) (id : BlockId) : Option (NodeId × Node) :=
  (u.nodesOf id).tail.find? fun (_, n) => starts.isStart n.offset

/-- Split block `id` at its first marked node, then go on with the part split off. Every split
uses up a mark, so their number bounds the number of splits. -/
def splitFrom (starts : StartSet) : Nat → BlockId → WorkUnit → Build
  | 0, _, u => .ok u
  | fuel + 1, id, u =>
    match u.splitPoint? starts id with
    | none => .ok u
    | some (cut, node) =>
      if u.findBlock 0 node.offset ≠ noBlock then .ok u
      else
        let tail := u.nextBlock
        let u := u.split id cut
        match u.lastNode? id with
        | none => .fault u
        | some last =>
          let u :=
            if last.insn.isUnconditionalExit then u
            else u.modifyBlock id fun b => { b with fallThrough := tail }
          splitFrom starts fuel tail u

/-- Split at every mark and check that as many blocks came out as the marks call for. -/
def splitAtMarks (u : WorkUnit) : Build := do
  let starts := u.starts.getD (.new u.code.size)
  let u ← splitFrom starts (starts.count + 1) 0 u
  if starts.expectedBlocks = u.blocks.size then return u
  else Build.fail u (.invariant (.split u.name starts.expectedBlocks u.blocks.size))

/-- Set the taken edge of block `id` if its last instruction branches. -/
def linkMethodBlock (u : WorkUnit) (id : Nat) : Build :=
  match u.lastNode? id with
  | none => .fault u
  | some last =>
    match (classify u.method.linkage last.insn last.offset).bind (·.target) with
    | none => .ok u
    | some t =>
      let target := u.findBlock (if last.offset < t then id else 0) t
      if target = noBlock then .fail u (.invariant (.link u.name last.offset t))
      else .ok (u.modifyBlock id fun b => { b with taken := target })

def linkMethod (u : WorkUnit) : Build :=
  (List.range u.blocks.size).foldlM linkMethodBlock u

def buildMethod (u : WorkUnit) : Build :=
  if u.code.size = 0 then .fail u (.malformed (.emptyMethod u.name))
  else do
    let u ← u.scan
    let u ← u.splitAtMarks
    let u ← u.linkMethod
    return u.say .attempt "METHODINFO" u.methodSummary

end TraceJit.WorkUnit
