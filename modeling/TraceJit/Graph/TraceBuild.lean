import TraceJit.Graph.Boundary
import TraceJit.Graph.BuildError
import TraceJit.Graph.Listing

/-!
Building the graph of a trace: one code block per run that is entered, up to a ceiling on the
number of instructions; then a chaining cell for every edge that leaves the compiled region; and
two closing blocks.
-/

namespace TraceJit.WorkUnit

/-- Decode one instruction at `off` into block `cur` and give the offset after it. -/
def traceStep (u : WorkUnit) (run : Nat) (cur : BlockId) (off : UInt32) :
    Except Halted (WorkUnit × UInt32) :=
  if u.code.size ≤ off then
    .error ⟨.failed (.malformed (.pastEnd u.name run off u.code.size)), u⟩
  else
    let insn := u.code.instructionAt off
    match u.code.advance off insn.width with
    | .error e => .error ⟨.failed (.malformed (.stuck u.name insn.op off e)), u⟩
    | .ok next =>
      let u := u.append cur insn off
      let u := { u with traceSize := u.traceSize + insn.width }
      .ok (u.sayInsn off insn, next)

/-- Decode `left` instructions from `off` into block `cur`, or fewer if the ceiling is reached. -/
def traceRun (ceiling : Int) (run : Nat) (cur : BlockId) :
    Nat → WorkUnit → UInt32 → Except Halted WorkUnit
  | 0, u, _ => .ok u
  | left + 1, u, off =>
    match u.traceStep run cur off with
    | .error h => .error h
    | .ok (u, next) => if ceiling ≤ u.numInsts then .ok u else traceRun ceiling run cur left u next

/-- Decode runs, of which the first has position `run`, each into a block of its own. The block
`prior` of the run before is chained to the first of them. -/
def traceRuns (ceiling : Int) : Nat → BlockId → List Run → WorkUnit → Except Halted WorkUnit
  | _, _, [], u => .ok u
  | run, prior, r :: rest, u =>
    let cur := u.nextBlock
    let u := (u.newBlock .code r.start).modifyBlock prior fun b => { b with next := cur }
    match traceRun ceiling run cur r.count.toNat u r.start with
    | .error h => .error h
    | .ok u =>
      if ceiling ≤ u.numInsts || r.ends then .ok u else traceRuns ceiling (run + 1) cur rest u

/-- Where the edge of a branch or call out of the region goes: a new cell, if it needs one. -/
def takenCell (flow : Flow) (bd : Boundary) : Option Block :=
  match bd.redirect? with
  | some callee => some { Block.empty 0 .chainInvoke 0 with callee := some callee }
  | none =>
    bd.target.map fun t => Block.empty 0 (if flow.has .always then .chainHot else .chainNormal) t

def addCell (u : WorkUnit) (cell : Block) : WorkUnit :=
  { u with blocks := u.blocks.push { cell with id := u.nextBlock } }

/-- Resolve the successors of code block `id`. Code blocks are only searched forward; an edge to
none of them gets a chaining cell of its own. -/
def linkTraceBlock (u : WorkUnit) (id : BlockId) : Build :=
  match u.lastNode? id with
  | none => .fault u
  | some last =>
    let flow := last.insn.flow
    let bd := (classify u.method.linkage last.insn last.offset).getD ⟨none, false, none⟩
    let explicit := !flow.changesFlow
    let lo := (id + 1).toNat
    let inner := match bd.target with
      | some t => u.findBlock lo t
      | none => noBlock
    let after := u.findBlock lo last.fallThrough
    let (taken, u) :=
      if inner = noBlock then
        match takenCell flow bd with
        | some cell => (u.nextBlock, u.addCell cell)
        | none => (noBlock, u)
      else (inner, u)
    let (fall, u) :=
      if after = noBlock && !last.insn.isUnconditionalExit then
        let kind := if bd.isInvoke || explicit then .chainHot else .chainNormal
        (u.nextBlock, u.newBlock kind last.fallThrough)
      else (after, u)
    .ok (u.modifyBlock id fun b =>
      { b with taken, fallThrough := fall, explicitBranch := explicit })

/-- Resolve the successors of every code block. -/
def linkTrace (u : WorkUnit) : Build :=
  u.codeBlocks.foldlM linkTraceBlock u

/-- What has to hold before a trace is decoded: there are runs, the ceiling is positive and no
run is empty. -/
def traceRefusal? (u : WorkUnit) (ceiling : Int) : Option BuildError :=
  match u.trace with
  | none => some (.noRuns u.name)
  | some t =>
    if t.runs.isEmpty then some (.noRuns u.name)
    else if ceiling ≤ 0 then some .badCeiling
    else (t.runs.findIdx? (·.count = 0)).map fun i => .malformed (.emptyRun u.name i)

/-- Build the graph of the unit's trace from at most `ceiling` instructions. -/
def buildTrace (u : WorkUnit) (ceiling : Int) : Build :=
  match u.traceRefusal? ceiling with
  | some e => .fail u e
  | none => do
    let runs := (u.trace.map (·.runs)).getD []
    let u ← traceRuns ceiling 0 noBlock runs u
    let u ← u.linkTrace
    let u := (u.newBlock .pcReconstruction 0).newBlock .exceptionHandling 0
    return u.say .attempt "TRACEINFO" u.traceSummary

end TraceJit.WorkUnit
