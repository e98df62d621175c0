import Mathlib.Tactic.SplitIfs
import TraceJit.Codegen.Backend
import TraceJit.Graph.Validate
import TraceJit.Graph.Workspace
import TraceJit.Proofs.Graph.TraceLink

/-!
What a unit reports makes no difference to what is built from it. Every operation on units commutes
with silencing them; so do the builders, which only combine them and report along the way, and what
is read off a finished unit does not depend on its reports at all.
-/

namespace TraceJit

def WorkUnit.quiet (u : WorkUnit) : WorkUnit := { u with print := false, tracer := .nop, span := 0 }

/-- A build whose unit is silenced, finished or not. -/
def Build.quiet : Build → Build
  | .ok u => .ok u.quiet
  | .error h => .error ⟨h.stop, h.unit.quiet⟩

namespace Build

@[simp] theorem quiet_ok (u : WorkUnit) : Build.quiet (.ok u) = .ok u.quiet := rfl

/-- Steps that commute with silencing do so one after the other. -/
theorem quiet_bind (x : Build) {f : WorkUnit → Build}
    (hStep : ∀ u, f u.quiet = (f u).quiet) :
    (x.quiet >>= f) = Build.quiet (x >>= f) := by
  cases x with
  | ok u => exact hStep u
  | error h => rfl

/-- A loop is quiet if its steps are. -/
theorem quiet_foldlM {α : Type} {f : WorkUnit → α → Build}
    (hStep : ∀ u x, f u.quiet x = (f u x).quiet) (l : List α) (u : WorkUnit) :
    l.foldlM f u.quiet = Build.quiet (l.foldlM f u) := by
  induction l generalizing u with
  | nil => rfl
  | cons x l ih =>
      rw [List.foldlM_cons, List.foldlM_cons, hStep]
      exact quiet_bind (f u x) ih

end Build

namespace WorkUnit

section Operations

variable (u : WorkUnit)

@[simp] theorem block?_quiet (id : BlockId) : u.quiet.block? id = u.block? id := rfl

@[simp] theorem node?_quiet (id : NodeId) : u.quiet.node? id = u.node? id := rfl

@[simp] theorem lastNode?_quiet (id : BlockId) :
    u.quiet.lastNode? id = u.lastNode? id := rfl

@[simp] theorem nextBlock_quiet : u.quiet.nextBlock = u.nextBlock := rfl

@[simp] theorem findBlock_quiet (lo : Nat) (off : UInt32) :
    u.quiet.findBlock lo off = u.findBlock lo off := rfl

@[simp] theorem code_quiet : u.quiet.code = u.code := rfl

@[simp] theorem method_quiet : u.quiet.method = u.method := rfl

@[simp] theorem numInsts_quiet : u.quiet.numInsts = u.numInsts := rfl

/-- Silence takes back what a unit reported. -/
theorem quiet_say (scope : Scope) (name detail : String) :
    (u.say scope name detail).quiet = u.quiet := rfl

@[simp] theorem sayInsn_quiet (off : UInt32) (insn : Instruction) :
    u.quiet.sayInsn off insn = (u.sayInsn off insn).quiet := rfl

@[simp] theorem newBlock_quiet (kind : BlockKind) (start : UInt32) :
    u.quiet.newBlock kind start = (u.newBlock kind start).quiet := rfl

@[simp] theorem modifyBlock_quiet (id : BlockId) (f : Block → Block) :
    u.quiet.modifyBlock id f = (u.modifyBlock id f).quiet := by
  unfold modifyBlock
  split <;> rfl

@[simp] theorem modifyNode_quiet (id : NodeId) (f : Node → Node) :
    u.quiet.modifyNode id f = (u.modifyNode id f).quiet := by
  unfold modifyNode
  split <;> rfl

@[simp] theorem append_quiet (id : BlockId) (insn : Instruction) (off : UInt32) :
    u.quiet.append id insn off = (u.append id insn off).quiet := by
  unfold append
  rw [block?_quiet]
  cases u.block? id with
  | none => rfl
  | some blk =>
      unfold modifyNode modifyBlock
      dsimp only
      split_ifs <;> rfl

theorem chainFrom_quiet (fuel : Nat) (id : NodeId) :
    u.quiet.chainFrom fuel id = u.chainFrom fuel id := by
  induction fuel generalizing id with
  | zero => rfl
  | succ fuel ih => simp only [chainFrom, node?_quiet, ih]

@[simp] theorem chain_quiet (id : NodeId) : u.quiet.chain id = u.chain id :=
  chainFrom_quiet u _ id

@[simp] theorem nodesOf_quiet (id : BlockId) : u.quiet.nodesOf id = u.nodesOf id := by
  simp only [nodesOf, block?_quiet, chain_quiet]

theorem foldl_modifyNode_quiet (moved : List (NodeId × Node)) (f : Node → Node) :
    moved.foldl (fun u x => u.modifyNode x.1 f) u.quiet =
      (moved.foldl (fun u x => u.modifyNode x.1 f) u).quiet := by
  induction moved generalizing u with
  | nil => rfl
  | cons x moved ih => rw [List.foldl_cons, modifyNode_quiet, ih, List.foldl_cons]

/-- Splitting does not look at reports. -/
@[simp] theorem split_quiet (id : BlockId) (cut : NodeId) :
    u.quiet.split id cut = (u.split id cut).quiet := by
  unfold split
  rw [node?_quiet]
  cases u.node? cut with
  | none => rfl
  | some node =>
      simp only [newBlock_quiet, block?_quiet, nextBlock_quiet]
      cases (u.newBlock .code node.offset).block? id with
      | none => rfl
      | some head =>
          simp only [modifyBlock_quiet, modifyNode_quiet, chain_quiet,
            foldl_modifyNode_quiet]

end Operations

/-! ### Builders -/

section Builders

/-- Nor does a step of decoding, whether it stops or not. -/
theorem traceStep_quiet (u : WorkUnit) (run : Nat) (cur : BlockId) (off : UInt32) :
    u.quiet.traceStep run cur off =
      match u.traceStep run cur off with
      | .error h => .error ⟨h.stop, h.unit.quiet⟩
      | .ok (w, next) => .ok (w.quiet, next) := by
  simp only [traceStep, code_quiet, append_quiet]
  split
  next => rfl
  next =>
      cases hAdvance : u.code.advance off (u.code.instructionAt off).width with
      | error e => rfl
      | ok next => rfl

theorem traceRun_quiet (ceiling : Int) (run : Nat) (cur : BlockId) (left : Nat)
    (u : WorkUnit) (off : UInt32) :
    traceRun ceiling run cur left u.quiet off =
      Build.quiet (traceRun ceiling run cur left u off) := by
  induction left generalizing u off with
  | zero => rfl
  | succ left ih =>
      rw [traceRun, traceRun, traceStep_quiet]
      cases u.traceStep run cur off with
      | error h => rfl
      | ok x =>
          dsimp only
          rw [ih, numInsts_quiet, apply_ite Build.quiet, Build.quiet_ok]

theorem traceRuns_quiet (ceiling : Int) (run : Nat) (prior : BlockId) (runs : List Run)
    (u : WorkUnit) :
    traceRuns ceiling run prior runs u.quiet =
      Build.quiet (traceRuns ceiling run prior runs u) := by
  induction runs generalizing u run prior with
  | nil => rfl
  | cons r rest ih =>
      simp only [traceRuns, newBlock_quiet, nextBlock_quiet, modifyBlock_quiet,
        traceRun_quiet]
      cases traceRun ceiling run u.nextBlock r.count.toNat
        ((u.newBlock .code r.start).modifyBlock prior fun b => { b with next := u.nextBlock })
        r.start with
      | error h => rfl
      | ok w =>
          simp only [Build.quiet_ok, ih, numInsts_quiet]
          rw [apply_ite Build.quiet]
          rfl

theorem resolveTaken_quiet (u : WorkUnit) (l : Linkage) (p : Placed) (found : BlockId) :
    u.quiet.resolveTaken l p found =
      ((u.resolveTaken l p found).1, (u.resolveTaken l p found).2.quiet) := by
  unfold resolveTaken
  split
  next => cases takenCell p.insn.flow (l.boundaryOf p) <;> rfl
  next => rfl

/-- The edge along which control falls out of a block, and the unit with the cell it needs. -/
def fallTo (u : WorkUnit) (kind : BlockKind) (off : UInt32) (leaves : Bool) (found : BlockId) :
    BlockId × WorkUnit :=
  if found = noBlock && !leaves then (u.nextBlock, u.newBlock kind off) else (found, u)

theorem fallTo_quiet (u : WorkUnit) (kind : BlockKind) (off : UInt32) (leaves : Bool)
    (found : BlockId) :
    u.quiet.fallTo kind off leaves found =
      ((u.fallTo kind off leaves found).1, (u.fallTo kind off leaves found).2.quiet) := by
  unfold fallTo
  split <;> rfl

theorem linkTraceBlock_of_last {u : WorkUnit} {id : BlockId} {n : Node}
    (hLast : u.lastNode? id = some n) :
    u.linkTraceBlock id =
      (let bd := u.method.linkage.boundaryOf n.placed
      let taken := u.resolveTaken u.method.linkage n.placed
        (blockAt (u.findBlock (id + 1).toNat) bd.target)
      let fall := taken.2.fallTo
        (if bd.isInvoke || !n.insn.flow.changesFlow then .chainHot else .chainNormal)
        n.fallThrough n.insn.isUnconditionalExit (u.findBlock (id + 1).toNat n.fallThrough)
      .ok (fall.2.modifyBlock id fun b =>
        { b with
          taken := taken.1, fallThrough := fall.1
          explicitBranch := !n.insn.flow.changesFlow })) := by
  rw [linkTraceBlock, hLast]
  rfl

/-- Linking a block of a trace does not look at reports, whether it stops or not. -/
theorem linkTraceBlock_quiet (u : WorkUnit) (id : BlockId) :
    u.quiet.linkTraceBlock id = (u.linkTraceBlock id).quiet := by
  cases hLast : u.lastNode? id with
  | none =>
      rw [linkTraceBlock, linkTraceBlock, lastNode?_quiet, hLast]
      rfl
  | some last =>
      rw [linkTraceBlock_of_last hLast, linkTraceBlock_of_last (u := u.quiet) hLast]
      simp only [method_quiet, resolveTaken_quiet, fallTo_quiet, modifyBlock_quiet,
        Build.quiet_ok]
      rfl

theorem linkTrace_quiet (u : WorkUnit) :
    u.quiet.linkTrace = u.linkTrace.quiet :=
  Build.quiet_foldlM (linkTraceBlock_quiet) u.codeBlocks u

/-- The build of a trace is the same without reports. -/
theorem buildTrace_quiet (u : WorkUnit) (ceiling : Int) :
    u.quiet.buildTrace ceiling = (u.buildTrace ceiling).quiet := by
  have hRefusal : u.quiet.traceRefusal? ceiling = u.traceRefusal? ceiling := rfl
  rw [buildTrace, buildTrace, hRefusal]
  cases u.traceRefusal? ceiling with
  | some e => rfl
  | none =>
      dsimp only
      rw [show u.quiet.trace = u.trace from rfl, traceRuns_quiet]
      apply Build.quiet_bind
      intro w
      rw [linkTrace_quiet]
      apply Build.quiet_bind
      intro x
      rfl

theorem scanSteps_quiet (whole : BlockId) (steps : List Placed) (starts : StartSet)
    (u : WorkUnit) :
    scanSteps whole steps starts u.quiet =
      Build.quiet (scanSteps whole steps starts u) := by
  induction steps generalizing starts u with
  | nil => rfl
  | cons p rest ih =>
      simp only [scanSteps, append_quiet, sayInsn_quiet, method_quiet, ih]
      cases classify ((u.append whole p.insn p.offset).sayInsn p.offset p.insn).method.linkage
        p.insn p.offset with
      | none => rfl
      | some bd =>
          dsimp only
          cases bd.target with
          | none => rfl
          | some t =>
              dsimp only
              rw [apply_ite Build.quiet]
              rfl

theorem scan_quiet (u : WorkUnit) : u.quiet.scan = u.scan.quiet := by
  unfold scan
  dsimp only
  rw [nextBlock_quiet, newBlock_quiet, code_quiet, scanSteps_quiet]
  apply Build.quiet_bind
  intro w
  cases (u.code.sweep 0).stuck with
  | none => rfl
  | some x => rfl

theorem splitPoint?_quiet (u : WorkUnit) (starts : StartSet) (id : BlockId) :
    u.quiet.splitPoint? starts id = u.splitPoint? starts id := by
  rw [splitPoint?, nodesOf_quiet, splitPoint?]

/-- Splitting at the marks is the same without reports. -/
theorem splitFrom_quiet (starts : StartSet) (fuel : Nat) (id : BlockId) (u : WorkUnit) :
    splitFrom starts fuel id u.quiet = Build.quiet (splitFrom starts fuel id u) := by
  induction fuel generalizing id u with
  | zero => rfl
  | succ fuel ih =>
      rw [splitFrom, splitFrom, splitPoint?_quiet]
      cases u.splitPoint? starts id with
      | none => rfl
      | some x =>
          simp only [findBlock_quiet, nextBlock_quiet, split_quiet,
            lastNode?_quiet, modifyBlock_quiet]
          split
          next => rfl
          next =>
              cases (u.split id x.1).lastNode? id with
              | none => rfl
              | some last =>
                  dsimp only
                  rw [← apply_ite quiet, ih]

theorem splitAtMarks_quiet (u : WorkUnit) :
    u.quiet.splitAtMarks = u.splitAtMarks.quiet := by
  unfold splitAtMarks
  dsimp only
  rw [show u.quiet.starts = u.starts from rfl, code_quiet, splitFrom_quiet]
  apply Build.quiet_bind
  intro w
  rw [apply_ite Build.quiet]
  rfl

theorem linkMethodBlock_quiet (u : WorkUnit) (id : Nat) :
    u.quiet.linkMethodBlock id = (u.linkMethodBlock id).quiet := by
  simp only [linkMethodBlock, lastNode?_quiet, method_quiet, findBlock_quiet,
    modifyBlock_quiet]
  cases u.lastNode? id with
  | none => rfl
  | some last =>
      dsimp only
      cases (classify u.method.linkage last.insn last.offset).bind (·.target) with
      | none => rfl
      | some t =>
          dsimp only
          rw [apply_ite Build.quiet]
          rfl

theorem linkMethod_quiet (u : WorkUnit) : u.quiet.linkMethod = u.linkMethod.quiet :=
  Build.quiet_foldlM linkMethodBlock_quiet _ u

/-- The build of a method is the same without reports. -/
theorem buildMethod_quiet (u : WorkUnit) :
    u.quiet.buildMethod = u.buildMethod.quiet := by
  unfold buildMethod
  rw [code_quiet, scan_quiet, apply_ite Build.quiet]
  congr 1
  apply Build.quiet_bind
  intro w
  rw [splitAtMarks_quiet]
  apply Build.quiet_bind
  intro x
  rw [linkMethod_quiet]
  apply Build.quiet_bind
  intro y
  rfl

end Builders

/-! ### Finished units -/

section Finished

variable (u : WorkUnit)

/-- Reports do not make a unit invalid. -/
theorem invalid?_quiet : u.quiet.invalid? = u.invalid? := by
  have hRuns : u.quiet.runViolations = u.runViolations := by
    simp only [runViolations, blockRunViolations, heldInsts, funext (nodesOf_quiet u)]
    rfl
  unfold invalid? violations
  rw [hRuns]
  rfl

/-- Reports are not lowered. -/
theorem lower_quiet : u.quiet.lower = u.lower := by
  have hBlock (p : Lowered) (id : BlockId) (blk : Block) :
      p.addBlock u.quiet id blk = p.addBlock u id blk := by
    simp only [Lowered.addBlock, nodesOf_quiet]
    rfl
  unfold lower
  simp only [hBlock]
  rfl

/-- A listing reports the graph and leaves it as it is. -/
theorem invalid?_dump : u.dump.invalid? = u.invalid? := by
  rw [← invalid?_quiet, dump, quiet_say, invalid?_quiet]

theorem lower_dump : u.dump.lower = u.lower := by
  rw [← lower_quiet, dump, quiet_say, lower_quiet]

end Finished

end WorkUnit

/-- The backend replies to a unit as it does to one that reports nothing, but for its own
reports. -/
def Backend.IgnoresReports {σ : Type} (backend : Backend σ) : Prop :=
  ∀ state canceled u,
    (backend state canceled u).result = (backend state canceled u.quiet).result ∧
      (backend state canceled u).state = (backend state canceled u.quiet).state

/-- The assembler does not look at reports. -/
theorem Assembler.ignoresReports_compile : Backend.IgnoresReports Assembler.compile := by
  intro a canceled u
  unfold Assembler.compile
  rw [WorkUnit.lower_quiet]
  cases canceled with
  | true => exact ⟨rfl, rfl⟩
  | false =>
      cases u.lower with
      | error e => exact ⟨rfl, rfl⟩
      | ok p =>
          cases hAssemble : a.assemble p with
          | error e => simp [hAssemble]
          | ok r => simp [hAssemble]

end TraceJit
