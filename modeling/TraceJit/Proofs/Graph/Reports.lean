import Mathlib.Tactic.SplitIfs
import TraceJit.Proofs.Events.Nesting
import TraceJit.Proofs.Graph.Verbosity

/-!
What is reported while a unit is built. Operations on blocks and nodes report nothing, and the
builders report instants in between; so a unit stays in its span, and no span begins or ends,
wherever the build stops.
-/

namespace TraceJit

namespace WorkUnit

/-- The unit was worked on in the same span, and instants only were reported of that. -/
structure Points (u v : WorkUnit) : Prop where
  span : v.span = u.span
  tracer : u.tracer.Points v.tracer

namespace Points

variable {u v w : WorkUnit}

theorem refl (u : WorkUnit) : u.Points u := ⟨rfl, .refl u.tracer⟩

theorem trans (hFirst : u.Points v) (hSecond : v.Points w) : u.Points w :=
  ⟨hSecond.span.trans hFirst.span, hFirst.tracer.trans hSecond.tracer⟩

/-- Work that reports nothing. -/
theorem of_eq (hSpan : v.span = u.span) (hTracer : v.tracer = u.tracer) : u.Points v :=
  ⟨hSpan, hTracer ▸ .refl u.tracer⟩

end Points

/-! ### Operations -/

section Operations

variable (u : WorkUnit)

theorem points_say (scope : Scope) (name detail : String) :
    u.Points (u.say scope name detail) := by
  refine ⟨rfl, ?_⟩
  unfold say
  cases u.print with
  | true => exact u.tracer.points_point ..
  | false => exact .refl u.tracer

theorem points_sayInsn (off : UInt32) (insn : Instruction) : u.Points (u.sayInsn off insn) :=
  u.points_say ..

theorem points_newBlock (kind : BlockKind) (start : UInt32) :
    u.Points (u.newBlock kind start) := .of_eq rfl rfl

theorem points_modifyBlock (id : BlockId) (f : Block → Block) :
    u.Points (u.modifyBlock id f) := by
  unfold modifyBlock
  split
  next => exact .of_eq rfl rfl
  next => exact .refl u

theorem points_modifyNode (id : NodeId) (f : Node → Node) : u.Points (u.modifyNode id f) := by
  unfold modifyNode
  split
  next => exact .of_eq rfl rfl
  next => exact .refl u

/-- Appending tells nothing. -/
theorem points_append (id : BlockId) (insn : Instruction) (off : UInt32) :
    u.Points (u.append id insn off) := by
  unfold append
  cases u.block? id with
  | none => exact .of_eq rfl rfl
  | some blk =>
      let node : Node :=
        { insn, offset := off, width := insn.width, block := id, prev := blk.last, next := noNode }
      have hPushed : u.Points { u with nodes := u.nodes.push node } := .of_eq rfl rfl
      have hLinked := (hPushed.trans (points_modifyNode _ blk.last fun n =>
        { n with next := u.nextNode })).trans (points_modifyBlock _ id fun blk =>
          { blk with
            first := if blk.last = noNode then u.nextNode else blk.first
            last := u.nextNode
            numInsts := wrapCount (blk.numInsts + 1) })
      dsimp only
      split
      next => exact hLinked.trans (.of_eq rfl rfl)
      next => exact hLinked

theorem points_foldl_modifyNode (moved : List (NodeId × Node)) (f : Node → Node) :
    u.Points (moved.foldl (fun u x => u.modifyNode x.1 f) u) := by
  induction moved generalizing u with
  | nil => exact .refl u
  | cons x moved ih => exact (u.points_modifyNode x.1 f).trans (ih _)

/-- Splitting tells nothing. -/
theorem points_split (id : BlockId) (cut : NodeId) : u.Points (u.split id cut) := by
  unfold split
  cases u.node? cut with
  | none => exact .refl u
  | some node =>
      dsimp only
      cases (u.newBlock .code node.offset).block? id with
      | none => exact .of_eq rfl rfl
      | some head =>
          refine (((((((u.points_newBlock .code node.offset).trans
            (points_modifyBlock _ _ _)).trans (points_modifyBlock _ _ _)).trans
            (points_modifyNode _ _ _)).trans (points_modifyNode _ _ _)).trans
            (points_foldl_modifyNode _ _ _)).trans (points_modifyBlock _ _ _)).trans
            (points_modifyBlock _ _ _)

end Operations

/-! ### Builders -/

/-- Two parts of a build that only tell points make one that does. -/
theorem Points.bind {u : WorkUnit} {b : Build} {f : WorkUnit → Build} (hFirst : u.Points b.unit)
    (hStep : ∀ v, Points v (f v).unit) : u.Points (Build.unit (b >>= f)) := by
  cases b with
  | ok v => exact hFirst.trans (hStep v)
  | error h => exact hFirst

/-- So do any number of them. -/
theorem Points.foldlM {α : Type} {f : WorkUnit → α → Build}
    (hStep : ∀ u x, Points u (f u x).unit) (l : List α) (u : WorkUnit) :
    u.Points (Build.unit (l.foldlM f u)) := by
  induction l generalizing u with
  | nil => exact .refl u
  | cons x l ih =>
      rw [List.foldlM_cons]
      exact (hStep u x).bind ih

section Builders

/-- A step of decoding a trace tells points at most, also where it stops. -/
theorem points_traceStep (u : WorkUnit) (run : Nat) (cur : BlockId) (off : UInt32) :
    match u.traceStep run cur off with
    | .error h => u.Points h.unit
    | .ok (v, _) => u.Points v := by
  unfold traceStep
  by_cases hPast : u.code.size ≤ off
  · rw [if_pos hPast]
    exact .refl u
  · rw [if_neg hPast]
    dsimp only
    cases u.code.advance off (u.code.instructionAt off).width with
    | error e => exact .refl u
    | ok next =>
        have hAdded := u.points_append cur (u.code.instructionAt off) off
        have hSaid := points_sayInsn (u.append cur (u.code.instructionAt off) off) off
          (u.code.instructionAt off)
        -- the size that is counted in between is not reported
        exact hAdded.trans ⟨rfl, hSaid.tracer⟩

theorem points_traceRun (ceiling : Int) (run : Nat) (cur : BlockId) (left : Nat) (u : WorkUnit)
    (off : UInt32) : u.Points (Build.unit (traceRun ceiling run cur left u off)) := by
  induction left generalizing u off with
  | zero => exact .refl u
  | succ left ih =>
      have hStep := u.points_traceStep run cur off
      rw [traceRun]
      cases hResult : u.traceStep run cur off with
      | error h =>
          rw [hResult] at hStep
          exact hStep
      | ok x =>
          rw [hResult] at hStep
          dsimp only
          split
          next => exact hStep
          next => exact hStep.trans (ih x.1 x.2)

/-- The decoding of all runs tells points, too. -/
theorem points_traceRuns (ceiling : Int) (run : Nat) (prior : BlockId) (runs : List Run)
    (u : WorkUnit) : u.Points (Build.unit (traceRuns ceiling run prior runs u)) := by
  induction runs generalizing run prior u with
  | nil => exact .refl u
  | cons r rest ih =>
      have hBlock := (u.points_newBlock .code r.start).trans
        (points_modifyBlock _ prior fun b => { b with next := u.nextBlock })
      have hRun := hBlock.trans (points_traceRun ceiling run u.nextBlock r.count.toNat _ r.start)
      rw [traceRuns]
      cases hResult : traceRun ceiling run u.nextBlock r.count.toNat
          ((u.newBlock .code r.start).modifyBlock prior fun b => { b with next := u.nextBlock })
          r.start with
      | error h =>
          rw [hResult] at hRun
          exact hRun
      | ok v =>
          rw [hResult] at hRun
          dsimp only
          split
          next => exact hRun
          next => exact Points.trans hRun (ih _ _ v)

theorem points_resolveTaken (u : WorkUnit) (l : Linkage) (p : Placed) (found : BlockId) :
    u.Points (u.resolveTaken l p found).2 := by
  unfold resolveTaken
  split
  next => cases takenCell p.insn.flow (l.boundaryOf p) <;> exact .of_eq rfl rfl
  next => exact .refl u

theorem points_fallTo (u : WorkUnit) (kind : BlockKind) (off : UInt32) (leaves : Bool)
    (found : BlockId) : u.Points (u.fallTo kind off leaves found).2 := by
  unfold fallTo
  split
  next => exact u.points_newBlock kind off
  next => exact .refl u

/-- Linking a block of a trace tells nothing but points. -/
theorem points_linkTraceBlock (u : WorkUnit) (id : BlockId) :
    u.Points (u.linkTraceBlock id).unit := by
  cases hLast : u.lastNode? id with
  | none =>
      rw [linkTraceBlock, hLast]
      exact .refl u
  | some last =>
      rw [linkTraceBlock_of_last hLast]
      exact ((u.points_resolveTaken _ _ _).trans (points_fallTo _ _ _ _ _)).trans
        (points_modifyBlock _ _ _)

/-- Building a trace reports instants only. -/
theorem points_buildTrace (u : WorkUnit) (ceiling : Int) :
    u.Points (u.buildTrace ceiling).unit := by
  unfold buildTrace
  cases u.traceRefusal? ceiling with
  | some e => exact .refl u
  | none =>
      refine (points_traceRuns ceiling 0 noBlock _ u).bind fun v => ?_
      refine (Points.foldlM points_linkTraceBlock v.codeBlocks v).bind fun w => ?_
      exact ((w.points_newBlock .pcReconstruction 0).trans
        (points_newBlock _ .exceptionHandling 0)).trans (points_say ..)

theorem points_scanSteps (whole : BlockId) (steps : List Placed) (starts : StartSet)
    (u : WorkUnit) : u.Points (scanSteps whole steps starts u).unit := by
  induction steps generalizing starts u with
  | nil => exact .of_eq rfl rfl
  | cons p rest ih =>
      have hStep := (u.points_append whole p.insn p.offset).trans
        (points_sayInsn _ p.offset p.insn)
      rw [scanSteps]
      dsimp only
      split
      next => exact hStep.trans (ih _ _)
      next bd hBoundary =>
          cases bd.target with
          | none => exact hStep.trans (ih _ _)
          | some t =>
              dsimp only
              split
              next => exact hStep.trans (ih _ _)
              next => exact hStep.trans (.of_eq rfl rfl)

/-- The walk over a method tells points. -/
theorem points_scan (u : WorkUnit) : u.Points u.scan.unit := by
  unfold scan
  refine Points.bind ((u.points_newBlock .code 0).trans (points_scanSteps ..)) fun v => ?_
  cases (u.code.sweep 0).stuck with
  | none => exact .of_eq rfl rfl
  | some x => exact .refl v

theorem points_splitFrom (starts : StartSet) (fuel : Nat) (id : BlockId) (u : WorkUnit) :
    u.Points (splitFrom starts fuel id u).unit := by
  induction fuel generalizing id u with
  | zero => exact .refl u
  | succ fuel ih =>
      rw [splitFrom]
      cases u.splitPoint? starts id with
      | none => exact .refl u
      | some x =>
          dsimp only
          split
          next => exact .refl u
          next =>
              have hSplit := u.points_split id x.1
              cases (u.split id x.1).lastNode? id with
              | none => exact hSplit
              | some last =>
                  dsimp only
                  split
                  next => exact hSplit.trans (ih _ _)
                  next => exact (hSplit.trans (points_modifyBlock _ _ _)).trans (ih _ _)

/-- Splitting at the marks tells points. -/
theorem points_splitAtMarks (u : WorkUnit) : u.Points u.splitAtMarks.unit := by
  unfold splitAtMarks
  refine (points_splitFrom _ _ 0 u).bind fun v => ?_
  split
  next => exact .refl v
  next => exact .refl v

/-- Linking a block of a method tells nothing but points. -/
theorem points_linkMethodBlock (u : WorkUnit) (id : Nat) :
    u.Points (u.linkMethodBlock id).unit := by
  unfold linkMethodBlock
  cases u.lastNode? id with
  | none => exact .refl u
  | some last =>
      dsimp only
      cases (classify u.method.linkage last.insn last.offset).bind (·.target) with
      | none => exact .refl u
      | some t =>
          dsimp only
          by_cases hNone : u.findBlock (if last.offset < t then id else 0) t = noBlock
          · rw [if_pos hNone]
            exact .refl u
          · rw [if_neg hNone]
            exact points_modifyBlock _ _ _

/-- Building a method reports instants only. -/
theorem points_buildMethod (u : WorkUnit) : u.Points u.buildMethod.unit := by
  unfold buildMethod
  split
  next => exact .refl u
  next =>
      refine u.points_scan.bind fun v => ?_
      refine v.points_splitAtMarks.bind fun w => ?_
      refine (Points.foldlM points_linkMethodBlock _ w).bind fun x => ?_
      exact points_say ..

end Builders

/-! ### Finished units -/

theorem points_dump (u : WorkUnit) : u.Points u.dump := points_say ..

/-- What is said of the end of a build is a point. -/
theorem points_sayEnd (u : WorkUnit) (tooLarge : Bool) : u.Points (u.sayEnd tooLarge) := by
  unfold sayEnd
  cases tooLarge with
  | true => exact (points_say ..).trans (points_say ..)
  | false => exact points_say ..

end WorkUnit

end TraceJit
