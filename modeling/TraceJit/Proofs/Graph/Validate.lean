import Mathlib.Data.List.Chain
import TraceJit.Graph.Validate
import TraceJit.Proofs.Graph.MethodBlocks
import TraceJit.Proofs.Graph.TraceCode
import TraceJit.Proofs.Graph.TraceEdges

/-!
Finished graphs keep all rules. What a check reads off a unit is said in terms of its blocks and
their instructions; that these are as the check wants them is what building them ensures.
-/

namespace TraceJit

/-- Each instruction starts where the one before it ends. -/
def Contiguous (code : List Placed) : Prop := code.IsChain fun p q => p.next = q.offset

/-- A walk is contiguous even where its offsets wrap. -/
theorem Code.contiguous_walk (code : Code) (start n : Nat) : Contiguous (code.walk start n) := by
  rw [Contiguous, walk, List.isChain_map, List.isChain_iff_getElem]
  intro i hi
  rw [List.getElem_range, List.getElem_range, ← UInt32.toNat_inj, Placed.next, UInt32.toNat_add,
    walked_width]
  simp only [walked, placedAt, walkOffset, Nat.toUInt32, UInt32.toNat_ofNat', Nat.mod_add_mod]

namespace WorkUnit

section Reading

variable {u : WorkUnit} {views : List BlockView} {k : Nat}

theorem mem_numbered {x : BlockId × Block} :
    x ∈ u.numbered ↔ ∃ (k : Nat) (b : Block), u.blocks[k]? = some b ∧ x = ((k : BlockId), b) := by
  rw [numbered, List.mem_mapIdx]
  constructor
  · rintro ⟨k, hk, rfl⟩
    exact ⟨k, _, by rw [← Array.getElem?_toList, List.getElem?_eq_getElem hk], rfl⟩
  · rintro ⟨k, b, hBlock, rfl⟩
    rw [← Array.getElem?_toList] at hBlock
    obtain ⟨hk, rfl⟩ := List.getElem?_eq_some_iff.mp hBlock
    exact ⟨k, hk, rfl⟩

/-- The code blocks are the blocks of that kind. -/
theorem mem_codeBlocks {id : BlockId} :
    id ∈ u.codeBlocks ↔
      ∃ (k : Nat) (b : Block), u.blocks[k]? = some b ∧ b.kind = .code ∧ id = k := by
  change id ∈ u.numbered.filterMap _ ↔ _
  simp only [List.mem_filterMap, mem_numbered, Option.ite_none_right_eq_some, Option.some.injEq]
  constructor
  · rintro ⟨_, ⟨k, b, hBlock, rfl⟩, hCode, rfl⟩
    exact ⟨k, b, hBlock, hCode, rfl⟩
  · rintro ⟨k, b, hBlock, hCode, rfl⟩
    exact ⟨_, ⟨k, b, hBlock, rfl⟩, hCode, rfl⟩

theorem heldInsts_eq (u : WorkUnit) : u.heldInsts = u.compiled.length := by
  rw [heldInsts, compiled, ← List.map_flatMap, List.length_map]

theorem Represents.getLast?_instructionsOf (h : u.Represents views) {n : Node}
    (hLast : u.lastNode? (k : BlockId) = some n) :
    (u.instructionsOf k).getLast? = some n.placed ∧ n.fallThrough = n.placed.next := by
  have hBlock := hLast
  rw [lastNode?, block?_natCast, Option.bind_eq_some_iff] at hBlock
  obtain ⟨b, hBlock, hNode⟩ := hBlock
  obtain ⟨v, hv, rfl⟩ := h.exists_view hBlock
  rcases List.eq_nil_or_concat v.body with hEmpty | ⟨es, e, hBody⟩
  · rw [BlockView.block, hEmpty] at hNode
    cases hNode
  · rw [List.concat_eq_append] at hBody
    obtain rfl : n = _ := Option.some.inj (hLast.symm.trans (h.lastNode?_eq hv hBody))
    refine ⟨?_, rfl⟩
    rw [h.instructionsOf_eq, hv, Option.map_some, Option.getD_some, BlockView.code, hBody,
      List.map_append, List.map_singleton, List.getLast?_concat]
    rfl

end Reading

section Rules

variable {u : WorkUnit} {views : List BlockView} {k : Nat} {b : Block}

/-- Blocks are numbered as they should be if their edges lead to blocks. -/
theorem numberViolations_eq_nil (h : u.Represents views)
    (hRange : ∀ (k : Nat) b, u.blocks[k]? = some b →
      ∀ e ∈ [b.taken, b.fallThrough, b.next], u.inRange e = true) :
    u.numberViolations = [] := by
  rw [numberViolations, List.flatMap_eq_nil_iff]
  intro x hx
  obtain ⟨k, b, hBlock, rfl⟩ := mem_numbered.mp hx
  obtain ⟨v, _, hView⟩ := h.exists_view hBlock
  have hNumber : b.id = k := by rw [hView, BlockView.block]
  have hEdges := hRange k b hBlock
  simp only [List.forall_mem_cons] at hEdges
  simp [hNumber, hEdges]

/-- The list of a block is in order if its instructions follow each other. -/
theorem nodeViolations_nodes (i : Nat) (prev? : Option Node) (prev : NodeId) (es : List Entry)
    (after : NodeId) (hContiguous : Contiguous (es.map (·.placed)))
    (hPrev : ∀ p ∈ prev?, ∀ e ∈ es.head?, p.fallThrough = e.placed.offset) :
    nodeViolations i prev? ((Entry.nodes i prev es after).map (·.2)) = [] := by
  induction es generalizing prev? prev with
  | nil => rfl
  | cons e es ih =>
      have hRest : nodeViolations i (some (e.node i prev (Entry.headId es after)))
          ((Entry.nodes i e.number es after).map (·.2)) = [] := by
        cases es with
        | nil => rfl
        | cons e' es =>
            have hStep := List.isChain_cons_cons.mp hContiguous
            refine ih _ _ hStep.2 fun p hp x hx => ?_
            rw [← Option.mem_some.mp hp, ← Option.mem_some.mp hx]
            exact hStep.1
      rw [Entry.nodes, List.map_cons]
      cases prev? with
      | none =>
          rw [nodeViolations, hRest]
          simp [Entry.node]
      | some p =>
          have hFollows : p.fallThrough = e.placed.offset := hPrev p rfl e rfl
          rw [nodeViolations, hRest]
          simp [Entry.node, hFollows]

/-- A code block is in order if it begins where it says and its instructions follow each other. -/
theorem blockRunViolations_code (h : u.Represents views) (hBlock : u.blocks[k]? = some b)
    (hCode : b.kind = .code)
    (hStart : (u.instructionsOf k).head?.map (·.offset) = some b.start)
    (hContiguous : Contiguous (u.instructionsOf k))
    (hSmall : (u.instructionsOf k).length < 2 ^ 63) :
    u.blockRunViolations k b = [] := by
  obtain ⟨v, hv, rfl⟩ := h.exists_view hBlock
  have hPlaced : u.instructionsOf k = v.body.map (·.placed) := by
    rw [h.instructionsOf_eq, hv]
    rfl
  rw [hPlaced] at hStart hContiguous hSmall
  rw [List.length_map] at hSmall
  obtain ⟨e, rest, hBody⟩ : ∃ e rest, v.body = e :: rest := by
    cases hBody : v.body with
    | nil =>
        rw [hBody] at hStart
        cases hStart
    | cons e rest => exact ⟨e, rest, rfl⟩
  have hFirst : (v.block k).first ≠ noNode := by
    rw [BlockView.block, hBody]
    exact natCast_ne_noNode e.number
  have hNodes := h.nodesOf_eq hv
  have hLength : ((u.nodesOf (k : BlockId)).map (·.2)).length = v.body.length := by
    rw [hNodes, List.length_map, Entry.nodes_length]
  have hHead : ((u.nodesOf (k : BlockId)).map (·.2)).head?.map (·.offset) =
      some (v.block k).start := by
    rw [hNodes, hBody]
    rw [hBody] at hStart
    exact hStart
  have hOwned : nodeViolations (k : BlockId) none ((u.nodesOf (k : BlockId)).map (·.2)) = [] := by
    rw [hNodes]
    exact nodeViolations_nodes k none noNode v.body noNode hContiguous (by simp)
  rw [blockRunViolations, if_neg (by simpa using hCode), if_neg hFirst]
  obtain ⟨n, hn, hOffset⟩ := Option.map_eq_some_iff.mp hHead
  simp only [hn, hOffset, if_true, hOwned, hLength, BlockView.block, wrapCount_natCast hSmall,
    List.append_nil]

/-- Any other block is in order if it is empty. -/
theorem blockRunViolations_other (i : BlockId) (hOther : b.kind ≠ .code)
    (hEmpty : b.first = noNode) : u.blockRunViolations i b = [] := by
  rw [blockRunViolations, if_pos hOther, if_pos hEmpty]

/-- Lists that are in order one by one are in order as a whole. -/
theorem runViolations_eq_nil
    (hBlocks : ∀ (k : Nat) b, u.blocks[k]? = some b → u.blockRunViolations k b = [])
    (hCount : u.numInsts = u.compiled.length) : u.runViolations = [] := by
  have hAll : u.numbered.flatMap (fun x => u.blockRunViolations x.1 x.2) = [] := by
    rw [List.flatMap_eq_nil_iff]
    intro x hx
    obtain ⟨k, b, hBlock, rfl⟩ := mem_numbered.mp hx
    exact hBlocks k b hBlock
  rw [runViolations, u.heldInsts_eq, hCount, if_pos rfl, List.append_nil]
  exact hAll

/-- Edges are in order if the last instruction of each block has those that it needs. -/
theorem edgeViolations_eq_nil (h : u.Represents views)
    (hEdges : ∀ (k : Nat) b last, u.blocks[k]? = some b → b.kind = .code →
      (u.instructionsOf k).getLast? = some last →
      (b.taken = noBlock → u.method.linkage.target? last = none) ∧
      (b.fallThrough = noBlock → last.insn.isUnconditionalExit = true ∨
        u.trace = none ∧ last.next = u.code.size)) :
    u.edgeViolations = [] := by
  rw [edgeViolations, List.flatMap_eq_nil_iff]
  intro id hid
  obtain ⟨k, b, hBlock, hCode, rfl⟩ := mem_codeBlocks.mp hid
  rw [block?_natCast, hBlock]
  cases hLast : u.lastNode? (k : BlockId) with
  | none => rfl
  | some n =>
      obtain ⟨hPlaced, hNext⟩ := h.getLast?_instructionsOf hLast
      obtain ⟨hTaken, hFall⟩ := hEdges k b n.placed hBlock hCode hPlaced
      have hBranch : ((classify u.method.linkage n.insn n.offset).bind (·.target)).isSome = true →
          b.taken ≠ noBlock := by
        intro hSome hNone
        have hTarget : (classify u.method.linkage n.insn n.offset).bind (·.target) = none :=
          hTaken hNone
        rw [hTarget] at hSome
        cases hSome
      dsimp only
      rw [if_neg (by simpa using hBranch), if_neg, List.append_nil]
      simp only [Bool.and_eq_true, decide_eq_true_eq, Bool.not_eq_true', hNext]
      rintro ⟨⟨hGoes, hNone⟩, hInside⟩
      rcases hFall hNone with hExit | ⟨hMethod, hEnd⟩
      · exact Bool.false_ne_true (hGoes.symm.trans hExit)
      · simp [hMethod, hEnd] at hInside

theorem lateCode_eq_nil {seen : Bool} {l : List (BlockId × Block)}
    (hOther : ∀ x ∈ l, x.2.kind ≠ .code) : lateCode seen l = [] := by
  induction l generalizing seen with
  | nil => rfl
  | cons x l ih =>
      rw [lateCode, ih fun y hy => hOther y (List.mem_cons_of_mem _ hy), List.append_nil, if_neg]
      simp [hOther x (List.mem_cons_self ..)]

/-- Code blocks in front of all others are in their place. -/
theorem lateCode_append {front back : List (BlockId × Block)}
    (hFront : ∀ x ∈ front, x.2.kind = .code) (hBack : ∀ x ∈ back, x.2.kind ≠ .code) :
    lateCode false (front ++ back) = [] := by
  induction front with
  | nil => exact lateCode_eq_nil hBack
  | cons x front ih =>
      have hCode : x.2.kind = .code := hFront x (List.mem_cons_self ..)
      have hRest := ih fun y hy => hFront y (List.mem_cons_of_mem _ hy)
      rw [List.cons_append, lateCode, hCode]
      exact hRest

/-- A unit without violations is valid. -/
theorem invalid?_eq_none (hViolations : u.violations = []) : u.invalid? = none := by
  rw [invalid?, hViolations]

end Rules

/-! ### Traces -/

section Trace

variable {u v : WorkUnit} {runs : List Run} {c i : Nat} {pieces : List (Run × List Entry)}

theorem inRange_noBlock (u : WorkUnit) : u.inRange noBlock = true := by
  simp [inRange]

theorem inRange_natCast {j : Nat} (hj : j < u.blocks.size) : u.inRange (j : BlockId) = true := by
  simp [inRange, hj]

/-- An edge that goes forward leads to a block. -/
theorem LeadsForward.inRange {e : BlockId} (h : v.LeadsForward i e) : v.inRange e = true := by
  rcases h with rfl | ⟨j, rfl, _, hj⟩
  · exact v.inRange_noBlock
  · exact inRange_natCast hj

theorem first_of_mem_rest {l : Linkage} {views rest : List BlockView} {w : BlockView}
    (hw : w ∈ cellsFrom l views i rest ++ closingViews) (k : Nat) :
    (w.block k).first = noNode := by
  rw [BlockView.block, body_of_mem_rest hw]
  rfl

namespace TraceBuilt

/-- The lists of a finished trace are in order. -/
theorem runViolations (h : u.TraceBuilt v runs c pieces) (hFresh : u.Fresh)
    (hPlan : ∀ x ∈ Run.plan c runs, 0 < x.2) : v.runViolations = [] := by
  have hCode := h.isTraceCode hFresh hPlan
  apply runViolations_eq_nil
  · intro k b hBlock
    rcases h.block_cases hBlock with ⟨hk, hKind⟩ | ⟨_, w, hw, rfl⟩
    · obtain ⟨b', r, n, hBlock', _, hStart, _, hWalk, hPos, hCount, _⟩ := hCode.blocks k hk
      obtain rfl : b = b' := Option.some.inj (hBlock.symm.trans hBlock')
      have hBound := r.count.toNat_lt
      refine blockRunViolations_code h.views hBlock hKind ?_ ?_ ?_
      · obtain ⟨n, rfl⟩ := Nat.exists_eq_succ_of_ne_zero (Nat.ne_of_gt hPos)
        rw [hWalk, Code.walk_succ_start, hStart]
        simp [Code.walked, Code.walkOffset, Code.placedAt]
      · rw [hWalk]
        exact u.code.contiguous_walk r.start.toNat n
      · rw [hWalk, Code.length_walk]
        omega
    · exact blockRunViolations_other _ (kind_ne_of_mem_rest hw) (first_of_mem_rest hw k)
  · rw [hCode.numInsts, hCode.compiled, List.length_map, List.length_take]

/-- So are its edges. -/
theorem edgeViolations (h : u.TraceBuilt v runs c pieces) : v.edgeViolations = [] := by
  apply edgeViolations_eq_nil h.views
  intro k b last hBlock hKind hLast
  rcases h.block_cases hBlock with ⟨hk, _⟩ | ⟨_, w, hw, rfl⟩
  · obtain ⟨b', last', hBlock', hLast', hTaken, hFall⟩ := h.edges hk
    obtain rfl : b = b' := Option.some.inj (hBlock.symm.trans hBlock')
    obtain rfl : last = last' := Option.some.inj (hLast.symm.trans hLast')
    rw [h.decoded.method_eq]
    constructor
    · intro hNone
      rw [hNone] at hTaken
      generalize hEnd : noBlock = e at hTaken
      cases hTaken with
      | inside => exact absurd hEnd.symm (natCast_ne_noBlock _)
      | branch => exact absurd hEnd.symm (natCast_ne_noBlock _)
      | call hTarget => exact hTarget
      | nowhere hTarget => exact hTarget
    · intro hNone
      rw [hNone] at hFall
      generalize hEnd : noBlock = e at hFall
      cases hFall with
      | inside => exact absurd hEnd.symm (natCast_ne_noBlock _)
      | outside => exact absurd hEnd.symm (natCast_ne_noBlock _)
      | nowhere _ hExit => exact .inl hExit
  · exact absurd hKind (kind_ne_of_mem_rest hw)

/-- So is the order of its blocks. -/
theorem traceShapeViolations (h : u.TraceBuilt v runs c pieces) (hSome : pieces ≠ []) :
    v.traceShapeViolations = [] := by
  obtain ⟨cells, _, hKinds⟩ := h.kinds
  rw [← List.append_assoc] at hKinds
  generalize hFront : List.replicate pieces.length BlockKind.code ++ cells = front at hKinds
  have hPos : 0 < front.length := by
    have := List.length_pos_iff.mpr hSome
    rw [← hFront, List.length_append, List.length_replicate]
    omega
  have hSize : v.blocks.size = front.length + 2 := by
    simpa using congrArg List.length hKinds
  have hKindAt : ∀ i : Nat, (v.blocks[i]?).map (·.kind) =
      (front ++ [.pcReconstruction, .exceptionHandling])[i]? := by
    intro i
    rw [← hKinds, List.getElem?_map, Array.getElem?_toList]
  have hLate : lateCode false v.numbered = [] := by
    rw [numbered, h.views.toList_blocks, List.mapIdx_mapIdx, traceViews, List.mapIdx_append]
    apply lateCode_append
    · intro x hx
      obtain ⟨i, hi, rfl⟩ := List.mem_mapIdx.mp hx
      exact kind_of_mem_resolvedFrom (List.getElem_mem hi)
    · intro x hx
      obtain ⟨i, hi, rfl⟩ := List.mem_mapIdx.mp hx
      exact kind_ne_of_mem_rest (List.getElem_mem hi)
  have hEnough : ¬front.length + 2 < 3 := by omega
  simp only [WorkUnit.traceShapeViolations, hKindAt, hSize, hLate]
  simp [hEnough]

/-- Nothing is wrong with a finished trace. -/
theorem violations (h : u.TraceBuilt v runs c pieces) (hFresh : u.Fresh)
    (hPlan : ∀ x ∈ Run.plan c runs, 0 < x.2) (hSome : pieces ≠ []) (hTrace : u.trace.isSome) :
    v.violations = [] := by
  have hTraced : v.trace = u.trace := by
    change v.traced.trace = u.traced.trace
    rw [h.decoded.traced]
  have hNumbers : v.numberViolations = [] :=
    numberViolations_eq_nil h.views fun k b hBlock e he => (h.forward hBlock e he).inRange
  rw [WorkUnit.violations, hNumbers, h.runViolations hFresh hPlan, h.edgeViolations, hTraced,
    if_pos hTrace, h.traceShapeViolations hSome]
  rfl

end TraceBuilt

/-- A trace that is built keeps all rules. -/
theorem Fresh.valid_of_buildTrace {c : Int64} (hFresh : u.Fresh)
    (hBuild : u.buildTrace c.toInt = .ok v) : v.invalid? = none := by
  obtain ⟨t, hTrace, hRuns, hPos, hCounts⟩ := exists_trace_of_ok hBuild
  have hCeiling : 0 < c.toInt.toNat := Int.lt_toNat.mpr hPos
  rw [← natCast_toNat_toInt hPos] at hBuild
  obtain ⟨pieces, h⟩ := traceBuilt_of_ok hFresh hTrace hRuns hCounts hCeiling (toNat_toInt_lt c)
    hBuild
  have hSome : pieces ≠ [] := by
    rintro rfl
    obtain ⟨r, rest, hShape⟩ := List.exists_cons_of_ne_nil hRuns
    have hCarries := h.carries
    rw [hShape, Carries, Run.plan] at hCarries
    cases hCarries
  refine invalid?_eq_none (h.violations hFresh (fun x hx => ?_) hSome (hTrace ▸ rfl))
  exact Run.pos_of_mem_plan hCounts hCeiling hx

end Trace

/-! ### Methods -/

section Method

variable {u v : WorkUnit} {n i : Nat} {bodies : List (List Entry)}

/-- The unit `v` is `u` with the graph of its method, whose code holds `n` instructions. -/
structure MethodBuilt (u v : WorkUnit) (n : Nat) (bodies : List (List Entry)) : Prop where
  covers : u.ScanCovers n
  noStray : u.strayTargets n = ∅
  inside : ∀ k < n, u.method.linkage.target? (u.code.walked 0 k) ≠ some u.code.size
  cut : u.CutWalk n bodies
  views : v.Represents ((splitViews 0 bodies).map (linkView u.method.linkage bodies))
  setting : v.setting = u.scannedSetting n
  numInsts : v.numInsts = n

/-- What it means for a method to have been built. -/
theorem methodBuilt_of_ok (hFresh : u.Fresh) (hBuild : u.buildMethod = .ok v) :
    u.code.size ≠ 0 ∧ ∃ n bodies, u.MethodBuilt v n bodies := by
  have hSize : u.code.size ≠ 0 := by
    intro hZero
    rw [buildMethod, if_pos hZero] at hBuild
    cases hBuild
  refine ⟨hSize, ?_⟩
  have hVerdict := (stop?_eq_iff_methodVerdict hFresh hSize none).mp (by rw [hBuild]; rfl)
  cases hVerdict with
  | @finished n hCovers hStray hInside =>
      obtain ⟨w, bodies, hBuild', hCut, hViews, hSetting, hCount⟩ :=
        buildMethod_ok hFresh hSize hCovers hStray hInside
      obtain rfl : v = w := Except.ok.inj (hBuild.symm.trans hBuild')
      exact ⟨n, bodies, hCovers, hStray, hInside, hCut, hViews, hSetting, hCount⟩

namespace MethodBuilt

/-- A method has code blocks only. -/
theorem kind_code (h : u.MethodBuilt v n bodies) {b : Block} (hBlock : v.blocks[i]? = some b) :
    b.kind = .code ∧ b.next = noBlock := by
  rw [getElem?_methodBlocks h.views, Option.map_eq_some_iff] at hBlock
  obtain ⟨body, _, rfl⟩ := hBlock
  exact ⟨rfl, rfl⟩

theorem codeBlocks_eq (h : u.MethodBuilt v n bodies) :
    v.codeBlocks = (List.range v.blocks.size).map fun k : Nat => (k : BlockId) := by
  have hViews := h.views
  rw [← List.append_nil ((splitViews 0 bodies).map _)] at hViews
  rw [h.views.size_eq]
  refine hViews.codeBlocks_eq (fun w hw => ?_) (by simp)
  obtain ⟨k, hk⟩ := List.mem_iff_getElem?.mp hw
  rw [getElem?_linkView, Option.map_eq_some_iff] at hk
  obtain ⟨body, _, rfl⟩ := hk
  rfl

/-- A finished method holds the walk over its code. -/
theorem compiled_eq (h : u.MethodBuilt v n bodies) : v.compiled = u.code.walk 0 n := by
  rw [compiled, h.codeBlocks_eq, List.flatMap_map, ← h.cut.placed, ← instructionsOf_bodies h.views]
  rfl

/-- Each of its blocks holds a part of that walk. -/
theorem isInfix_walk (h : u.MethodBuilt v n bodies) (i : Nat) :
    v.instructionsOf i <:+: u.code.walk 0 n := by
  rw [instructionsOf_methodBlocks h.views]
  cases hBody : bodies[i]? with
  | none => exact List.nil_infix
  | some body =>
      rw [← h.cut.placed]
      exact (List.infix_of_mem_flatten (List.mem_of_getElem? hBody)).map _

/-- A method has no more instructions than code units. -/
theorem le_size (h : u.MethodBuilt v n bodies) : n ≤ u.code.units.size := by
  have hSteps := u.code.add_le_walkOffset h.covers.passes.fits
  have hEnds := h.covers.ends
  omega

theorem length_lt (h : u.MethodBuilt v n bodies) (i : Nat) :
    (v.instructionsOf i).length < 2 ^ 63 := by
  have hInfix := (h.isInfix_walk i).length_le
  rw [Code.length_walk] at hInfix
  have hAll := h.le_size
  have hSmall := u.code.units_size_lt
  omega

/-- The last instruction of the last block ends at the end of the code. -/
theorem next_of_last (h : u.MethodBuilt v n bodies) (hSize : u.code.size ≠ 0)
    (hi : ¬i + 1 < v.blocks.size) {last : Placed}
    (hLast : (v.instructionsOf i).getLast? = some last) : last.next = u.code.size := by
  rw [instructionsOf_methodBlocks h.views] at hLast
  rw [size_methodBlocks h.views] at hi
  cases hBody : bodies[i]? with
  | none =>
      rw [hBody] at hLast
      cases hLast
  | some body =>
      obtain ⟨hLess, rfl⟩ := List.getElem?_eq_some_iff.mp hBody
      have hAll : bodies = bodies.take i ++ [bodies[i]] := by
        rw [← List.take_succ_eq_append_getElem hLess, List.take_of_length_le (by omega)]
      rw [hBody, Option.map_some, Option.getD_some] at hLast
      have hWalk : (u.code.walk 0 n).getLast? = some last := by
        rw [← h.cut.placed, hAll, List.flatten_append, List.map_append, List.getLast?_append]
        simp [hLast]
      obtain ⟨m, rfl⟩ := Nat.exists_eq_succ_of_ne_zero (Nat.ne_of_gt (h.covers.pos hSize))
      rw [Code.walk_succ, List.getLast?_concat] at hWalk
      rw [← Option.some.inj hWalk, ← UInt32.toNat_inj,
        u.code.walked_next_toNat (h.covers.passes.fits m (Nat.lt_succ_self m)), Code.size_toNat]
      exact h.covers.ends

variable (h : u.MethodBuilt v n bodies) (hSize : u.code.size ≠ 0)

include h hSize

/-- Where the last instruction of a block leads to. -/
theorem edges {b : Block} (hBlock : v.blocks[i]? = some b) :
    ∃ last, (v.instructionsOf i).getLast? = some last ∧
      (v.instructionsOf i).head?.map (·.offset) = some b.start ∧
      v.TakenFollows u.method.linkage last b ∧
      b.fallThrough =
        if i + 1 < v.blocks.size ∧ ¬last.insn.isUnconditionalExit then ((i + 1 : Nat) : BlockId)
        else noBlock := by
  obtain ⟨front, last, hList, hRest⟩ :=
    h.cut.edges h.covers hSize h.noStray h.inside h.views hBlock
  exact ⟨last, by rw [hList, List.getLast?_concat], hRest⟩

/-- The blocks of a finished method have their own numbers. -/
theorem numberViolations : v.numberViolations = [] := by
  apply numberViolations_eq_nil h.views
  intro k b hBlock
  obtain ⟨last, _, _, hTaken, hFall⟩ := h.edges hSize hBlock
  have hNext := (h.kind_code hBlock).2
  simp only [List.forall_mem_cons]
  refine ⟨?_, ?_, hNext ▸ v.inRange_noBlock, by simp⟩
  · unfold TakenFollows at hTaken
    split at hTaken
    next => exact hTaken ▸ v.inRange_noBlock
    next =>
        obtain ⟨j, hStart, hEdge⟩ := hTaken
        have hj := (List.getElem?_eq_some_iff.mp hStart).1
        rw [blockStarts, List.length_map, Array.length_toList] at hj
        exact hEdge ▸ inRange_natCast hj
  · rw [hFall]
    split
    next hMore => exact inRange_natCast hMore.1
    next => exact v.inRange_noBlock

/-- The lists of a finished method are in order. -/
theorem runViolations : v.runViolations = [] := by
  apply runViolations_eq_nil
  · intro k b hBlock
    obtain ⟨_, _, hStart, _⟩ := h.edges hSize hBlock
    exact blockRunViolations_code h.views hBlock (h.kind_code hBlock).1 hStart
      ( List.IsChain.infix (u.code.contiguous_walk 0 n) (h.isInfix_walk k)) (h.length_lt k)
  · rw [h.numInsts, h.compiled_eq, Code.length_walk]

/-- So are its edges. -/
theorem edgeViolations (hTrace : u.trace = none) : v.edgeViolations = [] := by
  have hMethod := method_of_scannedSetting h.setting
  have hTrace' : v.trace = none := (congrArg WorkUnit.trace h.setting).trans hTrace
  have hCode : v.code = u.code := by
    change v.setting.code = _
    rw [h.setting]
    rfl
  apply edgeViolations_eq_nil h.views
  intro k b last hBlock _ hLast
  obtain ⟨last', hLast', _, hTaken, hFall⟩ := h.edges hSize hBlock
  obtain rfl : last = last' := Option.some.inj (hLast.symm.trans hLast')
  rw [hMethod, hCode]
  constructor
  · intro hNone
    unfold TakenFollows at hTaken
    split at hTaken
    next hTarget => exact hTarget
    next =>
        obtain ⟨j, _, hEdge⟩ := hTaken
        exact absurd (hEdge.symm.trans hNone) (natCast_ne_noBlock j)
  · intro hNone
    by_cases hExit : last.insn.isUnconditionalExit = true
    · exact .inl hExit
    · refine .inr ⟨hTrace', h.next_of_last hSize (fun hMore => ?_) hLast⟩
      rw [if_pos ⟨hMore, hExit⟩] at hFall
      exact natCast_ne_noBlock _ (hFall.symm.trans hNone)

/-- A finished method has neither cells nor closing blocks. -/
theorem methodShapeViolations : v.methodShapeViolations = [] := by
  have hStarts : v.starts = some (u.methodMarks (u.code.walk 0 n)) :=
    congrArg WorkUnit.starts h.setting
  have hExpected : (u.methodMarks (u.code.walk 0 n)).expectedBlocks = v.blocks.size := by
    rw [h.covers.expectedBlocks_eq (h.covers.pos hSize), h.noStray, Finset.card_empty,
      size_methodBlocks h.views, ← h.cut.starts, List.length_map, Nat.add_zero]
  have hKinds : v.numbered.flatMap (fun x => if x.2.kind = .code then ([] : List Violation)
      else [.foreignKind x.1 x.2.kind]) = [] := by
    rw [List.flatMap_eq_nil_iff]
    intro x hx
    obtain ⟨k, b, hBlock, rfl⟩ := mem_numbered.mp hx
    exact if_pos (h.kind_code hBlock).1
  rw [WorkUnit.methodShapeViolations, hStarts]
  simp only [hExpected, if_true, List.append_nil]
  exact hKinds

end MethodBuilt

/-- A method that is built keeps all rules. -/
theorem Fresh.valid_of_buildMethod (hFresh : u.Fresh) (hTrace : u.trace = none)
    (hBuild : u.buildMethod = .ok v) : v.invalid? = none := by
  obtain ⟨hSize, n, bodies, h⟩ := methodBuilt_of_ok hFresh hBuild
  have hTrace' : v.trace = none := (congrArg WorkUnit.trace h.setting).trans hTrace
  apply invalid?_eq_none
  rw [violations, h.numberViolations hSize, h.runViolations hSize, h.edgeViolations hSize hTrace,
    hTrace', if_neg (by simp), h.methodShapeViolations hSize]
  rfl

end Method

end WorkUnit

end TraceJit
