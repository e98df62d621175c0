import TraceJit.Proofs.Graph.MethodOutcome

/-!
The blocks of a method that was built: a partition of the walk over its code into basic blocks,
with the edges that follow from the last instruction of each.
-/

namespace TraceJit.WorkUnit

open Entry

/-- The start offsets of the blocks in the order of their creation. -/
def blockStarts (u : WorkUnit) : List UInt32 := u.blocks.toList.map (·.start)

/-- The branch edge of a block that ends with `last`: the block at the branch target. -/
def TakenFollows (v : WorkUnit) (l : Linkage) (last : Placed) (b : Block) : Prop :=
  match l.target? last with
  | none => b.taken = noBlock
  | some t => ∃ j : Nat, v.blockStarts[j]? = some t ∧ b.taken = j

/-- What makes `v` the graph of the method of `u`, whose code holds `n` instructions. -/
structure IsMethodGraph (u v : WorkUnit) (n : Nat) : Prop where
  /-- The walk takes `n` steps that fit and ends at the end of the code. -/
  covers : (∀ k < n, u.code.Fits (u.code.walkOffset 0 k)) ∧
    u.code.walkOffset 0 n = u.code.units.size
  code : ∀ b ∈ v.blocks, b.kind = .code
  ascending : v.blockStarts.Pairwise (· < ·)
  /-- Blocks start at offset zero, at branch targets, and behind boundaries. -/
  starts : ∀ off, off ∈ v.blockStarts ↔
    off = 0 ∨ (∃ p ∈ u.code.walk 0 n, u.method.linkage.target? p = some off) ∨
      ∃ p ∈ u.code.walk 0 n, u.method.linkage.EndsBlock p ∧ p.next = off ∧ off < u.code.size
  /-- The blocks hold the walk, each of its instructions once and in order. -/
  walk : (List.range v.blocks.size).flatMap v.instructionsOf = u.code.walk 0 n
  /-- Only the last instruction of a block can be a boundary. -/
  boundary : ∀ i front p back, v.instructionsOf i = front ++ p :: back →
    u.method.linkage.EndsBlock p → back = []
  /-- Branches lead to first instructions of blocks only. -/
  entered : ∀ i front p back, v.instructionsOf i = front ++ p :: back → front ≠ [] →
    ∀ q ∈ u.code.walk 0 n, u.method.linkage.target? q ≠ some p.offset
  /-- A block is not empty, starts at its first instruction, and has the edges of its last. -/
  edges : ∀ i b, v.blocks[i]? = some b → ∃ front last, v.instructionsOf i = front ++ [last] ∧
    (v.instructionsOf i).head?.map (·.offset) = some b.start ∧
    v.TakenFollows u.method.linkage last b ∧
    b.fallThrough =
      if i + 1 < v.blocks.size ∧ ¬last.insn.isUnconditionalExit then ((i + 1 : Nat) : BlockId)
      else noBlock
  numInsts : v.numInsts = n
  traceSize : v.traceSize = u.code.size

/-- A block of a finished method: a body with both its edges. -/
def methodView (l : Linkage) (bodies : List (List Entry)) (i : Nat) (body : List Entry) :
    BlockView :=
  linkView l bodies (bodyView body
    (if i + 1 < bodies.length then fallEdge body (i + 1 : Nat) else noBlock))

section Views

variable {u v : WorkUnit} {n : Nat} {bodies : List (List Entry)}

theorem getElem?_linkView (l : Linkage) (bodies : List (List Entry)) (i : Nat) :
    ((splitViews 0 bodies).map (linkView l bodies))[i]? =
      (bodies[i]?).map (methodView l bodies i) := by
  rw [List.getElem?_map, getElem?_splitViews, Option.map_map, Nat.zero_add]
  rfl

theorem getElem?_methodBlocks {l : Linkage}
    (h : v.Represents ((splitViews 0 bodies).map (linkView l bodies))) (i : Nat) :
    v.blocks[i]? = (bodies[i]?).map fun body => (methodView l bodies i body).block i := by
  rw [h.blocks, getElem?_linkView, Option.map_map]
  rfl

/-- A finished method has one block for each body. -/
theorem size_methodBlocks {l : Linkage}
    (h : v.Represents ((splitViews 0 bodies).map (linkView l bodies))) :
    v.blocks.size = bodies.length := by
  rw [h.size_eq, List.length_map, length_splitViews]

/-- The instructions of a block are those of its body. -/
theorem instructionsOf_methodBlocks {l : Linkage}
    (h : v.Represents ((splitViews 0 bodies).map (linkView l bodies))) (i : Nat) :
    v.instructionsOf i = ((bodies[i]?).map fun body => body.map (·.placed)).getD [] := by
  rw [h.instructionsOf_eq, getElem?_linkView, Option.map_map]
  rfl

theorem exists_body_of_instructionsOf {l : Linkage} {i : Nat} {p : Placed}
    {front back : List Placed}
    (h : v.Represents ((splitViews 0 bodies).map (linkView l bodies)))
    (hList : v.instructionsOf i = front ++ p :: back) :
    ∃ es e rest, es ++ e :: rest ∈ bodies ∧ es.map (·.placed) = front ∧ e.placed = p ∧
      rest.map (·.placed) = back := by
  rw [instructionsOf_methodBlocks h] at hList
  cases hBody : bodies[i]? with
  | none =>
      rw [hBody] at hList
      simp at hList
  | some body =>
      rw [hBody, Option.map_some, Option.getD_some, List.map_eq_append_iff] at hList
      obtain ⟨es, tail, rfl, hFront, hTail⟩ := hList
      obtain ⟨e, rest, rfl, hPlaced, hBack⟩ := List.map_eq_cons_iff.mp hTail
      exact ⟨es, e, rest, List.mem_of_getElem? hBody, hFront, hPlaced, hBack⟩

/-- Blocks begin at their first instructions. -/
theorem blockStarts_eq {l : Linkage}
    (h : v.Represents ((splitViews 0 bodies).map (linkView l bodies))) :
    v.blockStarts = bodies.map firstOffset := by
  apply List.ext_getElem?
  intro i
  rw [blockStarts, List.getElem?_map, Array.getElem?_toList, getElem?_methodBlocks h,
    Option.map_map, List.getElem?_map]
  rfl

/-- The blocks of a finished method hold its instructions in their order. -/
theorem instructionsOf_bodies {l : Linkage}
    (h : v.Represents ((splitViews 0 bodies).map (linkView l bodies))) :
    (List.range v.blocks.size).flatMap v.instructionsOf = bodies.flatten.map (·.placed) := by
  have hBare := h
  rw [← List.append_nil ((splitViews 0 bodies).map _)] at hBare
  have hBodies := congrArg (List.map (List.map (·.placed))) (map_body_splitViews 0 bodies)
  rw [h.size_eq, hBare.flatMap_instructionsOf, List.flatMap_map, List.map_flatten, ← hBodies,
    List.map_map, List.flatMap_def]
  rfl

/-- Where every branch leads to an instruction, the leaders are the offsets that start a block. -/
theorem ScanCovers.mem_leaderOffsets_iff (h : u.ScanCovers n) (hSize : u.code.size ≠ 0)
    (hStray : u.strayTargets n = ∅)
    (hInside : ∀ k < n, u.method.linkage.target? (u.code.walked 0 k) ≠ some u.code.size)
    {off : UInt32} :
    off ∈ u.leaderOffsets n ↔
      off = 0 ∨ (∃ p ∈ u.code.walk 0 n, u.method.linkage.target? p = some off) ∨
        ∃ p ∈ u.code.walk 0 n, u.method.linkage.EndsBlock p ∧ p.next = off ∧ off < u.code.size := by
  have hErase : off ∈ (u.methodMarks (u.code.walk 0 n)).toFinset.erase u.code.size ↔ _ :=
    h.mem_marks_erase (h.pos hSize)
  simp only [hStray, Finset.notMem_empty, or_false] at hErase
  rw [← hErase, Finset.mem_erase, h.passes.mem_methodMarks, mem_branchTargets]
  constructor
  · rintro ⟨hNotEnd, rfl | ⟨p, hp, hEnds, rfl⟩ | hTarget⟩
    · exact .inl rfl
    · refine .inr (.inr ⟨p, hp, hEnds, rfl, ?_⟩)
      have hLe := h.passes.marks_le p.next (List.mem_flatMap.mpr
        ⟨p, hp, Linkage.mem_marks.mpr (.inl ⟨hEnds, rfl⟩)⟩)
      exact UInt32.lt_of_le_of_ne hLe hNotEnd
    · exact .inr (.inl hTarget)
  · rintro (rfl | ⟨p, hp, hTarget⟩ | ⟨p, hp, hEnds, rfl, hBelow⟩)
    · exact ⟨Ne.symm hSize, .inl rfl⟩
    · obtain ⟨k, hk, rfl⟩ := Code.mem_walk.mp hp
      exact ⟨fun hEnd => hInside k hk (hEnd ▸ hTarget), .inr (.inr ⟨_, hp, hTarget⟩)⟩
    · exact ⟨UInt32.ne_of_lt hBelow, .inr (.inl ⟨p, hp, hEnds, rfl⟩)⟩

end Views

section Graph

variable {u v : WorkUnit} {n : Nat} {bodies : List (List Entry)}

/-- The edges of a block follow from its last instruction. -/
theorem CutWalk.edges (hCut : u.CutWalk n bodies) (hCovers : u.ScanCovers n)
    (hSize : u.code.size ≠ 0) (hStray : u.strayTargets n = ∅)
    (hInside : ∀ k < n, u.method.linkage.target? (u.code.walked 0 k) ≠ some u.code.size)
    (h : v.Represents ((splitViews 0 bodies).map (linkView u.method.linkage bodies)))
    {i : Nat} {b : Block} (hBlock : v.blocks[i]? = some b) :
    ∃ front last, v.instructionsOf i = front ++ [last] ∧
      (v.instructionsOf i).head?.map (·.offset) = some b.start ∧
      v.TakenFollows u.method.linkage last b ∧
      b.fallThrough =
        if i + 1 < v.blocks.size ∧ ¬last.insn.isUnconditionalExit then ((i + 1 : Nat) : BlockId)
        else noBlock := by
  rw [getElem?_methodBlocks h, Option.map_eq_some_iff] at hBlock
  obtain ⟨body, hBody, rfl⟩ := hBlock
  have hMem : body ∈ bodies := List.mem_of_getElem? hBody
  have hFull : body ≠ [] := fun hNil => hCut.full (hNil ▸ hMem)
  have hList : v.instructionsOf i = body.map (·.placed) := by
    rw [instructionsOf_methodBlocks h, hBody]
    rfl
  have hHead : (body.map (·.placed)).head?.map (·.offset) = some (firstOffset body) := by
    cases body with
    | nil => exact absurd rfl hFull
    | cons e rest => rfl
  obtain ⟨es, e, hConcat⟩ := (List.eq_nil_or_concat body).resolve_left hFull
  rw [List.concat_eq_append] at hConcat
  refine ⟨es.map (·.placed), e.placed, ?_, hList ▸ hHead, ?_, ?_⟩
  · rw [hList, hConcat, List.map_append, List.map_singleton]
  · have hTaken : (methodView u.method.linkage bodies i body).taken =
        takenEdge u.method.linkage bodies (es ++ [e]) := by
      rw [← hConcat]
      rfl
    rw [takenEdge, lastTarget?_concat] at hTaken
    rw [TakenFollows]
    cases hTarget : u.method.linkage.target? e.placed with
    | none =>
        rw [hTarget] at hTaken
        exact hTaken
    | some t =>
        rw [hTarget] at hTaken
        have hWalk := hCut.placed_mem hMem (e := e) (by simp [hConcat])
        obtain ⟨k, hk, hEq⟩ := Code.mem_walk.mp hWalk
        have hLeader : t ∈ bodies.map firstOffset := by
          rw [hCut.starts]
          refine (hCovers.target_eq_size_or_mem (hCovers.pos hSize) hStray
            (mem_branchTargets.mpr ⟨_, hWalk, hTarget⟩)).resolve_left fun hEnd => ?_
          exact hInside k hk (hEq ▸ hEnd ▸ hTarget)
        obtain ⟨j, hj, hStart⟩ := exists_startingAt hLeader
        exact ⟨j, by rw [blockStarts_eq h, hj], hTaken.trans hStart⟩
  · have hFall : (methodView u.method.linkage bodies i body).fallThrough =
        if i + 1 < bodies.length then fallEdge (es ++ [e]) (i + 1 : Nat) else noBlock := by
      rw [← hConcat]
      rfl
    rw [fallEdge_concat] at hFall
    rw [size_methodBlocks h]
    refine hFall.trans ?_
    by_cases hNext : i + 1 < bodies.length
    · by_cases hExit : e.placed.insn.isUnconditionalExit
      · simp [hNext, hExit]
      · simp [hNext, hExit]
    · simp [hNext]

end Graph

/-- Basic blocks of a method. Where the build of a fresh unit succeeds, it gives the graph of the
method: the walk over its code, cut into blocks at offset zero, at branch targets and behind
boundaries, with the edges that follow from the last instruction of each block. -/
theorem buildMethod_blocks {u v : WorkUnit} (hFresh : u.Fresh) (hBuild : u.buildMethod = .ok v) :
    ∃ n, u.IsMethodGraph v n := by
  have hSize : u.code.size ≠ 0 := by
    intro hZero
    rw [buildMethod, if_pos hZero] at hBuild
    cases hBuild
  have hVerdict := (stop?_eq_iff_methodVerdict hFresh hSize none).mp (by rw [hBuild]; rfl)
  cases hVerdict with
  | @finished n hCovers hStray hInside =>
      obtain ⟨w, bodies, hBuild', hCut, h, hSetting, hCount⟩ :=
        buildMethod_ok hFresh hSize hCovers hStray hInside
      obtain rfl : v = w := Except.ok.inj (hBuild.symm.trans hBuild')
      have hStarts : v.blockStarts = u.leaderOffsets n := (blockStarts_eq h).trans hCut.starts
      refine ⟨n, ⟨hCovers.passes.fits, hCovers.ends⟩, ?_, ?_, ?_, ?_, ?_, ?_, ?_, hCount, ?_⟩
      · intro b hb
        obtain ⟨i, hi⟩ := Array.mem_iff_getElem?.mp hb
        rw [getElem?_methodBlocks h, Option.map_eq_some_iff] at hi
        obtain ⟨body, _, rfl⟩ := hi
        rfl
      · rw [hStarts]
        exact hCovers.passes.pairwise_leaderOffsets
      · intro off
        rw [hStarts]
        exact hCovers.mem_leaderOffsets_iff hSize hStray hInside
      · rw [instructionsOf_bodies h, hCut.placed]
      · intro i front p back hList hEnds
        obtain ⟨es, e, rest, hPiece, _, rfl, rfl⟩ := exists_body_of_instructionsOf h hList
        rw [hCut.eq_nil_of_endsBlock hCovers.passes hPiece hEnds, List.map_nil]
      · intro i front p back hList hFront q hq hTarget
        obtain ⟨es, e, rest, hPiece, rfl, rfl, _⟩ := exists_body_of_instructionsOf h hList
        refine hCut.unmarked _ hPiece e ?_ (hCovers.passes.mem_methodMarks.mpr
          (.inr (.inr (mem_branchTargets.mpr ⟨q, hq, hTarget⟩))))
        cases es with
        | nil => exact absurd rfl hFront
        | cons x es => simp
      · intro i b hBlock
        exact hCut.edges hCovers hSize hStray hInside h hBlock
      · change v.setting.traceSize = _
        rw [hSetting]
        rfl

/-- A method with a loop. -/
theorem buildMethod_blocks_loop :
    ∃ v, (loose loopCode none).buildMethod = .ok v ∧
      ∃ n, (loose loopCode none).IsMethodGraph v n := by
  have hFresh := fresh_loose loopCode none
  have hSize : (loose loopCode none).code.size ≠ 0 := by decide
  obtain ⟨v, hBuild⟩ := Build.stop?_eq_none_iff.mp
    ((stop?_eq_iff_methodVerdict hFresh hSize none).mpr
      ((methodVerdict_none_iff hSize).mpr wellFormed_loop))
  exact ⟨v, hBuild, buildMethod_blocks hFresh hBuild⟩

end TraceJit.WorkUnit
