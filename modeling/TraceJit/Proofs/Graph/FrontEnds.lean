import TraceJit.Proofs.Graph.SideExits
import TraceJit.Proofs.Graph.Validate

/-!
Methods and traces are decoded by different loops, and the blocks of a method are cut out of one
long block afterwards. Both see the same instructions: the whole method as one run gives the
instructions of all its blocks, and a single block as one run gives the instructions of this block,
with a cell where the method falls into its next block.
-/

namespace TraceJit

namespace Code

variable (code : Code)

theorem walkOffset_add (start a b : Nat) :
    code.walkOffset start (a + b) = code.walkOffset (code.walkOffset start a) b := by
  induction b with
  | zero => rfl
  | succ b ih => rw [← Nat.add_assoc, walkOffset, ih, walkOffset]

/-- A walk is one over its first steps and one from there. -/
theorem walk_add (start a b : Nat) :
    code.walk start (a + b) = code.walk start a ++ code.walk (code.walkOffset start a) b := by
  have hLater : code.walked start ∘ (a + ·) = code.walked (code.walkOffset start a) := by
    funext k
    simp [walked, walkOffset_add]
  rw [walk, List.range_add, List.map_append, List.map_map, hLater, walk, walk]

/-- The widths of a walk add up to the distance it goes. -/
theorem sum_width_walk (start n : Nat) :
    start.toUInt32 + ((code.walk start n).map (·.insn.width)).sum =
      (code.walkOffset start n).toUInt32 := by
  induction n with
  | zero => simp [walk, walkOffset]
  | succ n ih =>
      have hWidth : (code.walked start n).insn.width =
          (code.widthAt (code.walkOffset start n)).toUInt32 := by
        simp [walked, widthAt, placedAt]
      rw [walk_succ, List.map_append, List.sum_append, ← UInt32.add_assoc, ih, List.map_singleton,
        List.sum_singleton, hWidth, walkOffset]
      simp [Nat.toUInt32]

end Code

namespace WorkUnit

/-- Control falls from block `i` into a chaining cell for `off`. -/
def FallsToCell (x : WorkUnit) (i : Nat) (off : UInt32) : Prop :=
  ∃ (b : Block) (j : Nat) (cell : Block), x.blocks[i]? = some b ∧ b.fallThrough = (j : BlockId) ∧
    x.blocks[j]? = some cell ∧ cell.kind.isCell = true ∧ cell.start = off

/-! ### Traces of one run -/

/-- The unit `w` is a fresh one for a trace of a single run through the method of `u`. -/
structure RunUnit (u w : WorkUnit) (start count : UInt32) : Prop where
  fresh : w.Fresh
  method : w.method = u.method
  code : w.code = u.code
  trace : ∃ t ends, w.trace = some t ∧ t.runs = [⟨start, count, ends⟩]

/-- The only code block of `x` holds `n` instructions from `start` on. -/
structure RunGraph (u x : WorkUnit) (start n : Nat) : Prop where
  codeBlocks : x.codeBlocks = [0]
  code : x.instructionsOf 0 = u.code.walk start n
  numInsts : x.numInsts = n
  traceSize : start.toUInt32 + x.traceSize = (u.code.walkOffset start n).toUInt32
  fall : ∀ last, (x.instructionsOf 0).getLast? = some last →
    last.insn.isUnconditionalExit = false → x.FallsToCell 0 last.next

/-- The way on from a trace with a single block leads to a cell. -/
theorem TraceBuilt.fallsToCell {u v : WorkUnit} {runs : List Run} {c : Nat}
    {pieces : List (Run × List Entry)} (h : u.TraceBuilt v runs c pieces)
    (hOne : pieces.length = 1) {last : Placed} (hLast : (v.instructionsOf 0).getLast? = some last)
    (hExit : last.insn.isUnconditionalExit = false) : v.FallsToCell 0 last.next := by
  obtain ⟨b, last', hBlock, hLast', _, hFall⟩ := h.edges (i := 0) (by omega)
  obtain rfl : last = last' := Option.some.inj (hLast.symm.trans hLast')
  generalize hEdge : b.fallThrough = e at hFall
  cases hFall with
  | @inside j hFirst =>
      -- There is no second code block to fall into.
      obtain ⟨hBehind, ⟨cell, hAt, hKind, _⟩, _⟩ := hFirst
      rcases h.block_cases hAt with ⟨hRun, _⟩ | ⟨_, w, hw, rfl⟩
      · omega
      · exact absurd hKind (kind_ne_of_mem_rest hw)
  | @outside j _ _ hCell =>
      obtain ⟨cell, hAt, hKind, hStart, _⟩ := hCell
      refine ⟨b, j, cell, hBlock, hEdge, hAt, ?_, hStart⟩
      rw [hKind]
      split <;> rfl
  | nowhere _ hLeaves => cases hExit.symm.trans hLeaves

/-- A run whose instructions fit is built under every ceiling that lets it through. -/
theorem RunUnit.buildTrace_ok {u w : WorkUnit} {start count : UInt32} {c : Int64}
    (h : u.RunUnit w start count) (hCount : count ≠ 0) (hCeiling : (count.toNat : Int) ≤ c.toInt)
    (hFits : ∀ k < count.toNat, u.code.Fits (u.code.walkOffset start.toNat k)) :
    ∃ x, w.buildTrace c.toInt = .ok x ∧ u.RunGraph x start.toNat count.toNat := by
  obtain ⟨t, ends, hTrace, hRuns⟩ := h.trace
  have hSome : 0 < count.toNat := UInt32.pos_iff_ne_zero.mpr hCount
  have hPos : 0 < c.toInt := by omega
  have hLess : count.toNat ≤ c.toInt.toNat := by omega
  have hPlan : Run.plan c.toInt.toNat t.runs = [(⟨start, count, ends⟩, count.toNat)] := by
    rw [hRuns, Run.plan, Nat.min_eq_left hLess]
    simp [Run.plan]
  have hOffsets : ∀ off ∈ (w.code.traceOffsets t.runs).take c.toInt.toNat, w.code.Fits off := by
    rw [← Run.planOffsets_eq, hPlan, h.code]
    simpa [Code.planOffsets] using hFits
  have hCounts : ∀ r ∈ t.runs, r.count ≠ 0 := by simpa [hRuns] using hCount
  obtain ⟨x, pieces, hBuild, hBuilt⟩ := WorkUnit.buildTrace_ok h.fresh hTrace (by simp [hRuns])
    hCounts (Int.lt_toNat.mpr hPos) (toNat_toInt_lt c) hOffsets
  rw [natCast_toNat_toInt hPos] at hBuild
  have hOne : pieces.length = 1 := by
    have hLength := congrArg List.length hBuilt.carries
    rwa [hPlan, List.length_map, List.length_map, List.length_singleton] at hLength
  have hTraceCode := hBuilt.isTraceCode h.fresh fun y hy =>
    Run.pos_of_mem_plan hCounts (Int.lt_toNat.mpr hPos) hy
  have hCode : x.instructionsOf 0 = u.code.walk start.toNat count.toNat := by
    rw [(hBuilt.instructionsOf_eq (i := 0) (by rw [hPlan]; rfl)).2, h.code]
  have hCodeBlocks : x.codeBlocks = [0] := by
    rw [hTraceCode.codeBlocks, hOne]
    rfl
  have hCompiled : x.compiled = u.code.walk start.toNat count.toNat := by
    rw [compiled, hCodeBlocks, List.flatMap_singleton, ← hCode]
    rfl
  refine ⟨x, hBuild, hCodeBlocks, hCode, ?_, ?_, fun last => hBuilt.fallsToCell hOne⟩
  · have hLength := congrArg List.length (hTraceCode.compiled.symm.trans hCompiled)
    rw [List.length_map, List.length_take, Code.length_walk] at hLength
    rw [hTraceCode.numInsts, hLength]
  · rw [hTraceCode.traceSize, hCompiled]
    exact u.code.sum_width_walk start.toNat count.toNat

/-! ### Blocks of a method -/

def stepsBefore (bodies : List (List Entry)) (i : Nat) : Nat := (bodies.take i).flatten.length

section Method

variable {u v : WorkUnit} {n i : Nat} {bodies : List (List Entry)} {body : List Entry}

theorem stepsBefore_succ (hBody : bodies[i]? = some body) :
    stepsBefore bodies (i + 1) = stepsBefore bodies i + body.length := by
  obtain ⟨hi, rfl⟩ := List.getElem?_eq_some_iff.mp hBody
  rw [stepsBefore, List.take_succ_eq_append_getElem hi, List.flatten_append, List.length_append,
    List.flatten_singleton, stepsBefore]

/-- A body holds the part of the walk that begins behind the bodies before it. -/
theorem CutWalk.body_eq (h : u.CutWalk n bodies) (hBody : bodies[i]? = some body) :
    stepsBefore bodies i + body.length ≤ n ∧
      body.map (·.placed) =
        u.code.walk (u.code.walkOffset 0 (stepsBefore bodies i)) body.length := by
  obtain ⟨hi, rfl⟩ := List.getElem?_eq_some_iff.mp hBody
  have hAll : bodies.flatten =
      (bodies.take i).flatten ++ (bodies[i] ++ (bodies.drop (i + 1)).flatten) := by
    rw [← List.flatten_cons, ← List.drop_eq_getElem_cons hi, ← List.flatten_append,
      List.take_append_drop]
  have hPlaced := h.placed
  have hLength := congrArg List.length hPlaced
  rw [hAll, List.length_map, List.length_append, List.length_append, Code.length_walk] at hLength
  rw [hAll, ← hLength, Code.walk_add, Code.walk_add, List.map_append, List.map_append] at hPlaced
  obtain ⟨_, hRest⟩ := List.append_inj hPlaced (by rw [List.length_map, Code.length_walk])
  refine ⟨?_, (List.append_inj hRest (by rw [List.length_map, Code.length_walk])).1⟩
  rw [stepsBefore]
  omega

/-- A block starts at the offset where the walk is by then. -/
theorem MethodBuilt.start_toNat (h : u.MethodBuilt v n bodies) {b : Block}
    (hBlock : v.blocks[i]? = some b) :
    b.start.toNat = u.code.walkOffset 0 (stepsBefore bodies i) := by
  rw [getElem?_methodBlocks h.views, Option.map_eq_some_iff] at hBlock
  obtain ⟨body, hBody, rfl⟩ := hBlock
  obtain ⟨hLess, hCode⟩ := h.cut.body_eq hBody
  cases body with
  | nil => exact absurd (List.mem_of_getElem? hBody) h.cut.full
  | cons e rest =>
      rw [List.length_cons, Code.walk_succ_start, List.map_cons, List.cons.injEq] at hCode
      change e.placed.offset.toNat = _
      rw [hCode.1, u.code.walked_offset_toNat]
      · rfl
      · rw [List.length_cons] at hLess
        exact h.covers.passes.fits _ (by omega)

/-- A method has fewer instructions than a word can count. -/
theorem MethodBuilt.size_lt (h : u.MethodBuilt v n bodies) : n < 4294967296 :=
  Nat.lt_of_le_of_lt h.le_size u.code.units_size_lt

/-- A finished method has the size of its code. -/
theorem MethodBuilt.traceSize_eq (h : u.MethodBuilt v n bodies) : v.traceSize = u.code.size := by
  change v.setting.traceSize = _
  rw [h.setting]
  rfl

/-- A block holds the part of the walk that begins at its start. -/
theorem MethodBuilt.exists_walk (h : u.MethodBuilt v n bodies) {b : Block}
    (hBlock : v.blocks[i]? = some b) :
    ∃ len, 0 < len ∧ stepsBefore bodies i + len ≤ n ∧ b.numInsts = len ∧
      v.instructionsOf i = u.code.walk b.start.toNat len ∧
      stepsBefore bodies (i + 1) = stepsBefore bodies i + len := by
  have hStart := h.start_toNat hBlock
  rw [getElem?_methodBlocks h.views, Option.map_eq_some_iff] at hBlock
  obtain ⟨body, hBody, rfl⟩ := hBlock
  obtain ⟨hLess, hCode⟩ := h.cut.body_eq hBody
  have hFull : body ≠ [] := fun hNil => h.cut.full (hNil ▸ List.mem_of_getElem? hBody)
  have hShort : body.length < 2 ^ 63 := by
    have hSmall := h.size_lt
    omega
  have hNum : ((methodView u.method.linkage bodies i body).block i).numInsts = body.length := by
    simp only [BlockView.block, methodView, linkView, bodyView, wrapCount_natCast hShort]
  refine ⟨body.length, List.length_pos_iff.mpr hFull, hLess, hNum, ?_, stepsBefore_succ hBody⟩
  rw [instructionsOf_methodBlocks h.views, hBody, Option.map_some, Option.getD_some, hCode, hStart]

end Method

/-- The last instruction of a block ends where the next block starts. -/
theorem MethodBuilt.next_eq_start {u v : WorkUnit} {n i : Nat} {bodies : List (List Entry)}
    (h : u.MethodBuilt v n bodies) {b next : Block} {last : Placed}
    (hBlock : v.blocks[i]? = some b) (hNext : v.blocks[i + 1]? = some next)
    (hLast : (v.instructionsOf i).getLast? = some last) : last.next = next.start := by
  obtain ⟨len, hPos, hLess, _, hCode, hSteps⟩ := h.exists_walk hBlock
  obtain ⟨m, rfl⟩ := Nat.exists_eq_succ_of_ne_zero (Nat.ne_of_gt hPos)
  rw [hCode, Code.walk_succ, List.getLast?_concat] at hLast
  have hFits : u.code.Fits (u.code.walkOffset b.start.toNat m) := by
    rw [h.start_toNat hBlock, ← Code.walkOffset_add]
    exact h.covers.passes.fits _ (by omega)
  rw [← Option.some.inj hLast, ← UInt32.toNat_inj, u.code.walked_next_toNat hFits,
    h.start_toNat hBlock, ← Code.walkOffset_add, h.start_toNat hNext, hSteps]

/-- Both front ends see the same instructions. Where the build of a method succeeds, the method as
a single run is built under every ceiling that lets it through, and its only code block holds the
instructions of all blocks of the method; so does every single block, which falls into a cell for
the next block of the method if control falls out of it. -/
theorem buildTrace_of_buildMethod {u v : WorkUnit} (hFresh : u.Fresh)
    (hBuild : u.buildMethod = .ok v) :
    (∀ (w : WorkUnit) (c : Int64), u.RunUnit w 0 v.numInsts.toNat.toUInt32 →
      v.numInsts ≤ c.toInt →
      ∃ x, w.buildTrace c.toInt = .ok x ∧ x.codeBlocks = [0] ∧
        x.instructionsOf 0 = (List.range v.blocks.size).flatMap v.instructionsOf ∧
        x.numInsts = v.numInsts ∧ x.traceSize = v.traceSize) ∧
    ∀ (i : Nat) (b : Block) (w : WorkUnit) (c : Int64), v.blocks[i]? = some b →
      u.RunUnit w b.start b.numInsts.toNat.toUInt32 → b.numInsts ≤ c.toInt →
      ∃ x, w.buildTrace c.toInt = .ok x ∧ x.codeBlocks = [0] ∧
        x.instructionsOf 0 = v.instructionsOf i ∧ x.numInsts = b.numInsts ∧
        (b.fallThrough ≠ noBlock → ∃ next, b.fallThrough = (i + 1 : Nat) ∧
          v.blocks[i + 1]? = some next ∧ x.FallsToCell 0 next.start) := by
  obtain ⟨hSize, n, bodies, h⟩ := methodBuilt_of_ok hFresh hBuild
  have hCount {k : Nat} (hk : k ≤ n) : k.toUInt32.toNat = k := by
    have hSmall := h.size_lt
    rw [Nat.toUInt32, UInt32.toNat_ofNat']
    exact Nat.mod_eq_of_lt (by omega)
  have hSome {k : Nat} (hPos : 0 < k) (hk : k ≤ n) : k.toUInt32 ≠ 0 := by
    rw [← UInt32.pos_iff_ne_zero, UInt32.lt_iff_toNat_lt, hCount hk]
    exact hPos
  constructor
  · intro w c hRun hCeiling
    rw [h.numInsts, Int.toNat_natCast] at hRun
    rw [h.numInsts] at hCeiling
    have hFits : ∀ k < n.toUInt32.toNat,
        u.code.Fits (u.code.walkOffset (0 : UInt32).toNat k) := by
      rw [hCount (Nat.le_refl n)]
      exact h.covers.passes.fits
    obtain ⟨x, hBuild', hGraph⟩ := hRun.buildTrace_ok (hSome (h.covers.pos hSize) (Nat.le_refl n))
      (by rwa [hCount (Nat.le_refl n)]) hFits
    rw [hCount (Nat.le_refl n)] at hGraph
    refine ⟨x, hBuild', hGraph.codeBlocks, ?_, ?_, ?_⟩
    · rw [hGraph.code, instructionsOf_bodies h.views, h.cut.placed]
      rfl
    · rw [hGraph.numInsts, h.numInsts]
    · rw [h.traceSize_eq, Code.size, ← h.covers.ends]
      simpa using hGraph.traceSize
  · intro i b w c hBlock hRun hCeiling
    obtain ⟨len, hPos, hLess, hNum, hCode, hNext⟩ := h.exists_walk hBlock
    have hLen : len ≤ n := by omega
    have hStart := h.start_toNat hBlock
    rw [hNum, Int.toNat_natCast] at hRun
    rw [hNum] at hCeiling
    have hFits : ∀ k < len.toUInt32.toNat, u.code.Fits (u.code.walkOffset b.start.toNat k) := by
      intro k hk
      rw [hCount hLen] at hk
      rw [hStart, ← Code.walkOffset_add]
      exact h.covers.passes.fits _ (by omega)
    obtain ⟨x, hBuild', hGraph⟩ := hRun.buildTrace_ok (hSome hPos hLen)
      (by rwa [hCount hLen]) hFits
    rw [hCount hLen] at hGraph
    have hSame := hGraph.code.trans hCode.symm
    refine ⟨x, hBuild', hGraph.codeBlocks, hSame, hGraph.numInsts.trans hNum.symm, ?_⟩
    intro hFalls
    obtain ⟨last, hLast, _, _, hFall⟩ := h.edges hSize hBlock
    by_cases hMore : i + 1 < v.blocks.size ∧ ¬last.insn.isUnconditionalExit
    · rw [if_pos hMore] at hFall
      have hAt := Array.getElem?_eq_getElem hMore.1
      refine ⟨_, hFall, hAt, ?_⟩
      rw [← h.next_eq_start hBlock hAt hLast]
      exact hGraph.fall last (hSame ▸ hLast) (by simpa using hMore.2)
    · rw [if_neg hMore] at hFall
      exact absurd hFall hFalls

/-- The conditional branch, the instruction it skips and the return are three blocks. As one run
they are one block, and the run of the branch alone falls into a cell for the second. -/
theorem buildTrace_of_buildMethod_skip :
    ∃ v x y, (loose skipCode none).buildMethod = .ok v ∧ v.blocks.size = 3 ∧
      (loose skipCode (some skipTrace)).buildTrace 100 = .ok x ∧
      x.instructionsOf 0 = (List.range 3).flatMap v.instructionsOf ∧
      (loose skipCode (some { skipTrace with runs := [⟨0, 1, true⟩] })).buildTrace 1 = .ok y ∧
      y.instructionsOf 0 = v.instructionsOf 0 ∧ y.FallsToCell 0 2 := by
  have hAll : (loose skipCode none).buildMethod.stop? = none ∧
      (loose skipCode none).buildMethod.unit.numInsts = 3 ∧
      (loose skipCode none).buildMethod.unit.blocks.toList.map
        (fun b => (b.start, b.numInsts, b.fallThrough)) = [(0, 1, 1), (2, 1, 2), (3, 1, -1)] := by
    decide +kernel
  obtain ⟨hStop, hNum, hBlocks⟩ := hAll
  obtain ⟨v, hBuild⟩ := Build.stop?_eq_none_iff.mp hStop
  rw [hBuild] at hNum hBlocks
  change v.numInsts = 3 at hNum
  change v.blocks.toList.map _ = _ at hBlocks
  have hSize : v.blocks.size = 3 := by simpa using congrArg List.length hBlocks
  obtain ⟨hWhole, hEach⟩ := buildTrace_of_buildMethod (fresh_loose skipCode none) hBuild
  rw [hNum, hSize] at hWhole
  obtain ⟨x, hx, _, hxCode, _⟩ := hWhole (loose skipCode (some skipTrace)) 100
    ⟨fresh_loose .., rfl, rfl, _, _, rfl, rfl⟩ (by decide)
  obtain ⟨b, rest, hShape, hFirst, hRest⟩ := List.map_eq_cons_iff.mp hBlocks
  obtain ⟨next, more, rfl, hSecond, _⟩ := List.map_eq_cons_iff.mp hRest
  simp only [Prod.mk.injEq] at hFirst hSecond
  obtain ⟨hStart, hLen, hFall⟩ := hFirst
  have hAt (i : Nat) : v.blocks[i]? = (b :: next :: more)[i]? := by
    rw [← Array.getElem?_toList, hShape]
  obtain ⟨y, hy, _, hyCode, _, hyFall⟩ := hEach 0 b
    (loose skipCode (some { skipTrace with runs := [⟨0, 1, true⟩] })) 1 (hAt 0)
    ⟨fresh_loose .., rfl, rfl, _, _, rfl, by rw [hStart, hLen]; rfl⟩ (by rw [hLen]; decide)
  obtain ⟨next', _, hNext, hCell⟩ := hyFall (by rw [hFall]; decide)
  obtain rfl : next = next' := Option.some.inj ((hAt 1).symm.trans hNext)
  rw [hSecond.1] at hCell
  exact ⟨v, x, y, hBuild, hSize, hx, hxCode, hy, hyCode, hCell⟩

end WorkUnit

end TraceJit
