import TraceJit.Proofs.Codegen.Assembler
import TraceJit.Proofs.Codegen.TraceSize
import TraceJit.Proofs.Graph.Accepted
import TraceJit.Proofs.Graph.SideExits

/-!
The cost model of lowering, in closed form. Whatever a build accepts is lowered. Its words are paid
for one by one: by instruction, by jump, by cell and, for a trace, by stub; and the jumps stand at
places that follow from the instructions and jumps before them.
-/

namespace TraceJit

/-- The price of an instruction in words. Inline data takes one for every two code units, and one
for an odd unit at its end. -/
def Placed.cost (singleStep : Bool) (p : Placed) : Nat :=
  if singleStep then 8
  else if p.insn.isPayload then (p.insn.width.toNat + 1) / 2
  else if p.insn.flow.has .call then 6
  else if p.insn.flow.any (.branch ||| .switch) then 2
  else 3

/-- The price is exact for widths that do not wrap when they are rounded up. -/
theorem Placed.words_eq_cost (singleStep : Bool) {p : Placed} (hPos : 0 < p.insn.width.toNat)
    (hShort : p.insn.width.toNat < 2 ^ 32 - 1) : p.words singleStep = p.cost singleStep := by
  have hWidth : (p.insn.width + 1).toNat = p.insn.width.toNat + 1 := by
    rw [UInt32.toNat_add]
    exact Nat.mod_eq_of_lt (by change p.insn.width.toNat + 1 < _; omega)
  have hCost : Lowered.cost singleStep ((⟨0, p⟩ : Entry).node 0 noNode noNode) =
      p.cost singleStep := by
    rw [Lowered.cost, Placed.cost, ← hWidth]
    rfl
  have hOne : 1 ≤ p.cost singleStep := by
    unfold Placed.cost
    repeat' split
    all_goals omega
  rw [Placed.words, hCost, Nat.max_eq_right hOne]

/-- A word has its tag in the upper byte. -/
theorem Lowered.toNat_tagged (tag : UInt8) (arg : UInt32) :
    (tagged tag arg).toNat = tag.toNat * 2 ^ 24 + arg.toNat % 2 ^ 24 := by
  have hTag : (tag.toUInt32 <<< 24).toNat = 2 ^ 24 * tag.toNat := by
    have hSmall := tag.toNat_lt
    rw [UInt32.toNat_shiftLeft, UInt8.toNat_toUInt32, Nat.shiftLeft_eq]
    change tag.toNat * 2 ^ 24 % 2 ^ 32 = _
    omega
  have hArg : (arg &&& 0xffffff).toNat = arg.toNat % 2 ^ 24 := by
    rw [UInt32.toNat_and]
    exact Nat.and_two_pow_sub_one_eq_mod arg.toNat 24
  rw [tagged, UInt32.toNat_or, hTag, hArg,
    ← Nat.two_pow_add_eq_or_of_lt (Nat.mod_lt _ (by decide)), Nat.mul_comm]

/-- A cell is listed for the block: with its kind and offset, and with its callee if it calls. -/
def Block.ListedAs (b : Block) (c : Cell) : Prop :=
  c.kind = b.kind ∧ c.offset = b.start ∧
    match b.callee with
    | some m => b.kind = .chainInvoke ∧ c.callee = m.ref ∧ c.target = m.addr
    | none => b.kind ≠ .chainInvoke ∧ c.callee = "" ∧ c.target = 0

namespace WorkUnit

/-- Where the jump out of code block `i` stands: behind the instructions up to its own last one and
the jumps of the blocks before. -/
def jumpAt (v : WorkUnit) (i : Nat) : Nat :=
  (((List.range (i + 1)).flatMap v.instructionsOf).map (·.cost v.singleStep)).sum +
    (v.blocks.toList.take i).countP (·.explicitBranch)

/-- What makes `p` the program of a unit, which was built from a trace or from a method. -/
structure LowersTo (v : WorkUnit) (traced : Bool) (p : Lowered) : Prop where
  insts : p.insts = v.numInsts
  /-- All words are paid for. -/
  size : p.words.size =
    (v.compiled.map (·.cost v.singleStep)).sum + v.blocks.toList.countP (·.explicitBranch) +
      4 * (v.countKind .chainNormal + v.countKind .chainHot) + 6 * v.countKind .chainInvoke +
      if traced then 2 * v.compiled.countP Placed.throws + 3 else 0
  stubs : p.stubs = if traced then v.compiled.countP Placed.throws else 0
  cells : List.Forall₂ Block.ListedAs (v.blocks.toList.filter (·.kind.isCell)) p.cells
  /-- A jump leads to a block, whose number it gives as far as there is room. -/
  jumps : ∀ (i : Nat) (b : Block), v.blocks[i]? = some b → b.explicitBranch = true →
    ∃ (j : Nat) (w : UInt32), b.fallThrough = j ∧ j < v.blocks.size ∧
      p.words[v.jumpAt i]? = some w ∧ w.toNat = 0xff * 2 ^ 24 + j % 2 ^ 24

/-! ### Blocks one after the other -/

section Fold

variable {singleStep : Bool} {views : List BlockView}

/-- The words of code blocks are those of their instructions, and one for each jump. -/
theorem wordsFrom_code (before : Nat) (hCode : ∀ w ∈ views, w.kind = .code) :
    BlockView.wordsFrom singleStep before views =
      ((views.flatMap (·.code)).map (·.words singleStep)).sum +
        views.countP (·.explicitBranch) := by
  induction views generalizing before with
  | nil => rfl
  | cons w views ih =>
      have hHere : w.words singleStep before =
          (w.code.map (·.words singleStep)).sum + w.explicitBranch.toNat := by
        rw [BlockView.words, hCode w (List.mem_cons_self ..)]
      rw [BlockView.wordsFrom, hHere, ih _ fun x hx => hCode x (List.mem_cons_of_mem _ hx),
        List.flatMap_cons, List.map_append, List.sum_append, List.countP_cons]
      cases w.explicitBranch with
      | true => simp; omega
      | false => simp; omega

/-- Cells take four words, and six where they chain into a callee. -/
theorem wordsFrom_cells (before : Nat) (hCells : ∀ w ∈ views, IsCell w) :
    BlockView.wordsFrom singleStep before views =
      4 * (views.countP (·.kind = .chainNormal) + views.countP (·.kind = .chainHot)) +
        6 * views.countP (·.kind = .chainInvoke) := by
  induction views generalizing before with
  | nil => rfl
  | cons w views ih =>
      have hCell := (hCells w (List.mem_cons_self ..)).kind
      rw [BlockView.wordsFrom, ih _ fun x hx => hCells x (List.mem_cons_of_mem _ hx),
        BlockView.words]
      simp only [List.countP_cons]
      cases hKind : w.kind with
      | chainNormal => simp; omega
      | chainHot => simp; omega
      | chainInvoke => simp; omega
      | _ =>
          rw [hKind] at hCell
          cases hCell

theorem throwing_foldl (views : List BlockView) (p : Lowered) :
    (views.foldl (BlockView.lowerInto singleStep) p).throwing =
      p.throwing + (views.map (·.throwing)).sum := by
  induction views generalizing p with
  | nil => rfl
  | cons w views ih =>
      rw [List.foldl_cons, ih, BlockView.lowerInto, List.map_cons, List.sum_cons, Nat.add_assoc]

theorem stubs_foldl (hNone : ∀ w ∈ views, w.kind ≠ .pcReconstruction) (p : Lowered) :
    (views.foldl (BlockView.lowerInto singleStep) p).stubs = p.stubs := by
  induction views generalizing p with
  | nil => rfl
  | cons w views ih =>
      rw [List.foldl_cons, ih fun x hx => hNone x (List.mem_cons_of_mem _ hx)]
      exact if_neg (hNone w (List.mem_cons_self ..))

/-- Cells are listed in the order of their blocks. -/
theorem cells_foldl (views : List BlockView) (p : Lowered) :
    (views.foldl (BlockView.lowerInto singleStep) p).cells =
      p.cells ++ views.filterMap (·.cell?) := by
  induction views generalizing p with
  | nil => simp
  | cons w views ih =>
      rw [List.foldl_cons, ih, BlockView.lowerInto, List.filterMap_cons]
      cases w.cell? <;> simp

/-- A cell is listed with its callee and the target of it. -/
theorem listedAs_cell {w : BlockView} {i : Nat} (hCallee : w.callee.isSome ↔ w.kind = .chainInvoke)
    {c : Cell} (hCell : w.cell? = some c) : (w.block i).ListedAs c := by
  unfold BlockView.cell? at hCell
  split at hCell
  next =>
      cases hCell
      refine ⟨rfl, rfl, ?_⟩
      have hSame : (w.block i).callee = w.callee := rfl
      rw [hSame]
      cases hMethod : w.callee with
      | none =>
          rw [hMethod] at hCallee
          exact ⟨fun hInvoke => by simpa using hCallee.mpr hInvoke, rfl, rfl⟩
      | some m =>
          rw [hMethod] at hCallee
          exact ⟨hCallee.mp rfl, rfl, rfl⟩
  next => cases hCell

/-- The cells are listed in the order of their blocks. -/
theorem listedAs_filterMap (views : List BlockView) (n : Nat)
    (hCallee : ∀ w ∈ views, w.kind.isCell = true → (w.callee.isSome ↔ w.kind = .chainInvoke)) :
    List.Forall₂ Block.ListedAs
      ((views.mapIdx fun i w => w.block (n + i)).filter (·.kind.isCell))
      (views.filterMap (·.cell?)) := by
  induction views generalizing n with
  | nil => exact .nil
  | cons w views ih =>
      have hLater := ih (n + 1) fun x hx => hCallee x (List.mem_cons_of_mem _ hx)
      simp only [Nat.add_assoc, Nat.add_comm 1] at hLater
      have hKind : (w.block n).kind = w.kind := rfl
      rw [List.mapIdx_cons, Nat.add_zero, List.filter_cons, List.filterMap_cons, hKind]
      cases hCell : w.kind.isCell with
      | true =>
          have hListed : w.cell? = some _ := if_pos hCell
          rw [hListed]
          exact .cons (listedAs_cell (hCallee w (List.mem_cons_self ..) hCell) hListed) hLater
      | false =>
          have hUnlisted : w.cell? = none := if_neg (by simp [hCell])
          rw [hUnlisted]
          exact hLater

end Fold

/-! ### Finished units -/

/-- The blocks behind all others: two for a trace, none for a method. -/
def closingOf : Bool → List BlockView
  | true => closingViews
  | false => []

/-- The unit has code blocks, then cells, then the closing blocks of a trace. A cell has a callee
exactly if it calls, and every jump leads to a block. -/
structure Laid (v : WorkUnit) (traced : Bool) (runs cells : List BlockView) : Prop where
  views : v.Represents (runs ++ (cells ++ closingOf traced))
  code : ∀ w ∈ runs, w.kind = .code
  cells : ∀ w ∈ cells, IsCell w ∧ (w.callee.isSome ↔ w.kind = .chainInvoke)
  jumps : ∀ w ∈ runs, w.explicitBranch = true →
    ∃ j : Nat, w.fallThrough = j ∧ j < v.blocks.size
  numInsts : v.numInsts = v.compiled.length

/-- What is counted among the first blocks can be counted among the first views. -/
theorem Represents.countP_take {v : WorkUnit} {views : List BlockView} (h : v.Represents views)
    {f : Block → Bool} {g : BlockView → Bool} (hSame : ∀ w i, f (w.block i) = g w) (n : Nat) :
    (v.blocks.toList.take n).countP f = (views.take n).countP g := by
  have hMap := congrArg (fun l => (l.take n).countP fun b : Bool => b) (h.map_blocks hSame)
  simp only [← List.map_take, List.countP_map] at hMap
  exact hMap

theorem Represents.countP_blocks {v : WorkUnit} {views : List BlockView} (h : v.Represents views)
    {f : Block → Bool} {g : BlockView → Bool} (hSame : ∀ w i, f (w.block i) = g w) :
    v.blocks.toList.countP f = views.countP g := by
  have hLength : v.blocks.toList.length ≤ views.length := Nat.le_of_eq h.size_eq
  have hAll := h.countP_take hSame views.length
  rwa [List.take_of_length_le hLength, List.take_length] at hAll

namespace Laid

variable {v : WorkUnit} {traced : Bool} {runs cells : List BlockView}

/-- A trace is closed by two blocks, a method by none. -/
theorem closing_cases {w : BlockView} (hw : w ∈ closingOf traced) :
    w = { kind := .pcReconstruction, start := 0 } ∨
      w = { kind := .exceptionHandling, start := 0 } := by
  cases traced with
  | false => cases hw
  | true => exact List.mem_pair.mp hw

/-- Blocks without code have no jumps. -/
theorem rest_cases (h : v.Laid traced runs cells) {w : BlockView}
    (hw : w ∈ cells ++ closingOf traced) :
    w.kind ≠ .code ∧ w.explicitBranch = false ∧ w.Lowers := by
  rcases List.mem_append.mp hw with hCell | hClosing
  · have hIs := (h.cells w hCell).1
    exact ⟨hIs.kind_ne, congrArg BlockView.explicitBranch hIs.bare, hIs.lowers⟩
  · rcases closing_cases hClosing with rfl | rfl
    · exact ⟨by decide, rfl, fun _ hKind => by cases hKind⟩
    · exact ⟨by decide, rfl, fun _ hKind => by cases hKind⟩

theorem lowers (h : v.Laid traced runs cells) :
    ∀ w ∈ runs ++ (cells ++ closingOf traced), w.Lowers := by
  intro w hw
  rcases List.mem_append.mp hw with hRun | hRest
  · intro byte hKind
    cases hKind.symm.trans (h.code w hRun)
  · exact (h.rest_cases hRest).2.2

theorem compiled_eq (h : v.Laid traced runs cells) : v.compiled = runs.flatMap (·.code) := by
  rw [compiled, h.views.codeBlocks_eq h.code fun w hw => (h.rest_cases hw).1, List.flatMap_map]
  exact h.views.flatMap_instructionsOf

theorem throwing_eq (h : v.Laid traced runs cells) :
    (runs.map (·.throwing)).sum = v.compiled.countP Placed.throws := by
  rw [BlockView.sum_throwing h.code, h.compiled_eq]

/-- Only code blocks have jumps. -/
theorem countP_explicitBranch (h : v.Laid traced runs cells) :
    v.blocks.toList.countP (·.explicitBranch) = runs.countP (·.explicitBranch) := by
  have hRest : (cells ++ closingOf traced).countP (·.explicitBranch) = 0 := by
    rw [List.countP_eq_zero]
    exact fun w hw => by simp [(h.rest_cases hw).2.1]
  rw [h.views.countP_blocks (g := (·.explicitBranch)) fun _ _ => rfl, List.countP_append, hRest,
    Nat.add_zero]

theorem countKind_eq (h : v.Laid traced runs cells) {kind : BlockKind}
    (hKind : kind.isCell = true) : v.countKind kind = cells.countP (·.kind = kind) := by
  have hRuns : runs.countP (·.kind = kind) = 0 := by
    rw [List.countP_eq_zero]
    intro w hw hSame
    rw [← of_decide_eq_true hSame, h.code w hw] at hKind
    cases hKind
  have hClosing : (closingOf traced).countP (·.kind = kind) = 0 := by
    rw [List.countP_eq_zero]
    intro w hw hSame
    rw [← of_decide_eq_true hSame] at hKind
    rcases closing_cases hw with rfl | rfl
    · cases hKind
    · cases hKind
  rw [countKind, h.views.countP_blocks (g := (·.kind = kind)) fun _ _ => rfl, List.countP_append,
    List.countP_append, hRuns, hClosing, Nat.zero_add, Nat.add_zero]

/-- The words of the closing blocks: two for each stub, and three behind them. -/
theorem wordsFrom_closing (singleStep : Bool) (before : Nat) :
    BlockView.wordsFrom singleStep before (closingOf traced) =
      if traced then 2 * before + 3 else 0 := by
  cases traced <;> rfl

/-- All words of the program. -/
theorem wordsFrom_eq (h : v.Laid traced runs cells) (singleStep : Bool) :
    BlockView.wordsFrom singleStep 0 (runs ++ (cells ++ closingOf traced)) =
      (v.compiled.map (·.words singleStep)).sum + v.blocks.toList.countP (·.explicitBranch) +
        4 * (v.countKind .chainNormal + v.countKind .chainHot) + 6 * v.countKind .chainInvoke +
        if traced then 2 * v.compiled.countP Placed.throws + 3 else 0 := by
  have hQuiet : (cells.map (·.throwing)).sum = 0 := throwing_cells fun w hw => (h.cells w hw).1
  rw [BlockView.wordsFrom_append, BlockView.wordsFrom_append, hQuiet, h.throwing_eq,
    wordsFrom_code 0 h.code, wordsFrom_cells _ fun w hw => (h.cells w hw).1, wordsFrom_closing,
    h.countP_explicitBranch, h.compiled_eq, h.countKind_eq rfl, h.countKind_eq rfl,
    h.countKind_eq rfl]
  simp only [Nat.zero_add, Nat.add_zero]
  omega

/-- Only a trace has stubs, one for each instruction that can throw. -/
theorem stubs_eq (h : v.Laid traced runs cells) (singleStep : Bool) :
    ((runs ++ (cells ++ closingOf traced)).foldl (BlockView.lowerInto singleStep) {}).stubs =
      if traced then v.compiled.countP Placed.throws else 0 := by
  have hNone : ∀ w ∈ runs ++ cells, w.kind ≠ .pcReconstruction := by
    intro w hw hKind
    rcases List.mem_append.mp hw with hRun | hCell
    · cases hKind.symm.trans (h.code w hRun)
    · have hCell := (h.cells w hCell).1.kind
      rw [hKind] at hCell
      cases hCell
  have hThrowing : ((runs ++ cells).map (·.throwing)).sum = v.compiled.countP Placed.throws := by
    rw [List.map_append, List.sum_append, throwing_cells fun w hw => (h.cells w hw).1,
      h.throwing_eq, Nat.add_zero]
  rw [← List.append_assoc, List.foldl_append]
  cases traced with
  | false => exact stubs_foldl hNone {}
  | true =>
      -- The stubs are counted where the first of the closing blocks is met.
      change ((runs ++ cells).foldl (BlockView.lowerInto singleStep) {}).throwing = _
      rw [throwing_foldl, hThrowing]
      exact Nat.zero_add _

/-- The cells are listed in the order of their blocks. -/
theorem cells_eq (h : v.Laid traced runs cells) (singleStep : Bool) :
    List.Forall₂ Block.ListedAs (v.blocks.toList.filter (·.kind.isCell))
      ((runs ++ (cells ++ closingOf traced)).foldl
        (BlockView.lowerInto singleStep) {}).cells := by
  have hListed := listedAs_filterMap (runs ++ (cells ++ closingOf traced)) 0 ?_
  · rw [cells_foldl, List.nil_append, h.views.toList_blocks]
    simpa only [Nat.zero_add] using hListed
  · intro w hw hCell
    rcases List.mem_append.mp hw with hRun | hRest
    · rw [h.code w hRun] at hCell
      cases hCell
    · rcases List.mem_append.mp hRest with hMem | hClosing
      · exact (h.cells w hMem).2
      · rcases closing_cases hClosing with rfl | rfl
        · cases hCell
        · cases hCell

/-- The words up to the jump of a block. -/
theorem jumpAt_eq (h : v.Laid traced runs cells)
    (hCost : ∀ p ∈ v.compiled, p.words v.singleStep = p.cost v.singleStep) {i : Nat}
    (hi : i < runs.length) :
    v.jumpAt i = BlockView.wordsFrom v.singleStep 0 (runs.take i) +
      (runs[i].code.map (·.words v.singleStep)).sum := by
  have hViews := h.views
  rw [← List.take_append_drop (i + 1) runs, List.append_assoc] at hViews
  have hCode := hViews.flatMap_instructionsOf
  rw [List.length_take, Nat.min_eq_left hi] at hCode
  have hSub : ∀ p ∈ (runs.take (i + 1)).flatMap (·.code), p ∈ v.compiled := by
    intro p hp
    obtain ⟨w, hw, hp⟩ := List.mem_flatMap.mp hp
    rw [h.compiled_eq]
    exact List.mem_flatMap_of_mem (List.mem_of_mem_take hw) hp
  have hSame : ((runs.take (i + 1)).flatMap (·.code)).map (·.cost v.singleStep) =
      ((runs.take (i + 1)).flatMap (·.code)).map (·.words v.singleStep) :=
    List.map_congr_left fun p hp => (hCost p (hSub p hp)).symm
  rw [jumpAt, hCode, hSame, h.views.countP_take (g := (·.explicitBranch)) fun _ _ => rfl,
    List.take_append_of_le_length (Nat.le_of_lt hi), List.take_succ_eq_append_getElem hi,
    List.flatMap_append, List.map_append, List.sum_append,
    wordsFrom_code 0 fun w hw => h.code w (List.mem_of_mem_take hw), List.flatMap_singleton]
  omega

/-- The word of the jump. -/
theorem getElem?_jumpAt (h : v.Laid traced runs cells)
    (hCost : ∀ p ∈ v.compiled, p.words v.singleStep = p.cost v.singleStep) {i : Nat}
    (hi : i < runs.length) (hJump : runs[i].explicitBranch = true) :
    ((runs ++ (cells ++ closingOf traced)).foldl (BlockView.lowerInto v.singleStep)
        {}).words[v.jumpAt i]? =
      some (Lowered.tagged 0xff (runs[i].fallThrough % UInt32.size).toNat.toUInt32) := by
  have hShape : runs ++ (cells ++ closingOf traced) =
      runs.take i ++ runs[i] :: (runs.drop (i + 1) ++ (cells ++ closingOf traced)) := by
    rw [← List.cons_append, ← List.drop_eq_getElem_cons hi, ← List.append_assoc (runs.take i),
      List.take_append_drop]
  have hBlock : ∀ before, runs[i].emitted v.singleStep before =
      runs[i].code.flatMap (·.emitted v.singleStep) ++
        [Lowered.tagged 0xff (runs[i].fallThrough % UInt32.size).toNat.toUInt32] := by
    intro before
    rw [BlockView.emitted, h.code _ (List.getElem_mem hi), BlockView.jump, if_pos hJump]
  have hAt : v.jumpAt i = (BlockView.emittedFrom v.singleStep 0 (runs.take i) ++
      runs[i].code.flatMap (·.emitted v.singleStep)).length := by
    rw [h.jumpAt_eq hCost hi, List.length_append, BlockView.length_emittedFrom, List.length_flatMap]
    simp only [Placed.length_emitted]
  rw [← Array.getElem?_toList, BlockView.words_foldl, hShape, BlockView.emittedFrom_append,
    BlockView.emittedFrom, hBlock, hAt]
  change (_ ++ ((_ ++ [_]) ++ _))[_]? = _
  rw [← List.append_cons, ← List.append_assoc, List.getElem?_append_right (Nat.le_refl _),
    Nat.sub_self]
  rfl

/-- A unit of this shape is lowered as the cost model says. -/
theorem lowersTo (h : v.Laid traced runs cells)
    (hCost : ∀ p ∈ v.compiled, p.words v.singleStep = p.cost v.singleStep) :
    ∃ p, v.lower = .ok p ∧ v.LowersTo traced p := by
  have hLower := h.views.lower_eq h.lowers
  refine ⟨_, hLower, ?_, ?_, h.stubs_eq _, h.cells_eq _, ?_⟩
  · rw [insts_of_lower hLower, heldInsts_eq, h.numInsts]
  · rw [BlockView.size_foldl, h.wordsFrom_eq, List.map_congr_left hCost]
  · intro i b hBlock hJump
    rw [h.views.blocks, Option.map_eq_some_iff] at hBlock
    obtain ⟨w, hw, rfl⟩ := hBlock
    have hi : i < runs.length := by
      by_contra hPast
      rw [List.getElem?_append_right (Nat.le_of_not_lt hPast)] at hw
      cases (h.rest_cases (List.mem_of_getElem? hw)).2.1.symm.trans hJump
    rw [List.getElem?_append_left hi, List.getElem?_eq_getElem hi] at hw
    obtain rfl := Option.some.inj hw
    obtain ⟨j, hFall, hj⟩ := h.jumps _ (List.getElem_mem hi) hJump
    refine ⟨j, _, hFall, hj, h.getElem?_jumpAt hCost hi hJump, ?_⟩
    have hNumber : ((j : Int) % UInt32.size).toNat.toUInt32.toNat % 2 ^ 24 = j % 2 ^ 24 := by
      have hMod : ((j : Int) % UInt32.size).toNat = j % 2 ^ 32 := rfl
      rw [hMod, Nat.toUInt32, UInt32.toNat_ofNat']
      omega
    rw [Lowered.toNat_tagged, hFall, hNumber]
    rfl

end Laid

/-! ### What the builds make -/

section Builds

variable {u v : WorkUnit}

/-- Control that never falls out of an instruction goes elsewhere. -/
theorem changesFlow_of_exit {insn : Instruction} (hExit : insn.isUnconditionalExit = true) :
    insn.flow.changesFlow = true := by
  have hRow : ∀ op : Opcode, ((0x0e ≤ op.byte.toNat && op.byte.toNat ≤ 0x11) ||
      (0x28 ≤ op.byte.toNat && op.byte.toNat ≤ 0x2a)) = true →
      (OpcodeInfo.ofNumber op.byte.toNat).flow.changesFlow = true :=
    Opcode.of_table (by decide +kernel)
  rw [Instruction.isUnconditionalExit, Bool.and_eq_true, Bool.not_eq_true'] at hExit
  rw [Instruction.flow, hExit.1, Opcode.flow, Opcode.info_eq]
  exact hRow insn.op hExit.2

/-- A cell has a callee if it chains into one. -/
theorem callee_of_mem_cellsFrom {l : Linkage} {views rest : List BlockView} {i : Nat}
    {c : BlockView} (hc : c ∈ cellsFrom l views i rest) :
    c.callee.isSome ↔ c.kind = .chainInvoke := by
  obtain ⟨p, hTaken | hFall⟩ := exists_of_mem_cellsFrom hc
  · unfold takenCell? at hTaken
    cases hRedirect : (l.boundaryOf p).redirect? with
    | some callee =>
        rw [hRedirect] at hTaken
        cases hTaken
        simp
    | none =>
        rw [hRedirect] at hTaken
        obtain ⟨t, _, rfl⟩ := Option.map_eq_some_iff.mp hTaken
        cases p.insn.flow.has .always <;> simp
  · unfold fallCell? at hFall
    split at hFall
    next => cases hFall
    next =>
        cases hFall
        cases (l.boundaryOf p).isInvoke || !p.insn.flow.changesFlow <;> simp

/-- Nothing falls out of a block only if it ends in an instruction that control never passes. -/
theorem FallLeads.isUnconditionalExit {l : Linkage} {i : Nat} {last : Placed} {e : BlockId}
    (h : v.FallLeads l i last e) (hNone : e = noBlock) :
    last.insn.isUnconditionalExit = true := by
  cases h with
  | inside => exact absurd hNone (natCast_ne_noBlock _)
  | outside => exact absurd hNone (natCast_ne_noBlock _)
  | nowhere _ hExit => exact hExit

/-- A block of a trace jumps where control falls, unless its last instruction sends it elsewhere. -/
theorem TraceBuilt.explicitBranch_eq {runs : List Run} {c i : Nat}
    {pieces : List (Run × List Entry)} (h : u.TraceBuilt v runs c pieces) (hi : i < pieces.length)
    {b : Block} {last : Placed} (hBlock : v.blocks[i]? = some b)
    (hLast : (v.instructionsOf i).getLast? = some last) :
    b.explicitBranch = !last.insn.flow.changesFlow := by
  have hi' : i < (runViews 0 pieces).length := by rwa [length_runViews]
  obtain ⟨_, x, hx, _, hBody⟩ := exists_piece_of_mem_runViews (List.getElem_mem hi')
  obtain ⟨_, _, _, hView⟩ := exists_traceView u.method.linkage (List.getElem?_eq_getElem hi')
  rw [h.views.blocks, hView] at hBlock
  rw [h.views.instructionsOf_eq, hView] at hLast
  obtain rfl := Option.some.inj hBlock
  have hEnd := (getLast?_code (hBody ▸ h.full x hx)).symm.trans hLast
  rw [← Option.some.inj hEnd]
  rfl

/-- How the blocks of a finished trace are laid out. -/
theorem TraceBuilt.laid {runs : List Run} {c : Nat} {pieces : List (Run × List Entry)}
    (h : u.TraceBuilt v runs c pieces) (hFresh : u.Fresh) :
    ∃ runs cells, v.Laid true runs cells := by
  refine ⟨_, _, h.views, fun w hw => kind_of_mem_resolvedFrom hw,
    fun w hw => ⟨isCell_of_mem_cellsFrom hw, callee_of_mem_cellsFrom hw⟩, ?_, ?_⟩
  · intro w hw hJump
    obtain ⟨i, hAt⟩ := List.mem_iff_getElem?.mp hw
    have hi := (List.getElem?_eq_some_iff.mp hAt).1
    have hBlock : v.blocks[i]? = some (w.block i) := by
      rw [h.views.blocks, traceViews, List.getElem?_append_left hi, hAt, Option.map_some]
    rw [length_resolvedFrom, length_runViews] at hi
    obtain ⟨b, last, hBlock', hLast, _, hFall⟩ := h.edges hi
    obtain rfl : b = w.block i := Option.some.inj (hBlock'.symm.trans hBlock)
    have hStays := (h.explicitBranch_eq hi hBlock hLast).symm.trans hJump
    rcases h.leadsForward_fall hi hFall with hNone | ⟨j, hTo, _, hj⟩
    · rw [changesFlow_of_exit (hFall.isUnconditionalExit hNone)] at hStays
      cases hStays
    · exact ⟨j, hTo, hj⟩
  · rw [h.decoded.numInsts, hFresh.numInsts, h.compiled_eq, Int.zero_add]

/-- How the blocks of a finished method are laid out. -/
theorem MethodBuilt.laid {n : Nat} {bodies : List (List Entry)} (h : u.MethodBuilt v n bodies) :
    ∃ runs cells, v.Laid false runs cells := by
  have hRuns : ∀ w ∈ (splitViews 0 bodies).map (linkView u.method.linkage bodies),
      w.kind = .code ∧ w.explicitBranch = false := by
    intro w hw
    obtain ⟨k, hk⟩ := List.mem_iff_getElem?.mp hw
    rw [getElem?_linkView, Option.map_eq_some_iff] at hk
    obtain ⟨body, _, rfl⟩ := hk
    exact ⟨rfl, rfl⟩
  refine ⟨_, [], ?_, fun w hw => (hRuns w hw).1, by simp, fun w hw hJump => ?_, ?_⟩
  · rw [closingOf, List.append_nil, List.append_nil]
    exact h.views
  · cases (hRuns w hw).2.symm.trans hJump
  · rw [h.numInsts, h.compiled_eq, Code.length_walk]

/-- Instructions that a build accepts have their price. -/
theorem BuildsTo.words_eq_cost (h : u.BuildsTo v) (hFresh : u.Fresh)
    (hShort : u.code.units.size < 2 ^ 32 - 1) (singleStep : Bool) {p : Placed}
    (hp : p ∈ v.compiled) : p.words singleStep = p.cost singleStep := by
  obtain ⟨⟨_, hPos, hEnd⟩, hPlaced⟩ := h.fits hFresh hp
  have hWidth := congrArg (·.insn.width.toNat) hPlaced
  simp only [Code.placedAt_width] at hWidth
  exact Placed.words_eq_cost singleStep (by omega) (by omega)

end Builds

/-- The cost model of lowering. Whatever is built from code that is shorter than `2 ^ 32 - 1` units
is lowered, and its program is the one that the cost model says. -/
theorem lower_costModel {u v : WorkUnit} (hFresh : u.Fresh)
    (hShort : u.code.units.size < 2 ^ 32 - 1) :
    (∀ c : Int64, u.buildTrace c.toInt = .ok v → ∃ p, v.lower = .ok p ∧ v.LowersTo true p) ∧
    (u.buildMethod = .ok v → ∃ p, v.lower = .ok p ∧ v.LowersTo false p) := by
  constructor
  · intro c hBuild
    obtain ⟨_, _, _, h⟩ := hFresh.traceBuilt hBuild
    obtain ⟨runs, cells, hLaid⟩ := h.laid hFresh
    exact hLaid.lowersTo fun p hp => (BuildsTo.trace c hBuild).words_eq_cost hFresh hShort _ hp
  · intro hBuild
    obtain ⟨_, _, _, h⟩ := methodBuilt_of_ok hFresh hBuild
    obtain ⟨runs, cells, hLaid⟩ := h.laid
    exact hLaid.lowersTo fun p hp => (BuildsTo.method hBuild).words_eq_cost hFresh hShort _ hp

/-- A read from an array, which can throw, between a constant and a return. -/
def readCode : Code := ⟨#[0x0012, 0x0044, 0x0000, 0x000e], by decide⟩

def readTrace : Trace :=
  { name := "read", method := (loose readCode none).method, runs := [⟨0, 3, true⟩] }

/-- Two instructions of the trace take three words each; then come the jump to the cell behind
them, the cell, a stub and the three words at the end. -/
theorem lower_costModel_read :
    readCode.units.size < 2 ^ 32 - 1 ∧ (loose readCode (some readTrace)).Fresh ∧
    (∃ v p, (loose readCode (some readTrace)).buildTrace 2 = .ok v ∧ v.lower = .ok p ∧
      v.LowersTo true p ∧ p.words.size = 6 + 1 + 4 + 2 + 3) ∧
    ∃ v p, (loose readCode (some readTrace)).buildMethod = .ok v ∧ v.lower = .ok p ∧
      v.LowersTo false p ∧ p.words.size = 9 := by
  have hShort : readCode.units.size < 2 ^ 32 - 1 := by decide
  have hFresh := fresh_loose readCode (some readTrace)
  have hAll : ((loose readCode (some readTrace)).buildTrace 2).stop? = none ∧
      ((loose readCode (some readTrace)).buildTrace 2).unit.lower.toOption.map (·.words.size) =
        some 16 ∧
      (loose readCode (some readTrace)).buildMethod.stop? = none ∧
      (loose readCode (some readTrace)).buildMethod.unit.lower.toOption.map (·.words.size) =
        some 9 := by
    decide +kernel
  obtain ⟨hTraced, hTraceSize, hBuilt, hMethodSize⟩ := hAll
  obtain ⟨v, hBuild⟩ := Build.stop?_eq_none_iff.mp hTraced
  obtain ⟨w, hBuild'⟩ := Build.stop?_eq_none_iff.mp hBuilt
  obtain ⟨p, hLower, hModel⟩ := (lower_costModel hFresh hShort).1 2 hBuild
  obtain ⟨q, hLower', hModel'⟩ := (lower_costModel hFresh hShort).2 hBuild'
  rw [hBuild] at hTraceSize
  rw [hBuild'] at hMethodSize
  change v.lower.toOption.map (·.words.size) = some 16 at hTraceSize
  change w.lower.toOption.map (·.words.size) = some 9 at hMethodSize
  rw [hLower] at hTraceSize
  rw [hLower'] at hMethodSize
  exact ⟨hShort, hFresh, ⟨v, p, hBuild, hLower, hModel, Option.some.inj hTraceSize⟩,
    w, q, hBuild', hLower', hModel', Option.some.inj hMethodSize⟩

end WorkUnit

end TraceJit
