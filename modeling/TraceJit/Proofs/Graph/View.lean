import Mathlib.Algebra.Group.Nat.Defs
import TraceJit.Proofs.Graph.Chain

/-!
A unit seen as a list of blocks, each with the list of entries that its chain holds. The view
fixes every block record and every chained node, so an operation on a unit is described by one
equation on views; nothing above this module follows links.
-/

namespace TraceJit

/-- Counts may wrap before or after an addition. -/
theorem wrapCount_wrapCount_add (n k : Int) : wrapCount (wrapCount n + k) = wrapCount (n + k) :=
  Int.bmod_add_bmod

theorem wrapCount_wrapCount_sub (n k : Int) : wrapCount (wrapCount n - k) = wrapCount (n - k) :=
  Int.bmod_sub_bmod

/-- Counts below `2 ^ 63` do not wrap. -/
theorem wrapCount_natCast {n : Nat} (hSmall : n < 2 ^ 63) : wrapCount n = n := by
  have hSize : UInt64.size = 18446744073709551616 := rfl
  exact Int.bmod_eq_of_le (by omega) (by omega)

theorem noBlock_lt (n : Nat) : noBlock < (n : BlockId) :=
  Int.lt_of_lt_of_le (by decide) (Int.natCast_nonneg n)

theorem natCast_ne_noBlock (n : Nat) : (n : BlockId) ≠ noBlock := Int.ne_of_gt (noBlock_lt n)

theorem natCast_ne_noNode (n : Nat) : (n : NodeId) ≠ noNode :=
  Int.ne_of_gt (Int.lt_of_lt_of_le (by decide) (Int.natCast_nonneg n))

/-- A block: its kind and place, the entries of its chain, its successors. -/
structure BlockView where
  kind : BlockKind
  start : UInt32
  body : List Entry := []
  taken : BlockId := noBlock
  fallThrough : BlockId := noBlock
  next : BlockId := noBlock
  explicitBranch : Bool := false
  callee : Option MethodInfo := none
  deriving DecidableEq, Repr

namespace BlockView

/-- The block record with number `i` that a view stands for. -/
def block (v : BlockView) (i : Nat) : Block :=
  { id := i, kind := v.kind, start := v.start, first := Entry.headId v.body noNode,
    last := Entry.lastId noNode v.body, numInsts := wrapCount v.body.length,
    taken := v.taken, fallThrough := v.fallThrough, next := v.next,
    explicitBranch := v.explicitBranch, callee := v.callee }

/-- A block without instructions and successors. -/
theorem block_empty (kind : BlockKind) (start : UInt32) (callee : Option MethodInfo) (i : Nat) :
    ({ kind, start, callee } : BlockView).block i = { Block.empty i kind start with callee } := by
  have hZero : wrapCount ((0 : Nat) : Int) = 0 := wrapCount_natCast (by omega)
  simp only [block, Block.empty, Entry.headId, Entry.lastId, List.length_nil, hZero]

def add (v : BlockView) (e : Entry) : BlockView := { v with body := v.body ++ [e] }

def code (v : BlockView) : List Placed := v.body.map (·.placed)

end BlockView

namespace WorkUnit

/-- The unit consists of exactly these blocks, and every node is in one of their chains. -/
structure Represents (u : WorkUnit) (views : List BlockView) : Prop where
  blocks : ∀ i : Nat, u.blocks[i]? = (views[i]?).map (·.block i)
  linked : ∀ (i : Nat) (v : BlockView), views[i]? = some v →
    Segment u.nodes i noNode v.body noNode
  numbers : ((views.flatMap (·.body)).map (·.number)).Perm (List.range u.nodes.size)

def instructionsOf (u : WorkUnit) (i : Nat) : List Placed :=
  (u.nodesOf (i : BlockId)).map (·.2.placed)

/-- What no operation on blocks and nodes touches, and no report. -/
def setting (u : WorkUnit) : WorkUnit :=
  { u with blocks := #[], nodes := #[], numInsts := 0, tracer := .nop }

theorem method_of_setting {u w : WorkUnit} (hSetting : w.setting = u.setting) :
    w.method = u.method := by
  change w.setting.method = u.setting.method
  rw [hSetting]

/-! ### Records -/

section Records

variable (u : WorkUnit)

theorem block?_natCast (i : Nat) : u.block? (i : BlockId) = u.blocks[i]? := by simp [block?]

theorem modifyBlock_natCast (i : Nat) (f : Block → Block) :
    u.modifyBlock (i : BlockId) f = { u with blocks := u.blocks.modify i f } := by
  simp [modifyBlock]

theorem modifyNode_natCast (i : Nat) (f : Node → Node) :
    u.modifyNode (i : NodeId) f = { u with nodes := u.nodes.modify i f } := by
  simp [modifyNode]

@[simp] theorem modifyNode_noNode (f : Node → Node) : u.modifyNode noNode f = u := rfl

@[simp] theorem modifyBlock_noBlock (f : Block → Block) : u.modifyBlock noBlock f = u := rfl

@[simp] theorem modifyNode_blocks (i : NodeId) (f : Node → Node) :
    (u.modifyNode i f).blocks = u.blocks := by
  unfold modifyNode; split <;> rfl

@[simp] theorem modifyBlock_nodes (i : BlockId) (f : Block → Block) :
    (u.modifyBlock i f).nodes = u.nodes := by
  unfold modifyBlock; split <;> rfl

theorem size_nodes_modifyNode (i : NodeId) (f : Node → Node) :
    (u.modifyNode i f).nodes.size = u.nodes.size := by
  unfold modifyNode; split
  · exact Array.size_modify ..
  · rfl

@[simp] theorem modifyBlock_numInsts (i : BlockId) (f : Block → Block) :
    (u.modifyBlock i f).numInsts = u.numInsts := by
  unfold modifyBlock; split <;> rfl

@[simp] theorem modifyNode_numInsts (i : NodeId) (f : Node → Node) :
    (u.modifyNode i f).numInsts = u.numInsts := by
  unfold modifyNode; split <;> rfl

@[simp] theorem modifyBlock_setting (i : BlockId) (f : Block → Block) :
    (u.modifyBlock i f).setting = u.setting := by
  unfold modifyBlock; split <;> rfl

@[simp] theorem modifyNode_setting (i : NodeId) (f : Node → Node) :
    (u.modifyNode i f).setting = u.setting := by
  unfold modifyNode; split <;> rfl

@[simp] theorem newBlock_setting (kind : BlockKind) (start : UInt32) :
    (u.newBlock kind start).setting = u.setting := rfl

@[simp] theorem append_setting (b : BlockId) (insn : Instruction) (off : UInt32) :
    (u.append b insn off).setting = u.setting := by
  unfold append
  cases u.block? b with
  | none => rfl
  | some blk =>
      dsimp only
      split
      · exact (modifyBlock_setting ..).trans (modifyNode_setting ..)
      · exact (modifyBlock_setting ..).trans (modifyNode_setting ..)

/-- Changing nodes one after the other leaves everything but the nodes alone. -/
theorem foldl_modifyNode (ids : List (NodeId × Node)) (f : Node → Node) :
    (ids.foldl (fun u x => u.modifyNode x.1 f) u).setting = u.setting ∧
      (ids.foldl (fun u x => u.modifyNode x.1 f) u).blocks = u.blocks ∧
      (ids.foldl (fun u x => u.modifyNode x.1 f) u).numInsts = u.numInsts := by
  induction ids generalizing u with
  | nil => exact ⟨rfl, rfl, rfl⟩
  | cons x ids ih =>
      obtain ⟨hSetting, hBlocks, hCount⟩ := ih (u.modifyNode x.1 f)
      exact ⟨hSetting.trans (modifyNode_setting ..), hBlocks.trans (modifyNode_blocks ..),
        hCount.trans (modifyNode_numInsts ..)⟩

theorem size_nodes_foldl_modifyNode (ids : List (NodeId × Node)) (f : Node → Node) :
    (ids.foldl (fun u x => u.modifyNode x.1 f) u).nodes.size = u.nodes.size := by
  induction ids generalizing u with
  | nil => rfl
  | cons x ids ih => exact (ih (u.modifyNode x.1 f)).trans (size_nodes_modifyNode ..)

@[simp] theorem split_setting (b : BlockId) (cut : NodeId) :
    (u.split b cut).setting = u.setting := by
  unfold split
  cases u.node? cut with
  | none => rfl
  | some node =>
      dsimp only
      cases (u.newBlock .code node.offset).block? b with
      | none => rfl
      | some head =>
          dsimp only
          rw [modifyBlock_setting, modifyBlock_setting, (foldl_modifyNode _ _ _).1]
          simp only [modifyNode_setting, modifyBlock_setting, newBlock_setting]

@[simp] theorem split_numInsts (b : BlockId) (cut : NodeId) :
    (u.split b cut).numInsts = u.numInsts := by
  unfold split
  cases u.node? cut with
  | none => rfl
  | some node =>
      dsimp only
      cases (u.newBlock .code node.offset).block? b with
      | none => rfl
      | some head =>
          dsimp only
          rw [modifyBlock_numInsts, modifyBlock_numInsts, (foldl_modifyNode _ _ _).2.2]
          simp only [modifyNode_numInsts, modifyBlock_numInsts]
          rfl

end Records

/-! ### Reading a unit through its view -/

namespace Represents

variable {u : WorkUnit} {views : List BlockView}

/-- A view depends on the blocks and nodes only. -/
theorem congr {w : WorkUnit} (h : u.Represents views) (hBlocks : w.blocks = u.blocks)
    (hNodes : w.nodes = u.nodes) : w.Represents views where
  blocks := by rw [hBlocks]; exact h.blocks
  linked := by rw [hNodes]; exact h.linked
  numbers := by rw [hNodes]; exact h.numbers

theorem size_eq (h : u.Represents views) : u.blocks.size = views.length := by
  have hIff : ∀ i : Nat, u.blocks.size ≤ i ↔ views.length ≤ i := by
    intro i
    rw [← Array.getElem?_eq_none_iff, h.blocks, Option.map_eq_none_iff,
      List.getElem?_eq_none_iff]
  exact Nat.le_antisymm ((hIff _).mpr (Nat.le_refl _)) ((hIff _).mp (Nat.le_refl _))

theorem nextBlock_eq (h : u.Represents views) : u.nextBlock = views.length :=
  congrArg Int.ofNat h.size_eq

theorem toList_blocks (h : u.Represents views) :
    u.blocks.toList = views.mapIdx fun i v => v.block i := by
  apply List.ext_getElem?
  intro i
  rw [Array.getElem?_toList, h.blocks, List.getElem?_mapIdx]

/-- What is read off every block can be read off the views. -/
theorem map_blocks {α : Type} (h : u.Represents views) {f : Block → α} {g : BlockView → α}
    (hSame : ∀ v i, f (v.block i) = g v) : u.blocks.toList.map f = views.map g := by
  rw [h.toList_blocks]
  apply List.ext_getElem?
  intro i
  rw [List.getElem?_map, List.getElem?_mapIdx, Option.map_map, List.getElem?_map]
  exact congrArg (Option.map · _) (funext fun v => hSame v i)

theorem block?_eq (h : u.Represents views) (i : Nat) :
    u.block? (i : BlockId) = (views[i]?).map (·.block i) := by
  rw [block?_natCast, h.blocks]

/-- Every block is seen. -/
theorem exists_view (h : u.Represents views) {i : Nat} {b : Block}
    (hBlock : u.blocks[i]? = some b) : ∃ v, views[i]? = some v ∧ b = v.block i := by
  rw [h.blocks, Option.map_eq_some_iff] at hBlock
  obtain ⟨v, hv, rfl⟩ := hBlock
  exact ⟨v, hv, rfl⟩

/-- No node is in two places. -/
theorem nodup_numbers (h : u.Represents views) :
    ((views.flatMap (·.body)).map (·.number)).Nodup :=
  h.numbers.nodup_iff.mpr List.nodup_range

/-- Entries are nodes of the unit. -/
theorem number_lt (h : u.Represents views) {v : BlockView} {e : Entry} (hv : v ∈ views)
    (he : e ∈ v.body) : e.number < u.nodes.size := by
  have hMem : e.number ∈ (views.flatMap (·.body)).map (·.number) :=
    List.mem_map_of_mem (List.mem_flatMap_of_mem hv he)
  exact List.mem_range.mp (h.numbers.mem_iff.mp hMem)

theorem body_sublist {v : BlockView} (hv : v ∈ views) :
    v.body.Sublist (views.flatMap (·.body)) := by
  rw [List.flatMap_def]
  exact List.sublist_flatten_of_mem (List.mem_map_of_mem hv)

theorem nodup_body (h : u.Represents views) {v : BlockView} (hv : v ∈ views) :
    (v.body.map (·.number)).Nodup := by
  have hSub : (v.body.map (·.number)).Sublist ((views.flatMap (·.body)).map (·.number)) :=
    (body_sublist hv).map _
  exact h.nodup_numbers.sublist hSub

theorem body_length_le (h : u.Represents views) {v : BlockView} (hv : v ∈ views) :
    v.body.length ≤ u.nodes.size := by
  have hSub := body_sublist hv
  have hLength := h.numbers.length_eq
  rw [List.length_map, List.length_range] at hLength
  exact hLength ▸ hSub.length_le

/-- Following the links of a list gives the list. -/
theorem chain_eq (h : u.Represents views) {v : BlockView} {b : Nat} {prev : NodeId}
    {es : List Entry} (hv : v ∈ views) (hShort : es.length ≤ v.body.length)
    (hSegment : Segment u.nodes b prev es noNode) :
    u.chain (Entry.headId es noNode) = Entry.nodes b prev es noNode :=
  u.chainFrom_eq hSegment (Nat.le_succ_of_le (Nat.le_trans hShort (h.body_length_le hv)))

/-- Following the chain of a block gives the nodes of its body. -/
theorem nodesOf_eq (h : u.Represents views) {i : Nat} {v : BlockView}
    (hv : views[i]? = some v) : u.nodesOf (i : BlockId) = Entry.nodes i noNode v.body noNode := by
  have hMem : v ∈ views := List.mem_of_getElem? hv
  rw [nodesOf, h.block?_eq, hv]
  exact h.chain_eq hMem (Nat.le_refl _) (h.linked i v hv)

/-- The instructions of a block are those of its view; a number of no block has none. -/
theorem instructionsOf_eq (h : u.Represents views) (i : Nat) :
    u.instructionsOf i = ((views[i]?).map (·.code)).getD [] := by
  rw [instructionsOf]
  cases hv : views[i]? with
  | none =>
      rw [nodesOf, h.block?_eq, hv]
      rfl
  | some v =>
      have hMap := congrArg (List.map Prod.snd) (Entry.nodes_map i noNode v.body noNode)
      rw [List.map_map, List.map_map] at hMap
      rw [h.nodesOf_eq hv]
      exact hMap

/-- The instructions of the first blocks, one block after the other. -/
theorem flatMap_instructionsOf {more : List BlockView} (h : u.Represents (views ++ more)) :
    (List.range views.length).flatMap u.instructionsOf = views.flatMap (·.code) := by
  have hLists : (List.range views.length).map u.instructionsOf = views.map (·.code) := by
    apply List.ext_getElem
    · simp
    · intro i hi _
      rw [List.length_map, List.length_range] at hi
      rw [List.getElem_map, List.getElem_map, List.getElem_range, h.instructionsOf_eq,
        List.getElem?_append_left hi, List.getElem?_eq_getElem hi, Option.map_some,
        Option.getD_some]
  rw [List.flatMap_def, hLists, ← List.flatMap_def]

/-- The last node of a block is its last entry. -/
theorem lastNode?_eq (h : u.Represents views) {i : Nat} {v : BlockView} {es : List Entry}
    {e : Entry} (hv : views[i]? = some v) (hBody : v.body = es ++ [e]) :
    u.lastNode? (i : BlockId) = some (e.node i (Entry.lastId noNode es) noNode) := by
  have hSegment := h.linked i v hv
  rw [hBody, Segment.concat_iff] at hSegment
  rw [lastNode?, h.block?_eq, hv]
  simp only [Option.map_some, Option.bind_some, BlockView.block, hBody, Entry.lastId_concat]
  rw [node?_natCast, hSegment.2]

end Represents

/-! ### Searching for a block -/

/-- Block `j` is a code block that starts at `off`. -/
def StartsAt (views : List BlockView) (j : Nat) (off : UInt32) : Prop :=
  ∃ v, views[j]? = some v ∧ v.kind = .code ∧ v.start = off

/-- The number of a block that was found so many places behind number `lo`. -/
def foundFrom (lo : Nat) : Option Nat → BlockId
  | some i => ((lo + i : Nat) : BlockId)
  | none => noBlock

/-- The first code block from number `lo` on that starts at `off`. -/
def searchFrom (views : List BlockView) (lo : Nat) (off : UInt32) : BlockId :=
  foundFrom lo ((views.drop lo).findIdx? fun v => v.kind = .code && v.start = off)

/-- A search over the blocks is one over their views. -/
theorem Represents.findBlock_eq {u : WorkUnit} {views : List BlockView} (h : u.Represents views)
    (lo : Nat) (off : UInt32) : u.findBlock lo off = searchFrom views lo off := by
  -- Both searches look at the kind and the start of a block only.
  have hKeys : u.blocks.toList.map (fun b => (b.kind, b.start)) =
      views.map fun v => (v.kind, v.start) := h.map_blocks fun _ _ => rfl
  have hDrop := congrArg
    (fun l => (l.drop lo).findIdx? fun k : BlockKind × UInt32 => k.1 = .code && k.2 = off) hKeys
  simp only [← List.map_drop, List.findIdx?_map, Function.comp_def] at hDrop
  exact congrArg (foundFrom lo) hDrop

section Search

variable {views : List BlockView} {lo : Nat} {off : UInt32}

private theorem startsAt_drop {i : Nat} :
    StartsAt views (lo + i) off ↔
      ∃ v, (views.drop lo)[i]? = some v ∧ (v.kind = .code && v.start = off) = true := by
  simp only [StartsAt, List.getElem?_drop, Bool.and_eq_true, decide_eq_true_eq]

/-- A search finds no block, or the first that it looks for. -/
theorem searchFrom_spec (views : List BlockView) (lo : Nat) (off : UInt32) :
    (searchFrom views lo off = noBlock ∧ ∀ j, lo ≤ j → ¬StartsAt views j off) ∨
      ∃ j : Nat, searchFrom views lo off = j ∧ lo ≤ j ∧ StartsAt views j off ∧
        ∀ i, lo ≤ i → i < j → ¬StartsAt views i off := by
  rw [searchFrom]
  cases hFound : (views.drop lo).findIdx? fun v => v.kind = .code && v.start = off with
  | none =>
      rw [List.findIdx?_eq_none_iff] at hFound
      refine .inl ⟨rfl, fun j hj hStarts => ?_⟩
      obtain ⟨i, rfl⟩ := Nat.exists_eq_add_of_le hj
      obtain ⟨v, hv, hHit⟩ := startsAt_drop.mp hStarts
      exact absurd hHit (by simp [hFound v (List.mem_of_getElem? hv)])
  | some k =>
      obtain ⟨hk, hHit, hFirst⟩ := List.findIdx?_eq_some_iff_getElem.mp hFound
      refine .inr ⟨lo + k, rfl, Nat.le_add_right .., ?_, ?_⟩
      · exact startsAt_drop.mpr ⟨_, List.getElem?_eq_getElem hk, hHit⟩
      · intro i hLow hHigh hi
        obtain ⟨d, rfl⟩ := Nat.exists_eq_add_of_le hLow
        obtain ⟨v, hv, hHit'⟩ := startsAt_drop.mp hi
        obtain ⟨hd, rfl⟩ := List.getElem?_eq_some_iff.mp hv
        exact hFirst d (by omega) hHit'

/-- A search fails exactly if no later block of code begins there. -/
theorem searchFrom_eq_noBlock_iff :
    searchFrom views lo off = noBlock ↔ ∀ j, lo ≤ j → ¬StartsAt views j off := by
  rcases searchFrom_spec views lo off with ⟨hNone, hAll⟩ | ⟨j, hFound, hLow, hStarts, _⟩
  · exact iff_of_true hNone hAll
  · rw [hFound]
    exact iff_of_false (natCast_ne_noBlock j) fun hAll => hAll j hLow hStarts

/-- A search finds the first block of code that begins there. -/
theorem searchFrom_eq_iff {j : Nat} :
    searchFrom views lo off = (j : BlockId) ↔
      lo ≤ j ∧ StartsAt views j off ∧ ∀ i, lo ≤ i → i < j → ¬StartsAt views i off := by
  rcases searchFrom_spec views lo off with ⟨hNone, hAll⟩ | ⟨k, hFound, hLow, hStarts, hFirst⟩
  · rw [hNone]
    exact iff_of_false (natCast_ne_noBlock j).symm fun hj => hAll j hj.1 hj.2.1
  · rw [hFound, Int.natCast_inj]
    constructor
    · rintro rfl
      exact ⟨hLow, hStarts, hFirst⟩
    · rintro ⟨hj, hjStarts, hjFirst⟩
      have hNotLess : ¬k < j := fun hLess => hjFirst k hLow hLess hStarts
      have hNotMore : ¬j < k := fun hLess => hFirst j hj hLess hjStarts
      omega

/-- A search looks at the starts of code blocks only. -/
theorem searchFrom_congr {views' : List BlockView}
    (hSame : ∀ j, StartsAt views j off ↔ StartsAt views' j off) :
    searchFrom views lo off = searchFrom views' lo off := by
  rcases searchFrom_spec views' lo off with ⟨hNone, hAll⟩ | ⟨j, hFound, hLow, hStarts, hFirst⟩
  · rw [hNone, searchFrom_eq_noBlock_iff]
    exact fun j hj hStarts => hAll j hj ((hSame j).mp hStarts)
  · rw [hFound, searchFrom_eq_iff]
    exact ⟨hLow, (hSame j).mpr hStarts,
      fun i hi hij hStart => hFirst i hi hij ((hSame i).mp hStart)⟩

/-- What a search for blocks looks at. -/
def searchKeys (views : List BlockView) : List (BlockKind × UInt32) :=
  views.map fun v => (v.kind, v.start)

theorem startsAt_iff {j : Nat} :
    StartsAt views j off ↔ (searchKeys views)[j]? = some (.code, off) := by
  simp only [StartsAt, searchKeys, List.getElem?_map, Option.map_eq_some_iff, Prod.mk.injEq]

/-- Blocks without code behind all others change no search. -/
theorem startsAt_append {cells : List BlockView} (hCells : ∀ v ∈ cells, v.kind ≠ .code) {j : Nat} :
    StartsAt (views ++ cells) j off ↔ StartsAt views j off := by
  simp only [StartsAt, List.getElem?_append]
  split
  next => rfl
  next hPast =>
    rw [List.getElem?_eq_none (Nat.le_of_not_lt hPast)]
    refine iff_of_false ?_ (by simp)
    rintro ⟨v, hv, hCode, _⟩
    exact hCells v (List.mem_of_getElem? hv) hCode

end Search

end WorkUnit

end TraceJit
