import Mathlib.Algebra.GroupWithZero.Nat
import Mathlib.Algebra.Ring.Int.Defs
import Mathlib.Data.List.Induction
import Mathlib.Data.List.Nodup
import TraceJit.Proofs.Graph.Cut

/-!
The lists of instructions in a unit. They lie in one store and are linked in place, and yet they
stay lists under every sequence of edits that name existing blocks and cut code blocks in front of
nodes of their own: each node is in one list, each list can be followed from both of its ends, and
all counts are those of the lists. A split hands over the end of one list and touches nothing else.
-/

namespace TraceJit

inductive Edit where
  | newBlock (kind : BlockKind) (start : UInt32)
  | append (b : Nat) (insn : Instruction) (off : UInt32)
  /-- Move node `cut` of block `b`, and all that follow it, into a new block. -/
  | split (b cut : Nat)

def Block.edges (b : Block) : List BlockId := [b.taken, b.fallThrough, b.next]

namespace WorkUnit

def edit (u : WorkUnit) : Edit → WorkUnit
  | .newBlock kind start => u.newBlock kind start
  | .append b insn off => u.append b insn off
  | .split b cut => u.split b cut

/-- The list of block `b`: the numbers of its nodes with what they hold. -/
def entriesOf (u : WorkUnit) (b : Nat) : List (NodeId × Placed) :=
  (u.nodesOf (b : BlockId)).map fun x => (x.1, x.2.placed)

def numbersOf (u : WorkUnit) (b : Nat) : List NodeId := (u.entriesOf b).map (·.1)

/-- The change names existing blocks only, and a split cuts a code block at a node of its own. -/
def Proper (u : WorkUnit) : Edit → Prop
  | .newBlock _ _ => True
  | .append b _ _ => b < u.blocks.size
  | .split b cut => (u.blocks[b]?).map (·.kind) = some .code ∧ (cut : NodeId) ∈ u.numbersOf b

instance (u : WorkUnit) (e : Edit) : Decidable (u.Proper e) :=
  match e with
  | .newBlock _ _ => inferInstanceAs (Decidable True)
  | .append _ _ _ => inferInstanceAs (Decidable (_ < _))
  | .split _ _ => inferInstanceAs (Decidable (_ ∧ _))

/-- Units that come from an empty one by proper changes. -/
inductive Edited : WorkUnit → Prop where
  | new {m : Method} {u : WorkUnit} (hNew : WorkUnit.new m = .ok u) : Edited u
  | edit {u : WorkUnit} {e : Edit} (hPrior : Edited u) (hProper : u.Proper e) : Edited (u.edit e)

/-- Following a link from `id` on visits `ids` and then comes to its end. -/
inductive Follows (u : WorkUnit) (link : Node → NodeId) : NodeId → List NodeId → Prop where
  | done : Follows u link noNode []
  | visit {id : NodeId} {n : Node} {ids : List NodeId} (hNode : u.node? id = some n)
      (hRest : Follows u link (link n) ids) : Follows u link id (id :: ids)

/-- The number of instructions that the code blocks count. -/
def countedInsts (u : WorkUnit) : Int :=
  (u.blocks.toList.map fun b => if b.kind = .code then b.numInsts else 0).sum

/-- The unit is made up of lists. The list of a block is what is visited from its first node on, and
backwards what is visited from its last one on. Counts are words of 64 bits. -/
structure WellLinked (u : WorkUnit) : Prop where
  number : ∀ (i : Nat) (b : Block), u.blocks[i]? = some b → b.id = i
  forward : ∀ (i : Nat) (b : Block), u.blocks[i]? = some b →
    u.Follows (·.next) b.first (u.numbersOf i)
  backward : ∀ (i : Nat) (b : Block), u.blocks[i]? = some b →
    u.Follows (·.prev) b.last (u.numbersOf i).reverse
  nodup : ∀ i : Nat, (u.numbersOf i).Nodup
  owner : ∀ (id : NodeId) (n : Node), u.node? id = some n →
    ∃ b < u.blocks.size, n.block = (b : BlockId) ∧ ∀ i : Nat, id ∈ u.numbersOf i ↔ i = b
  count : ∀ (i : Nat) (b : Block), u.blocks[i]? = some b →
    b.numInsts = wrapCount (u.numbersOf i).length
  total : u.numInsts = wrapCount u.countedInsts
  /-- No count wraps as long as there are fewer than `2 ^ 63` nodes. -/
  unwrapped : u.nodes.size < 2 ^ 63 → u.numInsts = u.countedInsts ∧
    ∀ (i : Nat) (b : Block), u.blocks[i]? = some b → b.numInsts = (u.numbersOf i).length

/-- How a unit looks once block `b` was split in front of node `cut`. The new block comes behind all
others. -/
structure Splits (u : WorkUnit) (b cut : Nat) (w : WorkUnit) : Prop where
  size : w.blocks.size = u.blocks.size + 1
  others : ∀ i : Nat, i ≠ b → i ≠ u.blocks.size →
    w.nodesOf (i : BlockId) = u.nodesOf (i : BlockId)
  numInsts : w.numInsts = u.numInsts
  edges : ∀ i < u.blocks.size, (w.blocks[i]?).map (·.edges) = (u.blocks[i]?).map (·.edges)
  joined : u.entriesOf b = w.entriesOf b ++ w.entriesOf u.blocks.size
  head : (w.numbersOf u.blocks.size).head? = some (cut : NodeId)
  tail : ∃ t n, w.blocks[u.blocks.size]? = some t ∧ u.node? (cut : NodeId) = some n ∧
    t.kind = .code ∧ t.start = n.offset ∧ t.edges = [noBlock, noBlock, noBlock]

/-! ### Following links -/

section Links

variable {u : WorkUnit} {b : Nat} {es : List Entry}

theorem exists_node_of_segment {prev after : NodeId} (hSegment : Segment u.nodes b prev es after)
    {e : Entry} (he : e ∈ es) : ∃ p n, u.nodes[e.number]? = some (e.node b p n) := by
  induction es generalizing prev with
  | nil => cases he
  | cons x es ih =>
      obtain ⟨hHead, hRest⟩ := hSegment
      rcases List.mem_cons.mp he with rfl | he
      · exact ⟨prev, _, hHead⟩
      · exact ih hRest he

/-- Forward links visit the entries in their order. -/
theorem follows_next {prev : NodeId} (hSegment : Segment u.nodes b prev es noNode) :
    u.Follows (·.next) (Entry.headId es noNode) (es.map fun e => (e.number : NodeId)) := by
  induction es generalizing prev with
  | nil => exact .done
  | cons e es ih =>
      obtain ⟨hHead, hRest⟩ := hSegment
      exact .visit ((u.node?_natCast e.number).trans hHead) (ih hRest)

/-- Backward links visit them the other way round. -/
theorem follows_prev {after : NodeId} (hSegment : Segment u.nodes b noNode es after) :
    u.Follows (·.prev) (Entry.lastId noNode es) (es.map fun e => (e.number : NodeId)).reverse := by
  induction es using List.reverseRecOn generalizing after with
  | nil => exact .done
  | append_singleton es e ih =>
      rw [Segment.concat_iff] at hSegment
      rw [Entry.lastId_concat, List.map_append, List.map_singleton, List.reverse_append]
      exact .visit ((u.node?_natCast e.number).trans hSegment.2) (ih hSegment.1)

end Links

/-! ### Lists and views -/

namespace Represents

variable {u w : WorkUnit} {views views' : List BlockView} {i : Nat} {v : BlockView}

theorem entriesOf_eq (h : u.Represents views) (hv : views[i]? = some v) :
    u.entriesOf i = v.body.map fun e => ((e.number : NodeId), e.placed) := by
  rw [entriesOf, h.nodesOf_eq hv, Entry.nodes_map]

/-- The nodes of a block are those of its entries. -/
theorem numbersOf_eq (h : u.Represents views) (hv : views[i]? = some v) :
    u.numbersOf i = v.body.map fun e => (e.number : NodeId) := by
  rw [numbersOf, h.entriesOf_eq hv, List.map_map]
  rfl

theorem nodesOf_of_none (h : u.Represents views) (hv : views[i]? = none) :
    u.nodesOf (i : BlockId) = [] := by
  rw [nodesOf, h.block?_eq, hv]
  rfl

theorem exists_of_mem_numbersOf (h : u.Represents views) {id : NodeId}
    (hMem : id ∈ u.numbersOf i) :
    ∃ v, views[i]? = some v ∧ ∃ e ∈ v.body, id = (e.number : NodeId) := by
  cases hv : views[i]? with
  | none =>
      rw [numbersOf, entriesOf, h.nodesOf_of_none hv] at hMem
      cases hMem
  | some v =>
      rw [h.numbersOf_eq hv] at hMem
      obtain ⟨e, he, rfl⟩ := List.mem_map.mp hMem
      exact ⟨v, rfl, e, he, rfl⟩

/-- Units that have the same view of a block have the same list there. -/
theorem nodesOf_congr (h : u.Represents views) (h' : w.Represents views')
    (hSame : views'[i]? = views[i]?) : w.nodesOf (i : BlockId) = u.nodesOf (i : BlockId) := by
  cases hv : views[i]? with
  | none => rw [h.nodesOf_of_none hv, h'.nodesOf_of_none (hSame.trans hv)]
  | some v => rw [h.nodesOf_eq hv, h'.nodesOf_eq (hSame.trans hv)]

/-- No block has a node twice. -/
theorem nodup_numbersOf (h : u.Represents views) (i : Nat) : (u.numbersOf i).Nodup := by
  cases hv : views[i]? with
  | none =>
      rw [numbersOf, entriesOf, h.nodesOf_of_none hv]
      exact List.nodup_nil
  | some v =>
      have hNodup := (h.nodup_body (List.mem_of_getElem? hv)).map
        (f := Int.ofNat) fun _ _ => Int.ofNat_inj.mp
      rw [h.numbersOf_eq hv]
      rwa [List.map_map] at hNodup

/-- Every node is in the list of the block that it names, and in no other one. -/
theorem owner (h : u.Represents views) {id : NodeId} {n : Node} (hNode : u.node? id = some n) :
    ∃ b < u.blocks.size, n.block = (b : BlockId) ∧ ∀ i : Nat, id ∈ u.numbersOf i ↔ i = b := by
  obtain ⟨k, rfl⟩ : ∃ k : Nat, id = k := by
    unfold node? at hNode
    split at hNode
    next hSome => exact Int.eq_ofNat_of_zero_le hSome
    next => cases hNode
  rw [node?_natCast] at hNode
  -- A list that holds the node belongs to the block that the node names.
  have hNamed : ∀ i : Nat, (k : NodeId) ∈ u.numbersOf i → n.block = (i : BlockId) := by
    intro i hMem
    obtain ⟨v, hv, e, he, hNumber⟩ := h.exists_of_mem_numbersOf hMem
    obtain ⟨p, next, hStored⟩ := exists_node_of_segment (h.linked i v hv) he
    rw [← Int.ofNat_inj.mp hNumber, hNode, Option.some.injEq] at hStored
    rw [hStored]
    rfl
  -- There is such a list, for all numbers are those of some entry.
  have hRange : k ∈ (views.flatMap (·.body)).map (·.number) :=
    h.numbers.mem_iff.mpr (List.mem_range.mpr (Array.getElem?_eq_some_iff.mp hNode).1)
  obtain ⟨e, he, rfl⟩ := List.mem_map.mp hRange
  obtain ⟨v, hMem, heBody⟩ := List.mem_flatMap.mp he
  obtain ⟨b, hb, hv⟩ := List.getElem_of_mem hMem
  have hView : views[b]? = some v := by rw [List.getElem?_eq_getElem hb, hv]
  have hListed : (e.number : NodeId) ∈ u.numbersOf b := by
    rw [h.numbersOf_eq hView]
    exact List.mem_map_of_mem heBody
  refine ⟨b, h.size_eq ▸ hb, hNamed b hListed, fun i => ⟨fun hi => ?_, fun hi => hi ▸ hListed⟩⟩
  exact Int.ofNat_inj.mp ((hNamed i hi).symm.trans (hNamed b hListed))

end Represents

/-! ### Counts -/

def codeLength (views : List BlockView) : Nat :=
  (views.map fun v => if v.kind = .code then v.body.length else 0).sum

@[simp] theorem codeLength_nil : codeLength [] = 0 := by
  simp [codeLength]

@[simp] theorem codeLength_cons (v : BlockView) (views : List BlockView) :
    codeLength (v :: views) = (if v.kind = .code then v.body.length else 0) + codeLength views := by
  simp [codeLength]

@[simp] theorem codeLength_append (p q : List BlockView) :
    codeLength (p ++ q) = codeLength p + codeLength q := by
  simp [codeLength]

theorem codeLength_le (views : List BlockView) :
    codeLength views ≤ (views.flatMap (·.body)).length := by
  induction views with
  | nil => exact Nat.le_refl _
  | cons v views ih =>
      rw [codeLength_cons, List.flatMap_cons, List.length_append]
      split <;> omega

/-- A sum of counts wraps to what the sum of all entries wraps to. -/
theorem wrapCount_sum (views : List BlockView) :
    wrapCount (views.map fun v => if v.kind = .code then wrapCount v.body.length else 0).sum =
      wrapCount (codeLength views) := by
  induction views with
  | nil => rfl
  | cons v views ih =>
      rw [List.map_cons, List.sum_cons, codeLength_cons, Int.natCast_add]
      split
      next => rw [wrapCount_wrapCount_add, Int.add_comm, ← wrapCount_wrapCount_add, ih,
        wrapCount_wrapCount_add, Int.add_comm]
      next => rw [Int.zero_add, ih, Int.natCast_zero, Int.zero_add]

namespace Represents

variable {u : WorkUnit} {views : List BlockView}

/-- The counts of the blocks, each wrapped. -/
theorem countedInsts_eq (h : u.Represents views) :
    u.countedInsts =
      (views.map fun v => if v.kind = .code then wrapCount v.body.length else 0).sum := by
  have hEach : ∀ (v : BlockView) (i : Nat),
      (if (v.block i).kind = .code then (v.block i).numInsts else 0) =
        if v.kind = .code then wrapCount v.body.length else 0 := by
    intro v i
    exact if_congr Iff.rfl (by simp only [BlockView.block]) rfl
  rw [countedInsts, h.map_blocks hEach]

/-- Counts do not wrap as long as there are few nodes. -/
theorem countedInsts_of_lt (h : u.Represents views) (hSmall : u.nodes.size < 2 ^ 63) :
    u.countedInsts = codeLength views := by
  have hEach : ∀ v ∈ views, wrapCount v.body.length = v.body.length := fun v hv =>
    wrapCount_natCast (Nat.lt_of_le_of_lt (h.body_length_le hv) hSmall)
  rw [h.countedInsts_eq, codeLength]
  clear h
  induction views with
  | nil => rfl
  | cons v views ih =>
      rw [List.forall_mem_cons] at hEach
      rw [List.map_cons, List.sum_cons, List.map_cons, List.sum_cons, Int.natCast_add, ih hEach.2,
        hEach.1]
      split <;> rfl

/-- A unit that is seen as lists and counts their entries is well linked. -/
theorem wellLinked (h : u.Represents views) (hCount : u.numInsts = wrapCount (codeLength views)) :
    u.WellLinked where
  number i b hBlock := by
    obtain ⟨v, _, rfl⟩ := h.exists_view hBlock
    rfl
  forward i b hBlock := by
    obtain ⟨v, hv, rfl⟩ := h.exists_view hBlock
    rw [h.numbersOf_eq hv]
    exact follows_next (h.linked i v hv)
  backward i b hBlock := by
    obtain ⟨v, hv, rfl⟩ := h.exists_view hBlock
    rw [h.numbersOf_eq hv]
    exact follows_prev (h.linked i v hv)
  nodup := h.nodup_numbersOf
  owner _ _ := h.owner
  count i b hBlock := by
    obtain ⟨v, hv, rfl⟩ := h.exists_view hBlock
    simp only [h.numbersOf_eq hv, List.length_map, BlockView.block]
  total := by rw [hCount, h.countedInsts_eq, wrapCount_sum]
  unwrapped hSmall := by
    have hNodes := h.numbers.length_eq
    rw [List.length_map, List.length_range] at hNodes
    refine ⟨?_, fun i b hBlock => ?_⟩
    · rw [h.countedInsts_of_lt hSmall, hCount, wrapCount_natCast]
      exact Nat.lt_of_le_of_lt (codeLength_le views) (hNodes ▸ hSmall)
    · obtain ⟨v, hv, rfl⟩ := h.exists_view hBlock
      have hShort := Nat.lt_of_le_of_lt (h.body_length_le (List.mem_of_getElem? hv)) hSmall
      simp only [h.numbersOf_eq hv, List.length_map, BlockView.block, wrapCount_natCast hShort]

end Represents

/-! ### Edits -/

theorem exists_around {views : List BlockView} {b : Nat} {v : BlockView}
    (hv : views[b]? = some v) : ∃ pre post, views = pre ++ v :: post ∧ pre.length = b := by
  obtain ⟨hb, rfl⟩ := List.getElem?_eq_some_iff.mp hv
  refine ⟨views.take b, views.drop (b + 1), ?_, List.length_take_of_le (Nat.le_of_lt hb)⟩
  rw [List.getElem_cons_drop, List.take_append_drop]

theorem append_numInsts_of_ne {u : WorkUnit} {b : Nat} {blk : Block}
    (hBlock : u.blocks[b]? = some blk) (hKind : blk.kind ≠ .code) (insn : Instruction)
    (off : UInt32) : (u.append b insn off).numInsts = u.numInsts := by
  rw [← block?_natCast] at hBlock
  simp only [WorkUnit.append, hBlock, if_neg hKind, modifyBlock_numInsts, modifyNode_numInsts]

/-- A proper split, as it shows in the views: one body is cut in two. -/
theorem Represents.exists_cut {u : WorkUnit} {views : List BlockView} (h : u.Represents views)
    {b cut : Nat} (hProper : u.Proper (.split b cut)) :
    ∃ pre v post front c back, views = pre ++ v :: post ∧ pre.length = b ∧ v.kind = .code ∧
      v.body = front ++ c :: back ∧ c.number = cut := by
  obtain ⟨hKind, hMem⟩ := hProper
  obtain ⟨v, hv, c, hc, hNumber⟩ := h.exists_of_mem_numbersOf hMem
  rw [h.blocks, hv] at hKind
  obtain ⟨pre, post, hViews, hLength⟩ := exists_around hv
  obtain ⟨front, back, hBody⟩ := List.append_of_mem hc
  exact ⟨pre, v, post, front, c, back, hViews, hLength, Option.some.inj hKind, hBody,
    (Int.ofNat_inj.mp hNumber).symm⟩

/-- What one proper edit keeps: the unit can still be seen as lists, and it counts their entries. -/
theorem Represents.exists_edit {u : WorkUnit} {views : List BlockView} (h : u.Represents views)
    (hCount : u.numInsts = wrapCount (codeLength views)) {e : Edit} (hProper : u.Proper e) :
    ∃ views', (u.edit e).Represents views' ∧
      (u.edit e).numInsts = wrapCount (codeLength views') := by
  cases e with
  | newBlock kind start =>
      refine ⟨_, h.newBlock kind start, ?_⟩
      change u.numInsts = _
      simpa using hCount
  | append b insn off =>
      obtain ⟨v, hv⟩ : ∃ v, views[b]? = some v :=
        ⟨_, List.getElem?_eq_getElem (h.size_eq ▸ hProper)⟩
      obtain ⟨pre, post, rfl, rfl⟩ := exists_around hv
      refine ⟨_, h.append insn off, ?_⟩
      by_cases hKind : v.kind = .code
      · rw [edit, append_numInsts h.getElem?_blocks hKind, hCount, wrapCount_wrapCount_add]
        congr 1
        simp only [codeLength_append, codeLength_cons, BlockView.add, hKind, if_true,
          List.length_append, List.length_singleton]
        omega
      · rw [edit, append_numInsts_of_ne h.getElem?_blocks hKind, hCount]
        simp only [codeLength_append, codeLength_cons, BlockView.add, hKind, if_false]
  | split b cut =>
      obtain ⟨pre, v, post, front, c, back, rfl, rfl, hKind, hBody, rfl⟩ := h.exists_cut hProper
      refine ⟨_, h.split hBody, ?_⟩
      rw [edit, split_numInsts, hCount]
      congr 1
      simp only [codeLength_append, codeLength_cons, codeLength_nil, hKind, if_true, hBody,
        List.length_append, List.length_cons]
      omega

/-- Every unit that is edited as allowed has views, and counts the entries of its code blocks. -/
theorem Edited.exists_represents {u : WorkUnit} (h : u.Edited) :
    ∃ views, u.Represents views ∧ u.numInsts = wrapCount (codeLength views) := by
  induction h with
  | new hNew =>
      have hFresh := fresh_of_new hNew
      exact ⟨[], hFresh.represents, hFresh.numInsts⟩
  | edit _ hProper ih =>
      obtain ⟨views, hViews, hCount⟩ := ih
      exact hViews.exists_edit hCount hProper

/-- A proper split changes two lists and no edge. -/
theorem Represents.splits {u : WorkUnit} {views : List BlockView} (h : u.Represents views)
    {b cut : Nat} (hProper : u.Proper (.split b cut)) : u.Splits b cut (u.split b cut) := by
  obtain ⟨pre, v, post, front, c, back, rfl, rfl, _, hBody, rfl⟩ := h.exists_cut hProper
  have hSplit := h.split hBody
  have hSize := h.size_eq
  have hCut := getElem?_cut pre post v { v with body := front }
    { kind := .code, start := c.placed.offset, body := c :: back }
  have hHead : pre.length ≠ u.blocks.size := by
    rw [hSize, List.length_append, List.length_cons]
    omega
  have hTail := hCut u.blocks.size
  rw [if_neg hHead.symm, ← hSize, if_pos rfl] at hTail
  exact {
    size := by
      rw [hSplit.size_eq, hSize]
      simp only [List.length_append, List.length_cons, List.length_nil]
      omega
    others := fun i hi hNew => by
      refine h.nodesOf_congr hSplit ?_
      rw [hCut, if_neg hi, ← hSize, if_neg hNew]
    numInsts := split_numInsts u _ _
    edges := fun i hi => by
      rw [hSplit.blocks, h.blocks, hCut, ← hSize, if_neg (Nat.ne_of_lt hi)]
      split
      next hFirst => rw [hFirst, getElem?_pre_length]; rfl
      next => rfl
    joined := by
      rw [h.entriesOf_eq (getElem?_pre_length pre post v),
        hSplit.entriesOf_eq (getElem?_pre_length pre _ _), hSplit.entriesOf_eq hTail, hBody,
        List.map_append]
    head := by
      rw [hSplit.numbersOf_eq hTail]
      rfl
    tail := by
      have hLinked := h.linked _ _ (getElem?_pre_length pre post v)
      obtain ⟨p, n, hNode⟩ := exists_node_of_segment hLinked (e := c) (by simp [hBody])
      exact ⟨_, _, by rw [hSplit.blocks, hTail]; rfl, by rw [node?_natCast, hNode], rfl, rfl, rfl⟩ }

/-- Whatever proper edits a unit has gone through, it is well linked, and a split of a code block at
any node of its own leaves the first part of the list in place and makes the rest the list of a new
block. -/
theorem edited_wellLinked {u : WorkUnit} (h : u.Edited) :
    u.WellLinked ∧
    ∀ b cut : Nat, u.Proper (.split b cut) → u.Splits b cut (u.split b cut) := by
  obtain ⟨views, hViews, hCount⟩ := h.exists_represents
  exact ⟨hViews.wellLinked hCount, fun b cut hProper => hViews.splits hProper⟩

/-- A code block of three instructions and a cell of one, added in turns. -/
def interleaved : WorkUnit :=
  [.newBlock .code 0, .append 0 .zero 0, .newBlock .chainHot 7, .append 1 .zero 7,
    .append 0 .zero 1, .append 0 .zero 2].foldl edit (loose loopCode none)

/-- The code block is cut between its first two nodes, whose numbers are not next to each other. -/
theorem edited_wellLinked_interleaved :
    interleaved.Edited ∧ interleaved.numbersOf 0 = [0, 2, 3] ∧
    interleaved.WellLinked ∧ interleaved.Splits 0 2 (interleaved.split 0 2) := by
  have hNew : (loose loopCode none).Edited := .new (m := (loose loopCode none).method) rfl
  have hCode := (hNew.edit (e := .newBlock .code 0) trivial).edit (e := .append 0 .zero 0)
    (by decide)
  have hCell := (hCode.edit (e := .newBlock .chainHot 7) trivial).edit (e := .append 1 .zero 7)
    (by decide)
  have hEdited : interleaved.Edited :=
    (hCell.edit (e := .append 0 .zero 1) (by decide)).edit (e := .append 0 .zero 2) (by decide)
  obtain ⟨hLinked, hSplits⟩ := edited_wellLinked hEdited
  exact ⟨hEdited, by decide, hLinked, hSplits 0 2 (by decide)⟩

end WorkUnit

end TraceJit
