import TraceJit.Proofs.Graph.WellLinked

/-!
Links of a unit that was edited without care. A split may name a node of another block, or a block
that holds no code; the lists may then share nodes, and counts may fall below zero. What is left is
an order that no edit mentions and every edit keeps: a node leads to a node of a larger number, if
to any.
-/

namespace TraceJit.WorkUnit

/-- The change names blocks and nodes that exist. They need not have to do with each other. -/
def InRange (u : WorkUnit) : Edit → Prop
  | .newBlock _ _ => True
  | .append b _ _ => b < u.blocks.size
  | .split b cut => b < u.blocks.size ∧ cut < u.nodes.size

instance (u : WorkUnit) (e : Edit) : Decidable (u.InRange e) :=
  match e with
  | .newBlock _ _ => inferInstanceAs (Decidable True)
  | .append _ _ _ => inferInstanceAs (Decidable (_ < _))
  | .split _ _ => inferInstanceAs (Decidable (_ ∧ _))

/-- Units of a method or a trace that come from an empty one by any changes in range. -/
inductive Handled : WorkUnit → Prop where
  | new {u : WorkUnit} (hFresh : u.Fresh) : Handled u
  | edit {u : WorkUnit} {e : Edit} (hPrior : Handled u) (hRange : u.InRange e) : Handled (u.edit e)

/-- The number of no node, or of a node there is. -/
def Refers (u : WorkUnit) (id : NodeId) : Prop :=
  id = noNode ∨ ∃ m < u.nodes.size, id = (m : Nat)

/-- The number of no node, or of a node that comes behind number `k`. -/
def RefersBehind (u : WorkUnit) (k : Nat) (id : NodeId) : Prop :=
  id = noNode ∨ ∃ m < u.nodes.size, id = (m : Nat) ∧ k < m

/-- Nodes lead to nodes of larger numbers only, and all other references are to nodes there are. -/
structure NextLarger (u : WorkUnit) : Prop where
  links : ∀ (k : Nat) (n : Node), u.nodes[k]? = some n → u.RefersBehind k n.next ∧ u.Refers n.prev
  ends : ∀ (i : Nat) (b : Block), u.blocks[i]? = some b → u.Refers b.first ∧ u.Refers b.last

section Refers

variable {u w : WorkUnit} {id : NodeId} {k : Nat}

theorem refers_noNode (u : WorkUnit) : u.Refers noNode := .inl rfl

theorem refers_natCast (hk : k < u.nodes.size) : u.Refers (k : Nat) := .inr ⟨k, hk, rfl⟩

theorem Refers.mono (h : u.Refers id) (hSize : u.nodes.size ≤ w.nodes.size) : w.Refers id :=
  h.imp_right fun ⟨m, hm, hId⟩ => ⟨m, Nat.lt_of_lt_of_le hm hSize, hId⟩

theorem RefersBehind.mono (h : u.RefersBehind k id) (hSize : u.nodes.size ≤ w.nodes.size) :
    w.RefersBehind k id :=
  h.imp_right fun ⟨m, hm, hId⟩ => ⟨m, Nat.lt_of_lt_of_le hm hSize, hId⟩

theorem refers_modifyNode {i : NodeId} {f : Node → Node} :
    (u.modifyNode i f).Refers id ↔ u.Refers id := by
  rw [Refers, Refers, size_nodes_modifyNode]

theorem refers_modifyBlock {i : BlockId} {f : Block → Block} :
    (u.modifyBlock i f).Refers id ↔ u.Refers id := by
  rw [Refers, Refers, modifyBlock_nodes]

end Refers

/-! ### What edits are made of -/

namespace NextLarger

variable {u w : WorkUnit}

theorem congr (h : u.NextLarger) (hBlocks : w.blocks = u.blocks) (hNodes : w.nodes = u.nodes) :
    w.NextLarger := by
  have hSize : u.nodes.size ≤ w.nodes.size := by rw [hNodes]
  constructor
  · intro k n hNode
    rw [hNodes] at hNode
    exact (h.links k n hNode).imp (·.mono hSize) (·.mono hSize)
  · intro i b hBlock
    rw [hBlocks] at hBlock
    exact (h.ends i b hBlock).imp (·.mono hSize) (·.mono hSize)

/-- A new block has no nodes. -/
theorem newBlock (h : u.NextLarger) (kind : BlockKind) (start : UInt32) :
    (u.newBlock kind start).NextLarger := by
  refine ⟨h.links, fun i b hBlock => ?_⟩
  rw [WorkUnit.newBlock, Array.getElem?_push] at hBlock
  split at hBlock
  · obtain rfl := Option.some.inj hBlock
    exact ⟨refers_noNode u, refers_noNode u⟩
  · exact h.ends i b hBlock

/-- Change a block. Its ends have to stay references to nodes there are. -/
theorem modifyBlock (h : u.NextLarger) (id : BlockId) {f : Block → Block}
    (hEnds : ∀ b, u.Refers b.first → u.Refers b.last →
      u.Refers (f b).first ∧ u.Refers (f b).last) :
    (u.modifyBlock id f).NextLarger := by
  unfold WorkUnit.modifyBlock
  split
  · refine ⟨h.links, fun i b hBlock => ?_⟩
    rw [Array.getElem?_modify] at hBlock
    split at hBlock
    · obtain ⟨c, hc, rfl⟩ := Option.map_eq_some_iff.mp hBlock
      exact hEnds c (h.ends i c hc).1 (h.ends i c hc).2
    · exact h.ends i b hBlock
  · exact h

/-- Change a node. It has to stay in front of the node that it leads to. -/
theorem modifyNode (h : u.NextLarger) (id : NodeId) {f : Node → Node}
    (hLinks : ∀ (k : Nat) (n : Node), id = k → u.RefersBehind k n.next → u.Refers n.prev →
      u.RefersBehind k (f n).next ∧ u.Refers (f n).prev) :
    (u.modifyNode id f).NextLarger := by
  have hSize := Nat.le_of_eq (size_nodes_modifyNode u id f).symm
  constructor
  · intro k n hNode
    suffices hOld : u.RefersBehind k n.next ∧ u.Refers n.prev from
      hOld.imp (·.mono hSize) (·.mono hSize)
    unfold WorkUnit.modifyNode at hNode
    split at hNode
    next hSome =>
      rw [Array.getElem?_modify] at hNode
      split at hNode
      next hEq =>
        obtain ⟨m, hm, rfl⟩ := Option.map_eq_some_iff.mp hNode
        have hId : id = (k : Nat) := by rw [← hEq, Int.toNat_of_nonneg hSome]
        exact hLinks k m hId (h.links k m hm).1 (h.links k m hm).2
      next => exact h.links k n hNode
    next => exact h.links k n hNode
  · intro i b hBlock
    rw [modifyNode_blocks] at hBlock
    exact (h.ends i b hBlock).imp (·.mono hSize) (·.mono hSize)

/-- Change what a node holds, but not where it leads. -/
theorem modifyNode_block (h : u.NextLarger) (id : NodeId) (b : BlockId) :
    (u.modifyNode id fun n => { n with block := b }).NextLarger :=
  h.modifyNode id fun _ _ _ hNext hPrev => ⟨hNext, hPrev⟩

theorem foldl_modifyNode_block (h : u.NextLarger) (ids : List (NodeId × Node)) (b : BlockId) :
    (ids.foldl (fun u x => u.modifyNode x.1 fun n => { n with block := b }) u).NextLarger := by
  induction ids generalizing u with
  | nil => exact h
  | cons x ids ih => exact ih (h.modifyNode_block x.1 b)

/-- Add a node that leads nowhere yet. -/
theorem pushNode (h : u.NextLarger) {n : Node} (hNext : n.next = noNode) (hPrev : u.Refers n.prev) :
    NextLarger { u with nodes := u.nodes.push n } := by
  have hSize : u.nodes.size ≤ (u.nodes.push n).size := by
    rw [Array.size_push]
    exact Nat.le_succ _
  constructor
  · intro k m hNode
    rw [Array.getElem?_push] at hNode
    split at hNode
    · obtain rfl := Option.some.inj hNode
      exact ⟨.inl hNext, hPrev.mono hSize⟩
    · exact (h.links k m hNode).imp (·.mono hSize) (·.mono hSize)
  · intro i b hBlock
    exact (h.ends i b hBlock).imp (·.mono hSize) (·.mono hSize)

/-! ### Edits -/

/-- A node that is appended is behind all others, and leads nowhere yet. -/
theorem append (h : u.NextLarger) {b : Nat} (hRange : b < u.blocks.size) (insn : Instruction)
    (off : UInt32) : (u.append b insn off).NextLarger := by
  have hBlock : u.blocks[b]? = some u.blocks[b] := Array.getElem?_eq_getElem hRange
  have hLast := (h.ends b _ hBlock).2
  have hPushed := h.pushNode (n := Entry.node ⟨u.nodes.size, ⟨off, insn⟩⟩ b u.blocks[b].last noNode)
    rfl hLast
  generalize hUnit : ({ u with nodes := u.nodes.push _ } : WorkUnit) = pushed at hPushed
  have hNew : u.nodes.size < pushed.nodes.size := by
    rw [← hUnit, Array.size_push]
    exact Nat.lt_succ_self _
  -- The new node comes behind all others, so the one that leads to it leads to a larger number.
  have hLinked := hPushed.modifyNode u.blocks[b].last (f := fun n => { n with next := u.nextNode })
    fun k n hk _ hPrev => by
      refine ⟨.inr ⟨u.nodes.size, hNew, rfl, ?_⟩, hPrev⟩
      rcases hLast with hNone | ⟨m, hm, hId⟩
      · exact absurd (hk.symm.trans hNone) (natCast_ne_noNode k)
      · have hSame : (k : NodeId) = (m : Nat) := hk.symm.trans hId
        exact Int.ofNat_inj.mp hSame ▸ hm
  have hGrown := hLinked.modifyBlock (b : BlockId) (f := grow u.nextNode) fun blk hFirst _ => by
    rw [refers_modifyNode] at hFirst
    rw [refers_modifyNode, refers_modifyNode, grow]
    refine ⟨?_, refers_natCast hNew⟩
    split
    · exact refers_natCast hNew
    · exact hFirst
  refine hGrown.congr ?_ ?_
  · rw [append_blocks hBlock, modifyBlock_natCast, modifyNode_blocks, ← hUnit]
  · rw [append_nodes hBlock, modifyBlock_nodes, hUnit]

end NextLarger

/-- The unit in which a split starts to hand nodes over. Both blocks have their ends and the chain
is cut, but all nodes still name the old block. -/
def detached (u : WorkUnit) (b cut : Nat) (node : Node) (head : Block) : WorkUnit :=
  ((((u.newBlock .code node.offset).modifyBlock u.nextBlock
      fun t => { t with first := (cut : NodeId), last := head.last }).modifyBlock b
      fun h => { h with
        last := node.prev, first := if node.prev = noNode then noNode else h.first }).modifyNode
      node.prev fun n => { n with next := noNode }).modifyNode cut
      fun n => { n with prev := noNode }

/-- Count so many nodes over from block `b` to block `tail`. -/
def recount (u : WorkUnit) (b tail : BlockId) (moved : Nat) : WorkUnit :=
  (u.modifyBlock tail fun t => { t with numInsts := wrapCount (t.numInsts + moved) }).modifyBlock b
    fun h => { h with numInsts := wrapCount (h.numInsts - moved) }

theorem split_eq_recount {u : WorkUnit} {b cut : Nat} {node : Node} {head : Block}
    (hNode : u.nodes[cut]? = some node) (hHead : u.blocks[b]? = some head) :
    u.split b cut =
      let w := u.detached b cut node head
      ((w.chain cut).foldl
        (fun w x => w.modifyNode x.1 fun n => { n with block := u.nextBlock }) w).recount b
          u.nextBlock (w.chain cut).length := by
  have hFound : (u.newBlock .code node.offset).block? (b : BlockId) = some head := by
    have hb : b < u.blocks.size := (Array.getElem?_eq_some_iff.mp hHead).1
    rw [block?_natCast, newBlock, Array.getElem?_push, if_neg (Nat.ne_of_lt hb), hHead]
  rw [← node?_natCast] at hNode
  simp only [WorkUnit.split, hNode, hFound]
  rfl

namespace NextLarger

variable {u : WorkUnit} {b cut : Nat} {node : Node} {head : Block}

/-- A node that leads its chain is cut off before it leads anywhere else. -/
theorem detached (h : u.NextLarger) (hNode : u.nodes[cut]? = some node)
    (hHead : u.blocks[b]? = some head) : (u.detached b cut node head).NextLarger := by
  have hCut : cut < u.nodes.size := (Array.getElem?_eq_some_iff.mp hNode).1
  have hPrev := (h.links cut node hNode).2
  have hLast := (h.ends b head hHead).2
  -- The ends of the two blocks are the cut, its predecessor, and the ends that there were.
  have hTail := (h.newBlock .code node.offset).modifyBlock u.nextBlock
    (f := fun t => { t with first := (cut : NodeId), last := head.last })
    fun _ _ _ => ⟨refers_natCast hCut, hLast⟩
  have hFront := hTail.modifyBlock (b : BlockId)
    (f := fun t => { t with
      last := node.prev, first := if node.prev = noNode then noNode else t.first })
    fun t hFirst _ => by
      refine ⟨?_, refers_modifyBlock.mpr hPrev⟩
      split
      · exact refers_noNode _
      · exact hFirst
  -- Links are removed only.
  have hApart := hFront.modifyNode node.prev (f := fun n => { n with next := noNode })
    fun _ _ _ _ hPrior => ⟨.inl rfl, hPrior⟩
  exact hApart.modifyNode (cut : NodeId) fun _ _ _ hNext _ => ⟨hNext, refers_noNode _⟩

theorem recount (h : u.NextLarger) (b tail : BlockId) (moved : Nat) :
    (u.recount b tail moved).NextLarger := by
  rw [WorkUnit.recount]
  refine NextLarger.modifyBlock (NextLarger.modifyBlock h tail ?_) b ?_
  · exact fun _ hFirst hLast => ⟨hFirst, hLast⟩
  · exact fun _ hFirst hLast => ⟨hFirst, hLast⟩

/-- A split adds no link between nodes. -/
theorem split (h : u.NextLarger) (hNode : u.nodes[cut]? = some node)
    (hHead : u.blocks[b]? = some head) : (u.split b cut).NextLarger := by
  rw [split_eq_recount hNode hHead]
  exact ((h.detached hNode hHead).foldl_modifyNode_block _ _).recount _ _ _

end NextLarger

/-- What one edit in range keeps. -/
theorem NextLarger.edit {u : WorkUnit} (h : u.NextLarger) {e : Edit} (hRange : u.InRange e) :
    (u.edit e).NextLarger := by
  cases e with
  | newBlock kind start => exact h.newBlock kind start
  | append b insn off => exact h.append hRange insn off
  | split b cut =>
      exact h.split (Array.getElem?_eq_getElem hRange.2) (Array.getElem?_eq_getElem hRange.1)

/-- Every unit that is edited within its range has links that go up. -/
theorem Handled.nextLarger {u : WorkUnit} (h : u.Handled) : u.NextLarger := by
  induction h with
  | new hFresh =>
      constructor
      · intro k n hNode
        simp [hFresh.nodes] at hNode
      · intro i b hBlock
        simp [hFresh.blocks] at hBlock
  | edit _ hRange ih => exact ih.edit hRange

end TraceJit.WorkUnit
