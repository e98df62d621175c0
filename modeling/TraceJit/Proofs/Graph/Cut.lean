import TraceJit.Proofs.Graph.Edit

/-!
Splitting a block. The end of its chain is unlinked, handed over node by node and closed off as
the chain of a new block; on views this moves the end of one body behind all other blocks.
-/

namespace TraceJit.WorkUnit

theorem modifyNode_nodes_congr {u w : WorkUnit} (hNodes : u.nodes = w.nodes) (i : NodeId)
    (f : Node → Node) : (u.modifyNode i f).nodes = (w.modifyNode i f).nodes := by
  unfold modifyNode
  split
  · exact congrArg (·.modify i.toNat f) hNodes
  · exact hNodes

theorem chainFrom_congr {u w : WorkUnit} (hNodes : u.nodes = w.nodes) (fuel : Nat) (id : NodeId) :
    u.chainFrom fuel id = w.chainFrom fuel id := by
  induction fuel generalizing id with
  | zero => rfl
  | succ fuel ih =>
      have hNode : u.node? id = w.node? id := by rw [node?, node?, hNodes]
      rw [chainFrom, chainFrom, hNode]
      cases w.node? id with
      | none => rfl
      | some n => exact congrArg _ (ih n.next)

/-- A chain depends on the nodes only. -/
theorem chain_congr {u w : WorkUnit} (hNodes : u.nodes = w.nodes) (id : NodeId) :
    u.chain id = w.chain id := by
  rw [chain, chain, hNodes, chainFrom_congr hNodes]

theorem foldl_modifyNode_congr {u w : WorkUnit} (hNodes : u.nodes = w.nodes)
    (ids : List (NodeId × Node)) (f : Node → Node) :
    (ids.foldl (fun u x => u.modifyNode x.1 f) u).nodes =
      (ids.foldl (fun u x => u.modifyNode x.1 f) w).nodes := by
  induction ids generalizing u w with
  | nil => exact hNodes
  | cons x ids ih => exact ih (modifyNode_nodes_congr hNodes x.1 f)

/-- Changing every node of a chain changes the store at the numbers of the chain only. -/
theorem getElem?_foldl_modifyNode (u : WorkUnit) {b : Nat} {prev after : NodeId} {es : List Entry}
    (f : Node → Node) (hNodup : (es.map (·.number)).Nodup) (i : Nat) :
    ((Entry.nodes b prev es after).foldl (fun u x => u.modifyNode x.1 f) u).nodes[i]? =
      if i ∈ es.map (·.number) then (u.nodes[i]?).map f else u.nodes[i]? := by
  induction es generalizing u prev with
  | nil => simp [Entry.nodes]
  | cons e es ih =>
      rw [List.map_cons, List.nodup_cons] at hNodup
      rw [Entry.nodes, List.foldl_cons, ih _ hNodup.2, modifyNode_natCast, Array.getElem?_modify]
      by_cases hi : i = e.number
      · rw [hi, if_neg hNodup.1, if_pos rfl, if_pos (by simp)]
      · simp only [if_neg (Ne.symm hi), List.map_cons, List.mem_cons, hi, false_or]

/-- The store once a chain is cut in front of node `cut`, before its end changes owner. -/
def unlinked (u : WorkUnit) (node : Node) (cut : Nat) : WorkUnit :=
  (u.modifyNode node.prev fun n => { n with next := noNode }).modifyNode cut
    fun n => { n with prev := noNode }

section Split

variable {u : WorkUnit} {b cut : Nat} {node : Node} {head : Block}

/-- The unit right before a split hands the end of the chain over to the new block. -/
private theorem exists_split_eq (hNode : u.nodes[cut]? = some node)
    (hHead : u.blocks[b]? = some head) :
    ∃ w : WorkUnit, w.nodes = (u.unlinked node cut).nodes ∧
      w.blocks = ((u.blocks.push (.empty u.nextBlock .code node.offset)).modify u.blocks.size
          fun t => { t with first := (cut : NodeId), last := head.last }).modify b
        (fun h => { h with
          last := node.prev, first := if node.prev = noNode then noNode else h.first }) ∧
      u.split b cut =
        (((w.chain cut).foldl
            (fun w x => w.modifyNode x.1 fun n => { n with block := u.nextBlock }) w).modifyBlock
          (u.blocks.size : Nat) fun t =>
            { t with numInsts := wrapCount (t.numInsts + (w.chain cut).length) }).modifyBlock
          b fun h => { h with numInsts := wrapCount (h.numInsts - (w.chain cut).length) } := by
  have hFound : (u.newBlock .code node.offset).block? (b : BlockId) = some head := by
    have hb : b < u.blocks.size := (Array.getElem?_eq_some_iff.mp hHead).1
    rw [block?_natCast, newBlock, Array.getElem?_push, if_neg (Nat.ne_of_lt hb), hHead]
  rw [← node?_natCast] at hNode
  refine ⟨_, ?_, ?_, by simp only [WorkUnit.split, hNode, hFound]; rfl⟩
  · exact modifyNode_nodes_congr (modifyNode_nodes_congr (by simp [newBlock]) _ _) _ _
  · simp only [modifyNode_blocks, modifyBlock_natCast]
    rfl

/-- A split unlinks its node and hands the chain from there over to the new block. -/
theorem split_nodes (hNode : u.nodes[cut]? = some node) (hHead : u.blocks[b]? = some head) :
    (u.split b cut).nodes = (((u.unlinked node cut).chain cut).foldl
      (fun w x => w.modifyNode x.1 fun n => { n with block := u.nextBlock })
      (u.unlinked node cut)).nodes := by
  obtain ⟨w, hNodes, _, hSplit⟩ := exists_split_eq hNode hHead
  rw [hSplit, modifyBlock_nodes, modifyBlock_nodes, chain_congr hNodes]
  exact foldl_modifyNode_congr hNodes _ _

/-- A split shortens one block and adds one. -/
theorem split_blocks (hNode : u.nodes[cut]? = some node) (hHead : u.blocks[b]? = some head)
    (i : Nat) :
    (u.split b cut).blocks[i]? =
      if i = b then
        some { head with
          first := if node.prev = noNode then noNode else head.first
          last := node.prev
          numInsts := wrapCount (head.numInsts - ((u.unlinked node cut).chain cut).length) }
      else if i = u.blocks.size then
        some { Block.empty u.nextBlock .code node.offset with
          first := cut
          last := head.last
          numInsts := wrapCount (0 + ((u.unlinked node cut).chain cut).length) }
      else u.blocks[i]? := by
  obtain ⟨w, hNodes, hBlocks, hSplit⟩ := exists_split_eq hNode hHead
  have hb : b < u.blocks.size := (Array.getElem?_eq_some_iff.mp hHead).1
  rw [hSplit, modifyBlock_natCast, modifyBlock_natCast, chain_congr hNodes]
  dsimp only
  rw [(foldl_modifyNode _ _ _).2.1, hBlocks]
  simp only [Array.getElem?_modify, Array.getElem?_push]
  by_cases hi : i = b
  · have hTail : ¬u.blocks.size = b := by omega
    have hTail' : ¬b = u.blocks.size := by omega
    simp only [hi, hTail, hTail', if_true, if_false, hHead, Option.map_some]
  · have hi' : ¬b = i := Ne.symm hi
    by_cases hLast : i = u.blocks.size
    · have hTail : ¬b = u.blocks.size := by omega
      have hTail' : ¬u.blocks.size = b := by omega
      simp only [hLast, hTail, hTail', if_true, if_false, Option.map_some]
      rfl
    · have hLast' : ¬u.blocks.size = i := Ne.symm hLast
      simp only [hi, hi', hLast, hLast', if_false]

end Split

namespace Represents

variable {u : WorkUnit} {pre post : List BlockView} {v : BlockView} {front back : List Entry}
  {c : Entry}

/-- The node in front of which a body is cut. -/
private theorem cut_node (h : u.Represents (pre ++ v :: post))
    (hBody : v.body = front ++ c :: back) :
    u.nodes[c.number]? =
      some (c.node pre.length (Entry.lastId noNode front) (Entry.headId back noNode)) := by
  have hLinked := h.linked _ _ (getElem?_pre_length pre post v)
  rw [hBody, Segment.append_iff] at hLinked
  exact hLinked.2.1

private theorem nodup_cut (h : u.Represents (pre ++ v :: post))
    (hBody : v.body = front ++ c :: back) :
    ((c :: back).map (·.number)).Nodup ∧
      ∀ x ∈ front, x.number ∉ (c :: back).map (·.number) := by
  have hNodup := h.nodup_body (v := v) (by simp)
  rw [hBody, List.map_append, List.nodup_append] at hNodup
  exact ⟨hNodup.2.1, fun x hx hMem => hNodup.2.2 _ (List.mem_map_of_mem hx) _ hMem rfl⟩

/-- Cutting a body in two unlinks its parts and leaves every other node alone. -/
private theorem getElem?_unlinked (h : u.Represents (pre ++ v :: post))
    (hBody : v.body = front ++ c :: back) (next : NodeId) (i : Nat) :
    (u.unlinked (c.node pre.length (Entry.lastId noNode front) next) c.number).nodes[i]? =
      if i = c.number then (u.nodes[i]?).map fun n => { n with prev := noNode }
      else if (i : NodeId) = Entry.lastId noNode front then
        (u.nodes[i]?).map fun n => { n with next := noNode }
      else u.nodes[i]? := by
  have hFront := (h.nodup_cut hBody).2
  rw [unlinked, modifyNode_natCast, Array.getElem?_modify]
  dsimp only [Entry.node]
  rcases List.eq_nil_or_concat front with rfl | ⟨es, l, rfl⟩
  · rw [Entry.lastId, modifyNode_noNode, if_neg (natCast_ne_noNode i)]
    simp only [eq_comm]
  · rw [List.concat_eq_append] at hFront ⊢
    have hNe : l.number ≠ c.number := fun hEq => hFront l (by simp) (by simp [hEq])
    rw [Entry.lastId_concat, modifyNode_natCast, Array.getElem?_modify]
    by_cases hi : i = c.number
    · rw [if_pos hi.symm, if_pos hi, if_neg (by omega)]
    · rw [if_neg (Ne.symm hi), if_neg hi]
      simp only [Int.natCast_inj, eq_comm]

/-- The two parts of a body that was cut are chains of their own. -/
private theorem segments_unlinked (h : u.Represents (pre ++ v :: post))
    (hBody : v.body = front ++ c :: back) :
    let store := (u.unlinked (c.node pre.length (Entry.lastId noNode front)
      (Entry.headId back noNode)) c.number).nodes
    Segment store pre.length noNode front noNode ∧
      Segment store pre.length noNode (c :: back) noNode := by
  intro store
  have hStore : ∀ i : Nat, store[i]? = _ := h.getElem?_unlinked hBody _
  have hLinked := h.linked _ _ (getElem?_pre_length pre post v)
  obtain ⟨hNodup, hFront⟩ := h.nodup_cut hBody
  rw [hBody, Segment.append_iff] at hLinked
  obtain ⟨hBefore, hCut, hAfter⟩ := hLinked
  constructor
  · rcases List.eq_nil_or_concat front with rfl | ⟨es, l, rfl⟩
    · trivial
    · rw [List.concat_eq_append] at *
      have hNodupFront := h.nodup_body (v := v) (by simp)
      rw [hBody, List.map_append, List.map_append, List.nodup_append, List.nodup_append]
        at hNodupFront
      rw [Entry.lastId_concat] at hStore
      rw [Segment.concat_iff] at hBefore ⊢
      refine ⟨hBefore.1.congr ?_, ?_⟩
      · intro x hx
        have hNeCut : x.number ≠ c.number := fun hEq => hFront x (by simp [hx]) (by simp [hEq])
        have hNeLast : x.number ≠ l.number :=
          hNodupFront.1.2.2 _ (List.mem_map_of_mem hx) _ (by simp)
        rw [hStore, if_neg hNeCut, if_neg (by exact_mod_cast hNeLast)]
      · have hNeCut : l.number ≠ c.number := fun hEq => hFront l (by simp) (by simp [hEq])
        rw [hStore, if_neg hNeCut, if_pos rfl, hBefore.2]
        rfl
  · refine ⟨by rw [hStore, if_pos rfl, hCut]; rfl, hAfter.congr ?_⟩
    intro x hx
    rw [List.map_cons, List.nodup_cons] at hNodup
    have hNeCut : x.number ≠ c.number := fun hEq => hNodup.1 (hEq ▸ List.mem_map_of_mem hx)
    rw [hStore, if_neg hNeCut]
    rcases List.eq_nil_or_concat front with rfl | ⟨es, l, rfl⟩
    · rw [Entry.lastId, if_neg (natCast_ne_noNode _)]
    · have hNeLast : x.number ≠ l.number := fun hEq =>
        hFront l (by simp) (List.mem_cons_of_mem _ (hEq ▸ List.mem_map_of_mem hx))
      rw [List.concat_eq_append, Entry.lastId_concat, if_neg (by exact_mod_cast hNeLast)]

private theorem chain_unlinked (h : u.Represents (pre ++ v :: post))
    (hBody : v.body = front ++ c :: back) :
    (u.unlinked (c.node pre.length (Entry.lastId noNode front)
      (Entry.headId back noNode)) c.number).chain c.number =
      Entry.nodes pre.length noNode (c :: back) noNode := by
  have hLength := h.body_length_le (v := v) (by simp)
  rw [hBody, List.length_append] at hLength
  refine chainFrom_eq _ (h.segments_unlinked hBody).2 ?_
  rw [unlinked, size_nodes_modifyNode, size_nodes_modifyNode]
  omega

/-- The store after a split. -/
private theorem getElem?_nodes_split (h : u.Represents (pre ++ v :: post))
    (hBody : v.body = front ++ c :: back) (i : Nat) :
    let store := (u.unlinked (c.node pre.length (Entry.lastId noNode front)
      (Entry.headId back noNode)) c.number).nodes
    (u.split pre.length c.number).nodes[i]? =
      if i ∈ (c :: back).map (·.number) then
        (store[i]?).map fun n => { n with block := u.nextBlock }
      else store[i]? := by
  intro store
  rw [split_nodes (h.cut_node hBody) h.getElem?_blocks, h.chain_unlinked hBody,
    getElem?_foldl_modifyNode _ _ (h.nodup_cut hBody).1]

private theorem size_nodes_split (h : u.Represents (pre ++ v :: post))
    (hBody : v.body = front ++ c :: back) :
    (u.split pre.length c.number).nodes.size = u.nodes.size := by
  rw [split_nodes (h.cut_node hBody) h.getElem?_blocks, size_nodes_foldl_modifyNode, unlinked,
    size_nodes_modifyNode, size_nodes_modifyNode]

/-- The records of the two blocks that a split leaves. -/
private theorem getElem?_blocks_split (h : u.Represents (pre ++ v :: post))
    (hBody : v.body = front ++ c :: back) (i : Nat) :
    (u.split pre.length c.number).blocks[i]? =
      if i = pre.length then some (BlockView.block { v with body := front } pre.length)
      else if i = u.blocks.size then
        some (BlockView.block { kind := .code, start := c.placed.offset, body := c :: back } i)
      else u.blocks[i]? := by
  rw [split_blocks (h.cut_node hBody) h.getElem?_blocks, h.chain_unlinked hBody,
    Entry.nodes_length]
  have hCount : wrapCount (wrapCount v.body.length - (c :: back).length) =
      wrapCount front.length := by
    rw [wrapCount_wrapCount_sub, hBody, List.length_append, Int.natCast_add, Int.add_sub_cancel]
  have hLast : Entry.lastId noNode v.body = Entry.lastId noNode (c :: back) := by
    rw [hBody, Entry.lastId_append]
    rfl
  have hFirst : (if (c.node pre.length (Entry.lastId noNode front)
      (Entry.headId back noNode)).prev = noNode then noNode else (v.block pre.length).first) =
      Entry.headId front noNode := by
    simp only [Entry.node, BlockView.block, Entry.lastId_eq_noNode_iff, hBody]
    cases front <;> rfl
  by_cases hi : i = pre.length
  · rw [if_pos hi, if_pos hi, hFirst]
    simp only [BlockView.block, Entry.node, hCount]
  · rw [if_neg hi, if_neg hi]
    by_cases hLastBlock : i = u.blocks.size
    · rw [if_pos hLastBlock, if_pos hLastBlock, hLastBlock, Int.zero_add]
      simp only [BlockView.block, Entry.node, Block.empty, hLast]
      rfl
    · rw [if_neg hLastBlock, if_neg hLastBlock]

/-- The views of two blocks that a block was split into, among those of the others. -/
theorem getElem?_cut (pre post : List BlockView) (v a t : BlockView) (i : Nat) :
    (pre ++ a :: (post ++ [t]))[i]? =
      if i = pre.length then some a
      else if i = (pre ++ v :: post).length then some t
      else (pre ++ v :: post)[i]? := by
  by_cases hi : i = pre.length
  · rw [if_pos hi, hi, getElem?_pre_length]
  · rw [if_neg hi, getElem?_replace pre (post ++ [t]) v a hi, ← List.cons_append,
      ← List.append_assoc]
    by_cases hLast : i = (pre ++ v :: post).length
    · rw [if_pos hLast, hLast, getElem?_pre_length]
    · rw [if_neg hLast, List.getElem?_append]
      split
      · rfl
      · have hPast : (pre ++ v :: post).length ≤ i := by omega
        rw [List.getElem?_eq_none hPast,
          List.getElem?_eq_none (by rw [List.length_singleton]; omega)]

/-- Move entry `c` and all behind it into a new code block. -/
theorem split (h : u.Represents (pre ++ v :: post)) (hBody : v.body = front ++ c :: back) :
    (u.split pre.length c.number).Represents
      (pre ++ { v with body := front } :: (post ++
        [{ kind := .code, start := c.placed.offset, body := c :: back }])) := by
  have hNodes := h.getElem?_nodes_split hBody
  have hUnlinked := h.getElem?_unlinked hBody (Entry.headId back noNode)
  obtain ⟨hFront, hBack⟩ := h.segments_unlinked hBody
  refine ⟨?_, ?_, ?_⟩
  · intro i
    rw [h.getElem?_blocks_split hBody, getElem?_cut pre post v, h.size_eq]
    split
    next hi => rw [hi, Option.map_some]
    next =>
      split
      next => rw [Option.map_some]
      next => rw [h.blocks]
  · intro i w hw
    rw [getElem?_cut pre post v] at hw
    split at hw
    next hi =>
      -- The front part keeps its owner.
      cases hw
      rw [hi]
      refine hFront.congr fun x hx => ?_
      rw [hNodes, if_neg ((h.nodup_cut hBody).2 x hx)]
    next hi =>
      split at hw
      next hLast =>
        -- The part that was cut off changes hands as a whole.
        cases hw
        rw [hLast, ← h.size_eq]
        refine hBack.reown fun x hx => ?_
        rw [hNodes, if_pos (List.mem_map_of_mem hx)]
        rfl
      next =>
        refine (h.linked i w hw).congr fun x hx => ?_
        have hOther := mem_of_getElem?_ne hi hw
        have hNe : ∀ e ∈ v.body, x.number ≠ e.number := fun e he => h.number_ne hOther hx he
        have hNotMoved : x.number ∉ (c :: back).map (·.number) := by
          intro hMem
          obtain ⟨e, he, hEq⟩ := List.mem_map.mp hMem
          exact hNe e (by rw [hBody]; exact List.mem_append_right _ he) hEq.symm
        rw [hNodes, if_neg hNotMoved, hUnlinked, if_neg (hNe c (by simp [hBody]))]
        rcases List.eq_nil_or_concat front with hEmpty | ⟨es, l, hConcat⟩
        · rw [hEmpty, Entry.lastId, if_neg (natCast_ne_noNode _)]
        · have hNeLast := hNe l (by simp [hBody, hConcat])
          rw [hConcat, List.concat_eq_append, Entry.lastId_concat,
            if_neg (by exact_mod_cast hNeLast)]
  · rw [h.size_nodes_split hBody]
    refine List.Perm.trans ?_ h.numbers
    simp only [List.flatMap_append, List.flatMap_cons, List.flatMap_nil, List.map_append, hBody,
      List.append_nil, List.append_assoc]
    exact ((List.perm_append_comm).append_left _).append_left _

end Represents

end TraceJit.WorkUnit
