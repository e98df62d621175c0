import TraceJit.Proofs.Graph.View

/-!
What adding a block, an edge or an instruction does to the view of a unit. Each touches one block
and leaves the nodes of all others alone.
-/

namespace TraceJit.WorkUnit

/-- A fresh unit: nothing has been added to it yet. -/
structure Fresh (u : WorkUnit) : Prop where
  blocks : u.blocks = #[]
  nodes : u.nodes = #[]
  numInsts : u.numInsts = 0
  traceSize : u.traceSize = 0

/-- A unit that has just been made is empty. -/
theorem fresh_of_new {m : Method} {u : WorkUnit} (hNew : WorkUnit.new m = .ok u) : u.Fresh := by
  unfold WorkUnit.new at hNew
  split at hNew
  · cases hNew
  · split at hNew
    · cases hNew
    · cases hNew
      exact ⟨rfl, rfl, rfl, rfl⟩

/-- A fresh unit for a method of the given code, of whose call sites nothing is known. -/
def loose (code : Code) (trace : Option Trace) : WorkUnit :=
  { id := 0, trace, code, numInsts := 0, traceSize := 0, print := false, singleStep := false,
    method := { owner := none, name := "loose", native := false, slot := 0, addr := 0,
                code := code.units, linkage := .empty },
    starts := none, blocks := #[], nodes := #[] }

theorem fresh_loose (code : Code) (trace : Option Trace) : (loose code trace).Fresh :=
  ⟨rfl, rfl, rfl, rfl⟩

/-- Two instructions, of which the second branches back to the first. -/
def loopCode : Code := ⟨#[0x0012, 0xff28], by decide⟩

/-- An empty unit has no blocks. -/
theorem Fresh.represents {u : WorkUnit} (h : u.Fresh) : u.Represents [] where
  blocks := by simp [h.blocks]
  linked := by simp
  numbers := by simp [h.nodes]

namespace Represents

variable {u : WorkUnit} {views pre post : List BlockView} {v v' : BlockView}

theorem getElem?_replace (pre post : List BlockView) (v v' : BlockView) {i : Nat}
    (hi : i ≠ pre.length) : (pre ++ v' :: post)[i]? = (pre ++ v :: post)[i]? := by
  rcases Nat.lt_or_gt_of_ne hi with hLess | hMore
  · rw [List.getElem?_append_left hLess, List.getElem?_append_left hLess]
  · rw [List.getElem?_append_right (by omega), List.getElem?_append_right (by omega),
      List.getElem?_cons, List.getElem?_cons, if_neg (by omega), if_neg (by omega)]

theorem getElem?_pre_length (pre post : List BlockView) (v : BlockView) :
    (pre ++ v :: post)[pre.length]? = some v := by simp

theorem mem_of_getElem?_ne {w : BlockView} {i : Nat} (hi : i ≠ pre.length)
    (hw : (pre ++ v :: post)[i]? = some w) : w ∈ pre ∨ w ∈ post := by
  rcases Nat.lt_or_gt_of_ne hi with hLess | hMore
  · rw [List.getElem?_append_left hLess] at hw
    exact .inl (List.mem_of_getElem? hw)
  · rw [List.getElem?_append_right (by omega), List.getElem?_cons, if_neg (by omega)] at hw
    exact .inr (List.mem_of_getElem? hw)

/-- No two blocks share a node. -/
theorem number_ne (h : u.Represents (pre ++ v :: post)) {w : BlockView} {e x : Entry}
    (hw : w ∈ pre ∨ w ∈ post) (hx : x ∈ w.body) (he : e ∈ v.body) : x.number ≠ e.number := by
  have hNodup := h.nodup_numbers
  simp only [List.flatMap_append, List.flatMap_cons, List.map_append] at hNodup
  rw [List.nodup_append, List.nodup_append] at hNodup
  obtain ⟨_, ⟨_, _, hLater⟩, hEarlier⟩ := hNodup
  have heMem : e.number ∈ v.body.map (·.number) := List.mem_map_of_mem he
  rcases hw with hw | hw
  · have hxMem : x.number ∈ (pre.flatMap (·.body)).map (·.number) :=
      List.mem_map_of_mem (List.mem_flatMap_of_mem hw hx)
    exact hEarlier _ hxMem _ (List.mem_append_left _ heMem)
  · have hxMem : x.number ∈ (post.flatMap (·.body)).map (·.number) :=
      List.mem_map_of_mem (List.mem_flatMap_of_mem hw hx)
    exact (hLater _ heMem _ hxMem).symm

/-- Replace one block. The nodes of all other blocks must stay as they are. -/
theorem replace {u' : WorkUnit} (h : u.Represents (pre ++ v :: post))
    (hBlocks : ∀ i : Nat, u'.blocks[i]? =
      if i = pre.length then some (v'.block pre.length) else u.blocks[i]?)
    (hSegment : Segment u'.nodes pre.length noNode v'.body noNode)
    (hFrame : ∀ w, w ∈ pre ∨ w ∈ post → ∀ e ∈ w.body,
      u'.nodes[e.number]? = u.nodes[e.number]?)
    (hNumbers : (((pre ++ v' :: post).flatMap (·.body)).map (·.number)).Perm
      (List.range u'.nodes.size)) :
    u'.Represents (pre ++ v' :: post) where
  blocks i := by
    rw [hBlocks]
    split
    next hi => rw [hi, getElem?_pre_length, Option.map_some]
    next hi => rw [h.blocks, getElem?_replace pre post v v' hi]
  linked i w hw := by
    by_cases hi : i = pre.length
    · subst hi
      rw [getElem?_pre_length, Option.some.injEq] at hw
      exact hw ▸ hSegment
    · have hOld := hw
      rw [getElem?_replace pre post v v' hi] at hOld
      exact (h.linked i w hOld).congr (hFrame w (mem_of_getElem?_ne hi hw))
  numbers := hNumbers

/-- Change a block without touching its chain. -/
theorem modifyBlock {f : Block → Block} (h : u.Represents (pre ++ v :: post))
    (hBlock : f (v.block pre.length) = v'.block pre.length) (hBody : v'.body = v.body) :
    (u.modifyBlock pre.length f).Represents (pre ++ v' :: post) := by
  rw [modifyBlock_natCast]
  refine h.replace ?_ ?_ (fun _ _ _ _ => rfl) ?_
  · intro i
    dsimp only
    rw [Array.getElem?_modify]
    by_cases hi : i = pre.length
    · rw [if_pos hi.symm, if_pos hi, hi, h.blocks, getElem?_pre_length, Option.map_some,
        Option.map_some, hBlock]
    · rw [if_neg (Ne.symm hi), if_neg hi]
  · rw [hBody]
    exact h.linked _ _ (getElem?_pre_length pre post v)
  · have hNumbers := h.numbers
    rw [List.flatMap_append, List.flatMap_cons] at hNumbers ⊢
    rwa [hBody]

/-- Add a block without instructions behind all others. -/
theorem push {u' : WorkUnit} (h : u.Represents views) (hBody : v.body = [])
    (hBlocks : u'.blocks = u.blocks.push (v.block views.length)) (hNodes : u'.nodes = u.nodes) :
    u'.Represents (views ++ [v]) where
  blocks i := by
    rw [hBlocks, Array.getElem?_push, h.size_eq]
    by_cases hi : i = views.length
    · rw [if_pos hi, hi, getElem?_pre_length, Option.map_some]
    · rw [if_neg hi, h.blocks, List.getElem?_append]
      split
      · rfl
      · rw [List.getElem?_eq_none (by omega), List.getElem?_eq_none (by simp; omega)]
  linked i w hw := by
    rw [hNodes]
    rw [List.getElem?_append] at hw
    split at hw
    · exact h.linked i w hw
    · have hw := List.mem_of_getElem? hw
      rw [List.mem_singleton] at hw
      rw [hw, hBody]
      trivial
  numbers := by
    rw [List.flatMap_append, hNodes]
    simpa [hBody] using h.numbers

/-- A new block is the last one. -/
theorem newBlock (h : u.Represents views) (kind : BlockKind) (start : UInt32) :
    (u.newBlock kind start).Represents (views ++ [{ kind := kind, start := start }]) := by
  refine h.push rfl ?_ rfl
  rw [WorkUnit.newBlock, h.nextBlock_eq, BlockView.block_empty]
  rfl

end Represents

/-! ### Adding an instruction -/

/-- What an added instruction does to the record of its block. -/
def grow (id : NodeId) (blk : Block) : Block :=
  { blk with
    first := if blk.last = noNode then id else blk.first
    last := id
    numInsts := wrapCount (blk.numInsts + 1) }

theorem grow_block (v : BlockView) (i : Nat) (e : Entry) :
    grow e.number (v.block i) = (v.add e).block i := by
  have hCount : wrapCount (wrapCount v.body.length + 1) = wrapCount (v.body ++ [e]).length := by
    rw [wrapCount_wrapCount_add, List.length_append]
    rfl
  simp only [grow, BlockView.block, BlockView.add, Entry.lastId_eq_noNode_iff,
    Entry.lastId_concat, Entry.headId_append, hCount]
  cases v.body <;> rfl

section Append

variable {u : WorkUnit} {b : Nat} {blk : Block}

/-- Appending makes one block longer. -/
theorem append_blocks (hBlock : u.blocks[b]? = some blk) (insn : Instruction) (off : UInt32) :
    (u.append b insn off).blocks = u.blocks.modify b (grow u.nextNode) := by
  rw [← block?_natCast] at hBlock
  simp only [WorkUnit.append, hBlock, modifyBlock_natCast, modifyNode_blocks, apply_ite blocks,
    ite_self]
  rfl

/-- Appending adds a node behind the last of its block. -/
theorem append_nodes (hBlock : u.blocks[b]? = some blk) (insn : Instruction) (off : UInt32) :
    (u.append b insn off).nodes =
      (modifyNode
        { u with
          nodes := u.nodes.push (Entry.node ⟨u.nodes.size, ⟨off, insn⟩⟩ b blk.last noNode) }
        blk.last fun n => { n with next := u.nextNode }).nodes := by
  rw [← block?_natCast] at hBlock
  simp only [WorkUnit.append, hBlock, modifyBlock_nodes, apply_ite nodes, ite_self]
  rfl

/-- Only instructions in code blocks are counted. -/
theorem append_numInsts (hBlock : u.blocks[b]? = some blk) (hCode : blk.kind = .code)
    (insn : Instruction) (off : UInt32) :
    (u.append b insn off).numInsts = wrapCount (u.numInsts + 1) := by
  rw [← block?_natCast] at hBlock
  simp only [WorkUnit.append, hBlock, hCode, if_true, modifyBlock_numInsts, modifyNode_numInsts]

end Append

namespace Represents

variable {u : WorkUnit} {views pre post : List BlockView} {v v' : BlockView}

theorem getElem?_blocks (h : u.Represents (pre ++ v :: post)) :
    u.blocks[pre.length]? = some (v.block pre.length) := by
  rw [h.blocks, getElem?_pre_length, Option.map_some]

/-- The store after an instruction was added: one node behind all others, to which the old last
node of the block leads, if there is one. -/
theorem getElem?_nodes_append (h : u.Represents (pre ++ v :: post)) (insn : Instruction)
    (off : UInt32) (i : Nat) :
    (u.append pre.length insn off).nodes[i]? =
      if i = u.nodes.size then
        some (Entry.node ⟨u.nodes.size, ⟨off, insn⟩⟩ pre.length (Entry.lastId noNode v.body) noNode)
      else if (i : NodeId) = Entry.lastId noNode v.body then
        (u.nodes[i]?).map fun n => { n with next := u.nextNode }
      else u.nodes[i]? := by
  rw [append_nodes h.getElem?_blocks]
  dsimp only [BlockView.block]
  rcases List.eq_nil_or_concat v.body with hBody | ⟨es, e, hBody⟩
  · rw [hBody, Entry.lastId, modifyNode_noNode, if_neg (natCast_ne_noNode i),
      Array.getElem?_push]
  · rw [List.concat_eq_append] at hBody
    have hOld : e.number < u.nodes.size := h.number_lt (v := v) (by simp) (by simp [hBody])
    rw [hBody, Entry.lastId_concat, modifyNode_natCast, Array.getElem?_modify,
      Array.getElem?_push]
    by_cases hi : i = u.nodes.size
    · rw [if_pos hi, if_pos hi, if_neg (by omega)]
    · rw [if_neg hi, if_neg hi]
      simp only [Int.natCast_inj, eq_comm]

theorem size_nodes_append (h : u.Represents (pre ++ v :: post)) (insn : Instruction)
    (off : UInt32) : (u.append pre.length insn off).nodes.size = u.nodes.size + 1 := by
  rw [append_nodes h.getElem?_blocks, size_nodes_modifyNode, Array.size_push]

/-- Add an instruction to the end of a block. Its node gets the next free number. -/
theorem append (h : u.Represents (pre ++ v :: post)) (insn : Instruction) (off : UInt32) :
    (u.append pre.length insn off).Represents
      (pre ++ v.add ⟨u.nodes.size, ⟨off, insn⟩⟩ :: post) := by
  have hNodes := h.getElem?_nodes_append insn off
  have hLinked := h.linked _ _ (getElem?_pre_length pre post v)
  have hNodup := h.nodup_body (v := v) (by simp)
  have hOld : ∀ e ∈ v.body, e.number ≠ u.nodes.size := fun e he =>
    Nat.ne_of_lt (h.number_lt (v := v) (by simp) he)
  refine h.replace ?_ ?_ ?_ ?_
  · intro i
    rw [append_blocks h.getElem?_blocks, Array.getElem?_modify]
    by_cases hi : i = pre.length
    · rw [if_pos hi.symm, if_pos hi, hi, h.getElem?_blocks, Option.map_some]
      exact congrArg some (grow_block v pre.length ⟨u.nodes.size, ⟨off, insn⟩⟩)
    · rw [if_neg (Ne.symm hi), if_neg hi]
  · rw [BlockView.add, Segment.concat_iff]
    refine ⟨?_, by rw [hNodes, if_pos rfl]⟩
    rcases List.eq_nil_or_concat v.body with hBody | ⟨es, e, hBody⟩
    · rw [hBody]
      trivial
    · rw [List.concat_eq_append] at hBody
      rw [hBody] at hLinked hNodes hNodup hOld ⊢
      rw [Entry.lastId_concat] at hNodes
      rw [Segment.concat_iff] at hLinked ⊢
      refine ⟨hLinked.1.congr ?_, ?_⟩
      · intro x hx
        have hNe : x.number ≠ e.number := by
          rw [List.map_append, List.nodup_append] at hNodup
          exact hNodup.2.2 _ (List.mem_map_of_mem hx) _ (by simp)
        rw [hNodes, if_neg (hOld x (by simp [hx])), if_neg (by exact_mod_cast hNe)]
      · rw [hNodes, if_neg (hOld e (by simp)), if_pos rfl, hLinked.2]
        rfl
  · intro w hw e he
    have hLess : e.number < u.nodes.size :=
      h.number_lt (v := w) (by rcases hw with hw | hw <;> simp [hw]) he
    rw [hNodes, if_neg (Nat.ne_of_lt hLess)]
    rcases List.eq_nil_or_concat v.body with hBody | ⟨es, x, hBody⟩
    · rw [hBody, Entry.lastId, if_neg (natCast_ne_noNode _)]
    · rw [List.concat_eq_append] at hBody
      have hNe := h.number_ne hw he (e := x) (by simp [hBody])
      rw [hBody, Entry.lastId_concat, if_neg (by exact_mod_cast hNe)]
  · rw [h.size_nodes_append, List.range_succ]
    refine List.Perm.trans ?_ (h.numbers.append_right [u.nodes.size])
    simp only [List.flatMap_append, List.flatMap_cons, List.map_append, BlockView.add,
      List.map_cons, List.map_nil, List.append_assoc]
    exact ((List.perm_append_comm).append_left _).append_left _

end Represents

end TraceJit.WorkUnit
