import TraceJit.Codegen.Lowering
import TraceJit.Graph.Listing
import TraceJit.Proofs.Graph.NextLarger
import TraceJit.Proofs.Graph.Validate

/-!
The loops that follow the links of a unit, as they run: from node to node, until there is no next
one. Nothing in a loop counts its turns, and every turn reads the store by a number that is taken
from the store. The loops below fail where a number is that of no node, and where the turns they are
given are used up. On units that come about by edits in range they never fail, however the lists are
tangled, and give what the definitions on lists give.
-/

namespace TraceJit

inductive LoopFault where
  /-- A number was read that no node has. -/
  | outside (id : NodeId)
  /-- All turns were used up and there was a next node. -/
  | unfinished
  deriving DecidableEq, Repr

namespace WorkUnit

/-- The node with number `id`, which has to exist. -/
def read (u : WorkUnit) (id : NodeId) : Except LoopFault Node :=
  match u.node? id with
  | some n => .ok n
  | none => .error (.outside id)

/-- From node `id` on, do `body` with each node until there is no next one, within so many turns.
The body may change the unit, and the way on is read behind it. -/
def follow {σ : Type} (unit : σ → WorkUnit) (body : σ → NodeId → Node → σ) :
    Nat → σ → NodeId → Except LoopFault σ
  | 0, s, id => if id = noNode then .ok s else .error .unfinished
  | turns + 1, s, id =>
    if id = noNode then .ok s
    else do
      let n ← (unit s).read id
      let m ← (unit (body s id n)).read id
      follow unit body turns (body s id n) m.next

/-! ### The loops -/

section Loops

variable (u : WorkUnit) (turns : Nat)

/-- Do `body` with each node of block `b`. -/
def eachNode {σ : Type} (b : Block) (body : σ → Node → σ) (s : σ) : Except LoopFault σ :=
  follow (fun _ => u) (fun s _ n => body s n) turns s b.first

/-- The node that a reference leads to; none if it leads to no node. -/
def deref (id : NodeId) : Except LoopFault (Option Node) :=
  if id = noNode then .ok none else (u.read id).map some

/-- Hand node `cut` and all behind it over to block `tail`, and count them. -/
def handOverLoop (tail : BlockId) (cut : NodeId) : Except LoopFault (WorkUnit × Nat) :=
  follow (·.1) (fun s id _ => (s.1.modifyNode id fun n => { n with block := tail }, s.2 + 1)) turns
    (u, 0) cut

def splitLoop (b cut : Nat) : Except LoopFault WorkUnit := do
  let node ← u.read cut
  match u.blocks[b]? with
  | none => return u.newBlock .code node.offset
  | some head =>
    -- The node in front of the cut is written to, where there is one.
    let _ ← u.deref node.prev
    let (w, moved) ← (u.detached b cut node head).handOverLoop turns u.nextBlock cut
    return w.recount b u.nextBlock moved

/-- What the check of a block has found behind node `prev`, after so many nodes. -/
structure Findings where
  prev : Option Node := none
  found : List Violation := []
  count : Nat := 0

/-- Check one more node of block `i`. -/
def Findings.visit (i : BlockId) (f : Findings) (n : Node) : Findings :=
  { prev := some n, found := f.found ++ nodeViolations i f.prev [n], count := f.count + 1 }

/-- Check the instructions of block `i`, and count them if it is a code block. -/
def blockRunLoop (i : BlockId) (b : Block) : Except LoopFault (List Violation × Nat) :=
  if b.kind ≠ .code then
    return (if b.first = noNode then [] else [.ownsInstructions i b.kind], 0)
  else if b.first = noNode then return ([.emptyCode i], 0)
  else do
    let head ← u.read b.first
    let mismatch : List Violation :=
      if head.offset = b.start then [] else [.startMismatch i b.start head.offset]
    let f ← u.eachNode turns b (Findings.visit i) { found := mismatch }
    return (f.found ++
      if (f.count : Int) = b.numInsts then [] else [.blockCount i f.count b.numInsts], f.count)

def runLoop : Except LoopFault (List Violation) := do
  let blocks ← u.numbered.mapM fun (i, b) => u.blockRunLoop turns i b
  let held : Nat := (blocks.map (·.2)).sum
  return (blocks.map (·.1)).flatten ++
    if (held : Int) = u.numInsts then [] else [.unitCount u.numInsts held]

/-- Broken rules about the successors of block `i`, which node `last` ends. -/
def exitViolations (i : BlockId) (b : Block) (last : Node) : List Violation :=
  let target := (classify u.method.linkage last.insn last.offset).bind (·.target)
  let atEnd := u.trace.isNone && last.fallThrough = u.code.size
  (if target.isSome && b.taken = noBlock then [.noTakenEdge i last.offset] else []) ++
  (if !last.insn.isUnconditionalExit && b.fallThrough = noBlock && !atEnd then
    [.noFallThrough i last.insn.op last.offset] else [])

/-- Check the successors of code block `i`. -/
def blockEdgeCheck (i : BlockId) : Except LoopFault (List Violation) :=
  match u.block? i with
  | none => return []
  | some b => do
    match ← u.deref b.last with
    | none => return []
    | some last => return u.exitViolations i b last

def violationLoop : Except LoopFault (List Violation) := do
  let runs ← u.runLoop turns
  let edges ← u.codeBlocks.mapM u.blockEdgeCheck
  return u.numberViolations ++ runs ++ edges.flatten ++
    if u.trace.isSome then u.traceShapeViolations else u.methodShapeViolations

def listingLoop : Except LoopFault String := do
  let blocks ← u.numbered.mapM fun (i, b) =>
    u.eachNode turns b (fun lines n => lines ++ ["  " ++ instructionLine n.offset n.insn])
      [blockLine i b]
  return String.join ((u.headLine :: blocks.flatten).map (· ++ "\n"))

/-- The jump behind the instructions of block `b`, if it takes one. -/
def addJump (b : Block) (p : Lowered) : Lowered :=
  if b.explicitBranch then
    { p with
      words := p.words.push (Lowered.tagged 0xff (b.fallThrough % UInt32.size).toNat.toUInt32) }
  else p

/-- Lower block number `i`. A block without code has no nodes to follow. -/
def addBlockLoop (p : Lowered) (i : BlockId) (b : Block) :
    Except LoopFault (Except LowerError Lowered) :=
  if b.kind = .code then do
    let p ← u.eachNode turns b (Lowered.addInsn u.singleStep) p
    return .ok (addJump b p)
  else return p.addBlock u i b

/-- Lower blocks one after the other, up to one that cannot be lowered. -/
def addBlocksLoop : Lowered → List (BlockId × Block) → Except LoopFault (Except LowerError Lowered)
  | p, [] => return .ok p
  | p, (i, b) :: rest => do
    match ← u.addBlockLoop turns p i b with
    | .error e => return .error e
    | .ok p => addBlocksLoop p rest

def lowerLoop : Except LoopFault (Except LowerError Lowered) :=
  u.addBlocksLoop turns {} u.numbered

end Loops

/-! ### Following links -/

section Follow

variable {u : WorkUnit} {σ : Type}

theorem bind_ok {ε α β : Type} (a : α) (f : α → Except ε β) :
    (Except.ok a >>= f) = f a := rfl

theorem read_eq_ok {id : NodeId} {n : Node} (hNode : u.node? id = some n) : u.read id = .ok n := by
  rw [read, hNode]

theorem deref_eq {id : NodeId} (hId : u.Refers id) : u.deref id = .ok (u.node? id) := by
  rcases hId with rfl | ⟨k, hk, rfl⟩
  · rfl
  · have hNode : u.node? (k : NodeId) = some u.nodes[k] := by
      rw [node?_natCast, Array.getElem?_eq_getElem hk]
    rw [deref, if_neg (natCast_ne_noNode k), read_eq_ok hNode, hNode]
    rfl

theorem follow_noNode (unit : σ → WorkUnit) (body : σ → NodeId → Node → σ) (turns : Nat) (s : σ) :
    follow unit body turns s noNode = .ok s := by
  cases turns <;> rw [follow, if_pos rfl]

theorem chainFrom_noNode (u : WorkUnit) (fuel : Nat) : u.chainFrom fuel noNode = [] := by
  cases fuel <;> rfl

/-- Where links go up they lead to a node or to nothing. -/
theorem NextLarger.refers_next (h : u.NextLarger) {k : Nat} {n : Node} (hn : u.nodes[k]? = some n) :
    u.Refers n.next :=
  (h.links k n hn).1.imp_right fun ⟨m, hm, hNext, _⟩ => ⟨m, hm, hNext⟩

/-- A loop on a unit whose links lead to larger numbers. `keeps` is what its body keeps of the
state: the unit has the same links as `u`, and the body does not see the difference. The number of
nodes behind `id` bounds the turns. -/
theorem NextLarger.follow_eq (h : u.NextLarger) {unit : σ → WorkUnit}
    {body : σ → NodeId → Node → σ} (keeps : σ → Prop)
    (hRead : ∀ s, keeps s → ∀ (k : Nat) (n : Node), u.nodes[k]? = some n →
      ∃ m, (unit s).node? (k : NodeId) = some m ∧ m.next = n.next ∧ body s k m = body s k n)
    (hKeeps : ∀ s, keeps s → ∀ id n, keeps (body s id n))
    {turns fuel : Nat} {s : σ} {id : NodeId} (hs : keeps s) (hId : u.Refers id)
    (hTurns : ∀ k : Nat, id = k → u.nodes.size ≤ turns + k)
    (hFuel : ∀ k : Nat, id = k → u.nodes.size ≤ fuel + k) :
    follow unit body turns s id =
      .ok ((u.chainFrom fuel id).foldl (fun s x => body s x.1 x.2) s) := by
  induction turns generalizing fuel s id with
  | zero =>
      rcases hId with rfl | ⟨k, hk, rfl⟩
      · rw [follow_noNode, chainFrom_noNode, List.foldl_nil]
      · have hBound := hTurns k rfl
        omega
  | succ turns ih =>
      rcases hId with rfl | ⟨k, hk, rfl⟩
      · rw [follow_noNode, chainFrom_noNode, List.foldl_nil]
      · obtain ⟨n, hn⟩ : ∃ n, u.nodes[k]? = some n := ⟨_, Array.getElem?_eq_getElem hk⟩
        obtain ⟨m, hm, _, hBody⟩ := hRead s hs k n hn
        obtain ⟨m', hm', hNext, _⟩ := hRead (body s k m) (hKeeps s hs _ _) k n hn
        obtain ⟨fuel, rfl⟩ : ∃ f, fuel = f + 1 :=
          Nat.exists_eq_succ_of_ne_zero (by have := hFuel k rfl; omega)
        -- The next number is larger, so fewer turns are enough for it.
        have hMore : ∀ {t : Nat}, u.nodes.size ≤ t + 1 + k → ∀ l : Nat, n.next = l →
            u.nodes.size ≤ t + l := by
          intro t ht l hl
          rcases (h.links k n hn).1 with hNone | ⟨j, _, hj, hLarger⟩
          · exact absurd (hl.symm.trans hNone) (natCast_ne_noNode l)
          · have hSame : l = j := Int.ofNat_inj.mp (hl.symm.trans hj)
            omega
        have hRest := ih (hKeeps s hs k m) (h.refers_next hn) (hMore (hTurns k rfl))
          (hMore (hFuel k rfl))
        rw [follow, if_neg (natCast_ne_noNode k), read_eq_ok hm, bind_ok, read_eq_ok hm',
          bind_ok, hNext, hRest, chainFrom, node?_natCast, hn]
        dsimp only
        rw [List.foldl_cons, hBody]

end Follow

namespace NextLarger

variable {u : WorkUnit} {turns i : Nat} {b : Block}

/-! ### Reading the nodes of a block -/

/-- A loop over a block visits its nodes in their order and ends. -/
theorem eachNode_eq (h : u.NextLarger) (hTurns : u.nodes.size ≤ turns)
    (hBlock : u.blocks[i]? = some b) {σ : Type} (body : σ → Node → σ) (s : σ) :
    u.eachNode turns b body s = .ok (((u.nodesOf (i : BlockId)).map (·.2)).foldl body s) := by
  rw [nodesOf, block?_natCast, hBlock, List.foldl_map]
  refine h.follow_eq (fun _ => True) ?_ (fun _ _ _ _ => trivial) trivial (h.ends i b hBlock).1
    (fun k _ => Nat.le_add_right_of_le hTurns) (fun k _ => by omega)
  exact fun _ _ k n hn => ⟨n, (u.node?_natCast k).trans hn, rfl, rfl⟩

/-- The last node of a block can be looked up. -/
theorem deref_last (h : u.NextLarger) (hBlock : u.blocks[i]? = some b) :
    u.deref b.last = .ok (u.lastNode? (i : BlockId)) := by
  rw [deref_eq (h.ends i b hBlock).2, lastNode?, block?_natCast, hBlock, Option.bind_some]

/-! ### Splitting -/

/-- Nodes may change their block, but their links are those of `u`. -/
def SameLinks (u w : WorkUnit) : Prop :=
  ∀ (k : Nat) (n : Node), u.nodes[k]? = some n → ∃ m, w.nodes[k]? = some m ∧ m.next = n.next

theorem SameLinks.modifyNode_block {w : WorkUnit} (hSame : SameLinks u w) (id : NodeId)
    (tail : BlockId) : SameLinks u (w.modifyNode id fun n => { n with block := tail }) := by
  intro k n hn
  obtain ⟨m, hm, hNext⟩ := hSame k n hn
  unfold WorkUnit.modifyNode
  split
  next =>
    rw [Array.getElem?_modify, hm]
    split
    next => exact ⟨_, rfl, hNext⟩
    next => exact ⟨m, rfl, hNext⟩
  next => exact ⟨m, hm, hNext⟩

theorem foldl_count (ids : List (NodeId × Node)) (f : Node → Node) (w : WorkUnit) (count : Nat) :
    ids.foldl (fun s x => (s.1.modifyNode x.1 f, s.2 + 1)) (w, count) =
      (ids.foldl (fun w x => w.modifyNode x.1 f) w, count + ids.length) := by
  induction ids generalizing w count with
  | nil => rfl
  | cons x ids ih =>
      rw [List.foldl_cons, ih, List.foldl_cons, List.length_cons, Nat.add_right_comm,
        Nat.add_assoc]

/-- Handing nodes over ends and changes the chain only. -/
theorem handOverLoop_eq (h : u.NextLarger) (hTurns : u.nodes.size ≤ turns) {cut : NodeId}
    (hCut : u.Refers cut) (tail : BlockId) :
    u.handOverLoop turns tail cut =
      .ok ((u.chain cut).foldl (fun w x => w.modifyNode x.1 fun n => { n with block := tail }) u,
        (u.chain cut).length) := by
  rw [handOverLoop, chain, ← Nat.zero_add (List.length _), ← foldl_count]
  refine h.follow_eq (fun s => SameLinks u s.1) ?_ ?_ ?_ hCut
    (fun k _ => Nat.le_add_right_of_le hTurns) (fun k _ => by omega)
  · intro s hSame k n hn
    obtain ⟨m, hm, hNext⟩ := hSame k n hn
    exact ⟨m, (s.1.node?_natCast k).trans hm, hNext, rfl⟩
  · exact fun s hSame id _ => hSame.modifyNode_block id tail
  · exact fun k n hn => ⟨n, hn, rfl⟩

theorem size_nodes_detached (u : WorkUnit) (b cut : Nat) (node : Node) (head : Block) :
    (u.detached b cut node head).nodes.size = u.nodes.size := by
  rw [WorkUnit.detached, size_nodes_modifyNode, size_nodes_modifyNode, modifyBlock_nodes,
    modifyBlock_nodes, WorkUnit.newBlock]

/-- Splitting ends with what a split is. -/
theorem splitLoop_eq (h : u.NextLarger) (hTurns : u.nodes.size ≤ turns) {b cut : Nat}
    (hb : b < u.blocks.size) (hCut : cut < u.nodes.size) :
    u.splitLoop turns b cut = .ok (u.split b cut) := by
  obtain ⟨node, hNode⟩ : ∃ node, u.nodes[cut]? = some node := ⟨_, Array.getElem?_eq_getElem hCut⟩
  obtain ⟨head, hHead⟩ : ∃ head, u.blocks[b]? = some head := ⟨_, Array.getElem?_eq_getElem hb⟩
  have hSize := size_nodes_detached u b cut node head
  rw [splitLoop, read_eq_ok ((u.node?_natCast cut).trans hNode), bind_ok, hHead]
  dsimp only
  rw [deref_eq (h.links cut node hNode).2, bind_ok,
    (h.detached hNode hHead).handOverLoop_eq (hSize ▸ hTurns) (refers_natCast (hSize ▸ hCut)),
    bind_ok, split_eq_recount hNode hHead]
  rfl

/-! ### Checking -/

theorem foldl_visit (i : BlockId) (nodes : List Node) (f : Findings) :
    (nodes.foldl (Findings.visit i) f).found = f.found ++ nodeViolations i f.prev nodes ∧
      (nodes.foldl (Findings.visit i) f).count = f.count + nodes.length := by
  induction nodes generalizing f with
  | nil => simp [nodeViolations]
  | cons n nodes ih =>
      obtain ⟨hFound, hCount⟩ := ih (f.visit i n)
      constructor
      · rw [List.foldl_cons, hFound]
        simp only [Findings.visit, nodeViolations, List.append_assoc, List.append_nil]
      · rw [List.foldl_cons, hCount, List.length_cons, Nat.add_comm nodes.length, ← Nat.add_assoc]
        rfl

/-- The number of instructions that the check of a block counts. -/
def heldBy (u : WorkUnit) (x : BlockId × Block) : Nat :=
  if x.2.kind = .code then (u.nodesOf x.1).length else 0

/-- Checking the lists of a block ends with its findings. -/
theorem blockRunLoop_eq (h : u.NextLarger) (hTurns : u.nodes.size ≤ turns)
    (hBlock : u.blocks[i]? = some b) :
    u.blockRunLoop turns i b = .ok (u.blockRunViolations i b, heldBy u ((i : BlockId), b)) := by
  have hNodes : u.nodesOf (i : BlockId) = u.chain b.first := by
    rw [nodesOf, block?_natCast, hBlock]
  rw [blockRunLoop, blockRunViolations, heldBy]
  by_cases hCode : b.kind = .code
  · rw [if_neg (not_not.mpr hCode), if_neg (not_not.mpr hCode), if_pos hCode]
    rcases (h.ends i b hBlock).1 with hNone | ⟨k, hk, hFirst⟩
    · rw [if_pos hNone, if_pos hNone, hNodes, hNone, chain, chainFrom_noNode]
      rfl
    · have hSome : b.first ≠ noNode := hFirst ▸ natCast_ne_noNode k
      have hRead : u.node? b.first = some u.nodes[k] := by
        rw [hFirst, node?_natCast, Array.getElem?_eq_getElem hk]
      have hHead : ((u.nodesOf (i : BlockId)).map (·.2)).head? = some u.nodes[k] := by
        rw [hNodes, chain, chainFrom, hRead]
        rfl
      rw [if_neg hSome, if_neg hSome, read_eq_ok hRead, bind_ok]
      dsimp only
      rw [h.eachNode_eq hTurns hBlock, bind_ok, hHead]
      obtain ⟨hFound, hCount⟩ := foldl_visit i ((u.nodesOf (i : BlockId)).map (·.2))
        { found := if u.nodes[k].offset = b.start then []
            else [.startMismatch i b.start u.nodes[k].offset] }
      rw [hFound, hCount, Nat.zero_add, List.length_map]
      rfl
  · rw [if_pos hCode, if_pos hCode, if_neg hCode]
    rfl

theorem length_flatMap_codeBlocks (blocks : List (BlockId × Block))
    (nodes : BlockId → List (NodeId × Node)) :
    ((blocks.filterMap fun (i, b) => if b.kind = .code then some i else none).flatMap
        nodes).length =
      (blocks.map fun x => if x.2.kind = .code then (nodes x.1).length else 0).sum := by
  induction blocks with
  | nil => rfl
  | cons x blocks ih =>
      by_cases hCode : x.2.kind = .code
      · simp only [List.filterMap_cons, hCode, if_true, List.flatMap_cons, List.length_append,
          List.map_cons, List.sum_cons, ih]
      · simp only [List.filterMap_cons, hCode, if_false, List.map_cons, List.sum_cons, Nat.zero_add,
          ih]

theorem mapM_ok {ε α β : Type} {f : α → Except ε β} {g : α → β} {l : List α}
    (hOk : ∀ x ∈ l, f x = .ok (g x)) : l.mapM f = .ok (l.map g) := by
  induction l with
  | nil => rfl
  | cons x l ih =>
      rw [List.forall_mem_cons] at hOk
      rw [List.mapM_cons, hOk.1, bind_ok, ih hOk.2, bind_ok]
      rfl

/-- Checking the lists of all blocks ends with all findings. -/
theorem runLoop_eq (h : u.NextLarger) (hTurns : u.nodes.size ≤ turns) :
    u.runLoop turns = .ok u.runViolations := by
  have hHeld : (u.numbered.map (heldBy u)).sum = u.heldInsts :=
    (length_flatMap_codeBlocks u.numbered u.nodesOf).symm
  rw [runLoop, mapM_ok (g := fun x => (u.blockRunViolations x.1 x.2, heldBy u x)), bind_ok]
  · simp only [List.map_map, Function.comp_def]
    rw [hHeld]
    rfl
  · intro x hx
    obtain ⟨k, b, hBlock, rfl⟩ := mem_numbered.mp hx
    exact h.blockRunLoop_eq hTurns hBlock

/-- Checking the edges of a block ends with its findings. -/
theorem blockEdgeCheck_eq (h : u.NextLarger) (hBlock : u.blocks[i]? = some b) :
    u.blockEdgeCheck i =
      .ok (((u.lastNode? (i : BlockId)).map (u.exitViolations i b)).getD []) := by
  rw [blockEdgeCheck, block?_natCast, hBlock]
  dsimp only
  rw [h.deref_last hBlock, bind_ok]
  cases u.lastNode? (i : BlockId) <;> rfl

theorem edgeViolations_eq (u : WorkUnit) :
    u.edgeViolations = (u.codeBlocks.map fun i => ((u.block? i).bind fun b =>
      (u.lastNode? i).map (u.exitViolations i b)).getD []).flatten := by
  rw [edgeViolations, List.flatMap_def]
  refine congrArg List.flatten (List.map_congr_left fun i _ => ?_)
  cases u.block? i <;> cases u.lastNode? i <;> rfl

/-- Checking a unit ends with what is wrong with it. -/
theorem violationLoop_eq (h : u.NextLarger) (hTurns : u.nodes.size ≤ turns) :
    u.violationLoop turns = .ok u.violations := by
  rw [violationLoop, h.runLoop_eq hTurns, bind_ok, violations, edgeViolations_eq, mapM_ok, bind_ok]
  · rfl
  · intro i hi
    obtain ⟨k, b, hBlock, _, rfl⟩ := mem_codeBlocks.mp hi
    rw [h.blockEdgeCheck_eq hBlock, block?_natCast, hBlock, Option.bind_some]

/-! ### Listing -/

theorem foldl_concat {α β : Type} (f : α → β) (l : List α) (done : List β) :
    l.foldl (fun done x => done ++ [f x]) done = done ++ l.map f := by
  induction l generalizing done with
  | nil => rw [List.foldl_nil, List.map_nil, List.append_nil]
  | cons x l ih => rw [List.foldl_cons, ih, List.append_assoc, List.map_cons, List.singleton_append]

def blockLines (u : WorkUnit) (x : BlockId × Block) : List String :=
  blockLine x.1 x.2 :: (u.nodesOf x.1).map fun (_, n) => "  " ++ instructionLine n.offset n.insn

theorem listingLines_eq (u : WorkUnit) :
    u.listingLines = u.headLine :: (u.numbered.map (blockLines u)).flatten := by
  have hBlocks : u.numbered.map (blockLines u) =
      u.blocks.toList.mapIdx fun i b => blockLines u ((i : BlockId), b) := by
    apply List.ext_getElem?
    intro i
    rw [numbered, List.getElem?_map, List.getElem?_mapIdx, List.getElem?_mapIdx, Option.map_map]
    rfl
  rw [listingLines, hBlocks]
  rfl

/-- Listing a unit ends with its listing. -/
theorem listingLoop_eq (h : u.NextLarger) (hTurns : u.nodes.size ≤ turns) :
    u.listingLoop turns = .ok u.listing := by
  rw [listingLoop, mapM_ok (g := blockLines u), bind_ok, listing, listingLines_eq]
  · rfl
  · intro x hx
    obtain ⟨k, b, hBlock, rfl⟩ := mem_numbered.mp hx
    dsimp only
    rw [h.eachNode_eq hTurns hBlock, foldl_concat, List.map_map]
    rfl

/-! ### Lowering -/

/-- Lowering a block ends with its words. -/
theorem addBlockLoop_eq (h : u.NextLarger) (hTurns : u.nodes.size ≤ turns)
    (hBlock : u.blocks[i]? = some b) (p : Lowered) :
    u.addBlockLoop turns p i b = .ok (p.addBlock u i b) := by
  rw [addBlockLoop]
  split
  next hCode =>
    rw [h.eachNode_eq hTurns hBlock, bind_ok, Lowered.addBlock, hCode]
    rfl
  next => rfl

theorem addBlocksLoop_eq (h : u.NextLarger) (hTurns : u.nodes.size ≤ turns)
    {blocks : List (BlockId × Block)} (hBlocks : ∀ x ∈ blocks, x ∈ u.numbered) (p : Lowered) :
    u.addBlocksLoop turns p blocks = .ok (blocks.foldlM (fun p x => p.addBlock u x.1 x.2) p) := by
  induction blocks generalizing p with
  | nil => rfl
  | cons x blocks ih =>
      rw [List.forall_mem_cons] at hBlocks
      obtain ⟨k, b, hBlock, rfl⟩ := mem_numbered.mp hBlocks.1
      rw [addBlocksLoop, h.addBlockLoop_eq hTurns hBlock, bind_ok, List.foldlM_cons]
      dsimp only
      cases p.addBlock u k b with
      | error e => rfl
      | ok q => exact ih hBlocks.2 q

/-- Lowering a unit ends with its program. -/
theorem lowerLoop_eq (h : u.NextLarger) (hTurns : u.nodes.size ≤ turns) :
    u.lowerLoop turns = .ok u.lower :=
  h.addBlocksLoop_eq hTurns (fun _ hx => hx) {}

end NextLarger

/-! ### Units edited without care -/

/-- Every loop over nodes reads nodes that exist and ends within so many turns. Its result is what
the definition on lists gives. -/
structure LoopsEnd (u : WorkUnit) (turns : Nat) : Prop where
  each : ∀ (i : Nat) (b : Block), u.blocks[i]? = some b →
    ∀ (σ : Type) (body : σ → Node → σ) (s : σ),
      u.eachNode turns b body s = .ok (((u.nodesOf (i : BlockId)).map (·.2)).foldl body s)
  last : ∀ (i : Nat) (b : Block), u.blocks[i]? = some b →
    u.deref b.last = .ok (u.lastNode? (i : BlockId))
  split : ∀ b cut : Nat, u.InRange (.split b cut) → u.splitLoop turns b cut = .ok (u.split b cut)
  check : u.violationLoop turns = .ok u.violations
  listing : u.listingLoop turns = .ok u.listing
  lower : u.lowerLoop turns = .ok u.lower

/-- Whatever edits in range a unit has gone through, a node leads to a node of a larger number, if
to any, and blocks begin and end with nodes that exist, if with any. So all loops over nodes end:
there are no more turns than nodes. -/
theorem handled_loopsEnd {u : WorkUnit} (h : u.Handled) :
    u.NextLarger ∧ ∀ turns, u.nodes.size ≤ turns → u.LoopsEnd turns := by
  have hLarger := h.nextLarger
  exact ⟨hLarger, fun turns hTurns =>
    { each := fun i b hBlock _ body s => hLarger.eachNode_eq hTurns hBlock body s
      last := fun i b hBlock => hLarger.deref_last hBlock
      split := fun b cut hRange => hLarger.splitLoop_eq hTurns hRange.1 hRange.2
      check := hLarger.violationLoop_eq hTurns
      listing := hLarger.listingLoop_eq hTurns
      lower := hLarger.lowerLoop_eq hTurns }⟩

/-- A cell is split in front of the first node of a code block. The new block and the code block
share all their nodes, and the cell is left with less than none. -/
def tangled : WorkUnit :=
  [.newBlock .code 0, .append 0 .zero 0, .append 0 .zero 1, .newBlock .chainHot 7, .split 1 0,
    .append 0 .zero 2].foldl edit (loose loopCode none)

/-- All loops over such a unit end. -/
theorem handled_loopsEnd_tangled :
    tangled.Handled ∧ tangled.numbersOf 0 = [0, 1, 2] ∧ tangled.numbersOf 2 = [0, 1, 2] ∧
    (tangled.blocks[1]?).map (·.numInsts) = some (-2) ∧
    tangled.NextLarger ∧ tangled.LoopsEnd 3 := by
  have hNew : (loose loopCode none).Handled := .new (fresh_loose loopCode none)
  have hCode := ((hNew.edit (e := .newBlock .code 0) trivial).edit (e := .append 0 .zero 0)
    (by decide)).edit (e := .append 0 .zero 1) (by decide)
  have hSplit := (hCode.edit (e := .newBlock .chainHot 7) trivial).edit (e := .split 1 0)
    (by decide)
  have hHandled : tangled.Handled := hSplit.edit (e := .append 0 .zero 2) (by decide)
  obtain ⟨hLarger, hEnds⟩ := handled_loopsEnd hHandled
  exact ⟨hHandled, by decide, by decide, by decide, hLarger, hEnds 3 (by decide)⟩

end WorkUnit

end TraceJit
