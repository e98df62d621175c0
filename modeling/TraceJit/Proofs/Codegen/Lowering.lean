import Mathlib.Algebra.GroupWithZero.Nat
import TraceJit.Codegen.Lowering
import TraceJit.Proofs.Graph.View

/-!
The program of a lowered unit, block by block. What a block adds can be read off its view, but for
the stubs: there is one for every instruction that can throw in the blocks before.
-/

namespace TraceJit

namespace Placed

def words (singleStep : Bool) (p : Placed) : Nat :=
  max 1 (Lowered.cost singleStep ((⟨0, p⟩ : Entry).node 0 noNode noNode))

def emitted (singleStep : Bool) (p : Placed) : List UInt32 :=
  Lowered.padded p.insn.op.byte p.offset
    (Lowered.cost singleStep ((⟨0, p⟩ : Entry).node 0 noNode noNode))

def throws (p : Placed) : Bool := p.insn.flow.has .throws

theorem sum_throws (ps : List Placed) :
    (ps.map fun p => p.throws.toNat).sum = ps.countP throws := by
  induction ps with
  | nil => rfl
  | cons p ps ih =>
      rw [List.map_cons, List.sum_cons, ih, List.countP_cons, Nat.add_comm]
      cases p.throws <;> rfl

theorem one_le_words (singleStep : Bool) (p : Placed) : 1 ≤ p.words singleStep :=
  Nat.le_max_left ..

end Placed

namespace BlockView

/-- Words that the block takes behind `before` instructions that can throw. -/
def words (singleStep : Bool) (before : Nat) (v : BlockView) : Nat :=
  match v.kind with
  | .code => (v.code.map (·.words singleStep)).sum + v.explicitBranch.toNat
  | .chainNormal => 4
  | .chainHot => 4
  | .chainInvoke => 6
  | .pcReconstruction => 2 * before
  | .exceptionHandling => 3
  | .undefined _ => 0

def throwing (v : BlockView) : Nat :=
  match v.kind with
  | .code => v.code.countP Placed.throws
  | _ => 0

/-- Code blocks have a stub for each instruction that can throw. -/
theorem sum_throwing {views : List BlockView} (hCode : ∀ v ∈ views, v.kind = .code) :
    (views.map (·.throwing)).sum = (views.flatMap (·.code)).countP Placed.throws := by
  rw [List.countP_flatMap]
  refine congrArg List.sum (List.map_congr_left fun v hv => ?_)
  simp only [throwing, hCode v hv, Function.comp_apply]

/-- The jump along the edge on which control falls, if it takes one. -/
def jump (v : BlockView) : List UInt32 :=
  if v.explicitBranch then
    [Lowered.tagged 0xff (v.fallThrough % UInt32.size).toNat.toUInt32]
  else []

/-- The words that the block is lowered to behind `before` instructions that can throw. -/
def emitted (singleStep : Bool) (before : Nat) (v : BlockView) : List UInt32 :=
  match v.kind with
  | .code => v.code.flatMap (·.emitted singleStep) ++ v.jump
  | .chainNormal => Lowered.padded 0xf1 v.start 4
  | .chainHot => Lowered.padded 0xf2 v.start 4
  | .chainInvoke => Lowered.padded 0xf3 v.start 6
  | .pcReconstruction => Lowered.stubWords before
  | .exceptionHandling => Lowered.padded 0xfd 0 3
  | .undefined _ => []

/-- The cell that the block is listed as, if it is one. -/
def cell? (v : BlockView) : Option Cell :=
  if v.kind.isCell then
    some
      { kind := v.kind, offset := v.start
        callee := (v.callee.map (·.ref)).getD "", target := (v.callee.map (·.addr)).getD 0 }
  else none

/-- The program behind which the block is lowered as well. -/
def lowerInto (singleStep : Bool) (p : Lowered) (v : BlockView) : Lowered where
  words := p.words ++ v.emitted singleStep p.throwing
  cells := p.cells ++ v.cell?.toList
  stubs := if v.kind = .pcReconstruction then p.throwing else p.stubs
  insts := p.insts + if v.kind = .code then v.body.length else 0
  throwing := p.throwing + v.throwing

/-- The block is of a kind that can be lowered. -/
def Lowers (v : BlockView) : Prop := ∀ byte, v.kind ≠ .undefined byte

/-- Words that blocks take one after the other. -/
def wordsFrom (singleStep : Bool) : Nat → List BlockView → Nat
  | _, [] => 0
  | before, v :: rest =>
      v.words singleStep before + wordsFrom singleStep (before + v.throwing) rest

/-- Words of blocks that follow each other. The stubs so far only number those to come. -/
theorem wordsFrom_append (singleStep : Bool) (before : Nat) (views more : List BlockView) :
    wordsFrom singleStep before (views ++ more) = wordsFrom singleStep before views +
      wordsFrom singleStep (before + (views.map (·.throwing)).sum) more := by
  induction views generalizing before with
  | nil => simp [wordsFrom]
  | cons v views ih =>
      simp only [List.cons_append, wordsFrom, ih, List.map_cons, List.sum_cons, Nat.add_assoc]

end BlockView

namespace Lowered

/-- An instruction is padded to the words it takes. -/
@[simp] theorem length_padded (tag : UInt8) (arg : UInt32) (n : Nat) :
    (padded tag arg n).length = max 1 n := by
  simp only [padded, List.length_cons, List.length_replicate]
  omega

@[simp] theorem length_stubWords (count : Nat) : (stubWords count).length = 2 * count := by
  simp [stubWords, List.length_flatMap, List.map_const', Nat.mul_comm]

@[simp] theorem size_append (words : Array UInt32) (more : List UInt32) :
    (words ++ more).size = words.size + more.length := by
  rw [← Array.length_toList, Array.toList_appendList, List.length_append, Array.length_toList]

theorem append_append (words : Array UInt32) (more rest : List UInt32) :
    words ++ more ++ rest = words ++ (more ++ rest) :=
  Array.toList_inj.mp (by simp)

/-- What the nodes of a chain add. -/
theorem foldl_addInsn (singleStep : Bool) (b : Nat) (prev : NodeId) (es : List Entry)
    (after : NodeId) (p : Lowered) :
    ((Entry.nodes b prev es after).map (·.2)).foldl (addInsn singleStep) p =
      { p with
        words := p.words ++ es.flatMap (·.placed.emitted singleStep)
        insts := p.insts + es.length
        throwing := p.throwing + es.countP (·.placed.throws) } := by
  induction es generalizing prev p with
  | nil => simp [Entry.nodes]
  | cons e es ih =>
      have hThrows : e.placed.throws = e.placed.insn.flow.has .throws := rfl
      rw [Entry.nodes, List.map_cons, List.foldl_cons, ih, addInsn, List.flatMap_cons,
        List.length_cons, List.countP_cons, hThrows, Lowered.mk.injEq]
      refine ⟨append_append .., rfl, rfl, ?_, ?_⟩
      · push_cast
        omega
      · rw [Entry.node_insn]
        dsimp only
        split <;> omega

end Lowered

theorem Placed.length_emitted (singleStep : Bool) (p : Placed) :
    (p.emitted singleStep).length = p.words singleStep := Lowered.length_padded ..

namespace BlockView

theorem length_emitted (singleStep : Bool) (before : Nat) (v : BlockView) :
    (v.emitted singleStep before).length = v.words singleStep before := by
  unfold emitted words
  cases v.kind with
  | code =>
      have hJump : v.jump.length = v.explicitBranch.toNat := by
        unfold jump
        cases v.explicitBranch <;> rfl
      simp only [List.length_append, List.length_flatMap, hJump, Placed.length_emitted]
  | _ => simp

def emittedFrom (singleStep : Bool) : Nat → List BlockView → List UInt32
  | _, [] => []
  | before, v :: rest =>
      v.emitted singleStep before ++ emittedFrom singleStep (before + v.throwing) rest

/-- As many words are emitted as are counted. -/
theorem length_emittedFrom (singleStep : Bool) (before : Nat) (views : List BlockView) :
    (emittedFrom singleStep before views).length = wordsFrom singleStep before views := by
  induction views generalizing before with
  | nil => rfl
  | cons v views ih => rw [emittedFrom, wordsFrom, List.length_append, length_emitted, ih]

/-- Blocks that follow each other are emitted one after the other. -/
theorem emittedFrom_append (singleStep : Bool) (before : Nat) (views more : List BlockView) :
    emittedFrom singleStep before (views ++ more) = emittedFrom singleStep before views ++
      emittedFrom singleStep (before + (views.map (·.throwing)).sum) more := by
  induction views generalizing before with
  | nil => simp [emittedFrom]
  | cons v views ih =>
      simp only [List.cons_append, emittedFrom, ih, List.map_cons, List.sum_cons, Nat.add_assoc,
        List.append_assoc]

/-- Blocks are emitted behind what is there. -/
theorem words_foldl (singleStep : Bool) (views : List BlockView) (p : Lowered) :
    (views.foldl (lowerInto singleStep) p).words.toList =
      p.words.toList ++ emittedFrom singleStep p.throwing views := by
  induction views generalizing p with
  | nil => simp [emittedFrom]
  | cons v views ih =>
      rw [List.foldl_cons, ih, lowerInto, emittedFrom, Array.toList_appendList,
        List.append_assoc]

/-- The size of a program that is lowered from nothing. -/
theorem size_foldl (singleStep : Bool) (views : List BlockView) :
    (views.foldl (lowerInto singleStep) {}).words.size = wordsFrom singleStep 0 views := by
  rw [← Array.length_toList, words_foldl, List.length_append, length_emittedFrom]
  exact Nat.zero_add _

end BlockView

namespace WorkUnit

variable {u : WorkUnit} {views : List BlockView}

/-- A block adds what its view says. -/
theorem Represents.addBlock (h : u.Represents views) {i : Nat} {v : BlockView}
    (hv : views[i]? = some v) (hLowers : v.Lowers) (p : Lowered) :
    p.addBlock u i (v.block i) = .ok (v.lowerInto u.singleStep p) := by
  unfold Lowered.addBlock BlockView.lowerInto BlockView.emitted BlockView.throwing BlockView.cell?
  have hKind : (v.block i).kind = v.kind := rfl
  rw [hKind]
  cases hCase : v.kind with
  | code =>
      have hBranch : (v.block i).explicitBranch = v.explicitBranch := rfl
      rw [h.nodesOf_eq hv, Lowered.foldl_addInsn, hBranch, BlockView.code, List.flatMap_map,
        List.countP_map, BlockView.jump]
      cases v.explicitBranch with
      | true => simp [← Lowered.append_append, BlockView.block, BlockKind.isCell, Function.comp_def]
      | false => simp [BlockKind.isCell, Function.comp_def]
  | undefined byte => exact absurd hCase (hLowers byte)
  | chainNormal => simp [Lowered.addCell, BlockView.block, BlockKind.isCell, hCase]
  | chainHot => simp [Lowered.addCell, BlockView.block, BlockKind.isCell, hCase]
  | chainInvoke => simp [Lowered.addCell, BlockView.block, BlockKind.isCell, hCase]
  | pcReconstruction => simp [BlockKind.isCell]
  | exceptionHandling => simp [BlockKind.isCell]

/-- Blocks of known kinds are lowered one after the other. -/
theorem Represents.lowerFrom {done rest : List BlockView} (h : u.Represents (done ++ rest))
    (hLowers : ∀ v ∈ rest, v.Lowers) (p : Lowered) :
    (rest.mapIdx fun i v => (((done.length + i : Nat) : BlockId),
        v.block (done.length + i))).foldlM (fun p x => p.addBlock u x.1 x.2) p =
      .ok (rest.foldl (BlockView.lowerInto u.singleStep) p) := by
  induction rest generalizing done p with
  | nil => rfl
  | cons v rest ih =>
      have hv : (done ++ v :: rest)[done.length]? = some v := by simp
      have hBlock := h.addBlock hv (hLowers v (List.mem_cons_self ..)) p
      rw [List.append_cons] at h
      have hRest := ih h (fun w hw => hLowers w (List.mem_cons_of_mem _ hw))
        (v.lowerInto u.singleStep p)
      rw [List.length_append, List.length_singleton] at hRest
      simp only [Nat.add_assoc, Nat.add_comm 1] at hRest
      rw [List.mapIdx_cons, List.foldlM_cons, Nat.add_zero, hBlock]
      exact hRest

/-- A unit is lowered block by block. -/
theorem Represents.lower_eq (h : u.Represents views) (hLowers : ∀ v ∈ views, v.Lowers) :
    u.lower = .ok (views.foldl (BlockView.lowerInto u.singleStep) {}) := by
  have hAll : u.Represents ([] ++ views) := h
  have hFold := hAll.lowerFrom hLowers {}
  simp only [List.length_nil, Nat.zero_add] at hFold
  rw [WorkUnit.lower, h.toList_blocks, List.mapIdx_mapIdx]
  exact hFold

/-- A unit whose blocks are of known kinds is lowered, to the words of its blocks. -/
theorem Represents.lower (h : u.Represents views) (hLowers : ∀ v ∈ views, v.Lowers) :
    ∃ p, u.lower = .ok p ∧ p.words.size = BlockView.wordsFrom u.singleStep 0 views :=
  ⟨_, h.lower_eq hLowers, BlockView.size_foldl ..⟩

end WorkUnit

end TraceJit
