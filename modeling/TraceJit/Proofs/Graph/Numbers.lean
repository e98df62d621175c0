import TraceJit.Proofs.Graph.SideExits
import TraceJit.Proofs.Graph.Validate

/-!
How many blocks and nodes a finished graph has. Their numbers stand for signed words of 32 bits; no
more than those can tell apart are given out for any method of at most `2 ^ 31` code units, and for
any trace under a ceiling of at most `2 ^ 29` instructions.
-/

namespace TraceJit.WorkUnit

/-- Signed words of 32 bits can tell all blocks and all nodes apart. -/
def Numberable (u : WorkUnit) : Prop := u.blocks.size ≤ 2 ^ 31 ∧ u.nodes.size ≤ 2 ^ 31

/-- Every node lies in one block. -/
theorem Represents.size_nodes {u : WorkUnit} {views : List BlockView} (h : u.Represents views) :
    u.nodes.size = (views.flatMap (·.body)).length := by
  have hLength := h.numbers.length_eq
  rw [List.length_map, List.length_range] at hLength
  exact hLength.symm

/-- Lists without an empty one among them are no more than their items. -/
theorem length_le_flatten {α : Type} {ls : List (List α)} (hFull : [] ∉ ls) :
    ls.length ≤ ls.flatten.length := by
  induction ls with
  | nil => exact Nat.le_refl _
  | cons l rest ih =>
      rw [List.mem_cons, not_or] at hFull
      have hPos : 0 < l.length := List.length_pos_iff.mpr (Ne.symm hFull.1)
      have hRest := ih hFull.2
      rw [List.length_cons, List.flatten_cons, List.length_append]
      omega

section Method

variable {u v : WorkUnit}

/-- A finished method has a node for each instruction, and no empty block. -/
theorem sizes_of_buildMethod (hFresh : u.Fresh) (hBuild : u.buildMethod = .ok v) :
    v.blocks.size ≤ v.nodes.size ∧ v.nodes.size ≤ u.code.units.size := by
  obtain ⟨-, n, bodies, h⟩ := methodBuilt_of_ok hFresh hBuild
  have hBodies : ((splitViews 0 bodies).map (linkView u.method.linkage bodies)).map (·.body) =
      bodies := by
    rw [List.map_map]
    exact map_body_splitViews 0 bodies
  have hNodes : v.nodes.size = bodies.flatten.length := by
    rw [h.views.size_nodes, List.flatMap_def, hBodies]
  have hWalk : bodies.flatten.length = n := by
    have hLength := congrArg List.length h.cut.placed
    rwa [List.length_map, Code.length_walk] at hLength
  rw [size_methodBlocks h.views, hNodes]
  exact ⟨length_le_flatten h.cut.full, hWalk ▸ h.le_size⟩

/-- The numbers of a finished method are in range if those of its code units are. -/
theorem numberable_of_buildMethod (hFresh : u.Fresh) (hBuild : u.buildMethod = .ok v)
    (hUnits : u.code.units.size ≤ 2 ^ 31) : v.Numberable := by
  obtain ⟨hBlocks, hNodes⟩ := sizes_of_buildMethod hFresh hBuild
  exact ⟨by omega, by omega⟩

end Method

section Trace

variable {l : Linkage} {views : List BlockView}

/-- A block needs two cells at most. -/
theorem length_cellsOf_le (l : Linkage) (views : List BlockView) (i : Nat) (p : Placed) :
    (cellsOf l views i p).length ≤ 2 := by
  have hNeeded (found : BlockId) (cell? : Option BlockView) : (needed found cell?).length ≤ 1 := by
    unfold needed
    split
    · cases cell? <;> simp
    · simp
  have hTaken := hNeeded (takenFound l views i p) (takenCell? l p)
  have hFall := hNeeded (fallFound views i p) (fallCell? l p)
  rw [cellsOf, List.length_append, takenNeeds, fallNeeds]
  omega

theorem length_cellsFrom_le (l : Linkage) (views : List BlockView) (i : Nat)
    (rest : List BlockView) : (cellsFrom l views i rest).length ≤ 2 * rest.length := by
  induction rest generalizing i with
  | nil => exact Nat.le_refl _
  | cons v rest ih =>
      have hCells := length_cellsOf_le l views i (lastOf v)
      have hRest := ih (i + 1)
      rw [cellsFrom, List.length_append, List.length_cons]
      omega

variable {u v : WorkUnit} {runs : List Run} {c : Nat} {pieces : List (Run × List Entry)}

/-- A finished trace has a node for each of its instructions. -/
theorem TraceBuilt.size_nodes (h : u.TraceBuilt v runs c pieces) :
    v.nodes.size = (pieces.flatMap (·.2)).length := by
  have hRest (w : BlockView) (hw : w ∈ cellsFrom u.method.linkage (runViews 0 pieces) 0
      (runViews 0 pieces) ++ closingViews) : w.body = [] := body_of_mem_rest hw
  have hBodies := congrArg (List.map (·.body)) (map_unlinked_resolvedFrom u.method.linkage
    (runViews 0 pieces) 0 (runViews 0 pieces).length (runViews 0 pieces))
  rw [List.map_map, List.map_map] at hBodies
  rw [h.views.size_nodes, traceViews, List.flatMap_append, List.flatMap_eq_nil_iff.mpr hRest,
    List.append_nil, List.flatMap_def]
  refine (congrArg (fun bodies => bodies.flatten.length) hBodies).trans ?_
  exact congrArg (fun bodies => bodies.flatten.length) (map_body_runViews 0 pieces)

/-- A finished trace has a block and at most two cells for each run, and two closing blocks. -/
theorem TraceBuilt.size_blocks_le (h : u.TraceBuilt v runs c pieces) :
    v.blocks.size ≤ 3 * pieces.length + 2 := by
  have hCells := length_cellsFrom_le u.method.linkage (runViews 0 pieces) 0 (runViews 0 pieces)
  rw [length_runViews] at hCells
  rw [h.views.size_eq, traceViews, List.length_append, List.length_append, length_resolvedFrom,
    length_runViews, closingViews]
  simp only [List.length_cons, List.length_nil]
  omega

theorem TraceBuilt.length_pieces_le (h : u.TraceBuilt v runs c pieces) :
    pieces.length ≤ (pieces.flatMap (·.2)).length := by
  have hFull : [] ∉ pieces.map (·.2) := by
    rw [List.mem_map]
    rintro ⟨x, hx, hEmpty⟩
    exact h.full x hx hEmpty
  rw [List.flatMap_def]
  simpa using length_le_flatten hFull

/-- A finished trace has a node for each instruction, and for each of its runs, none of which is
empty, a block and at most two cells. -/
theorem sizes_of_buildTrace {c : Int64} (hFresh : u.Fresh)
    (hBuild : u.buildTrace c.toInt = .ok v) :
    v.nodes.size ≤ c.toInt.toNat ∧ v.blocks.size ≤ 3 * v.nodes.size + 2 := by
  obtain ⟨t, pieces, -, h⟩ := hFresh.traceBuilt hBuild
  have hWalked := congrArg List.length h.carries.flatMap_eq
  rw [List.length_map, List.length_take, ← List.map_flatMap, List.length_map] at hWalked
  have hCut : (pieces.flatMap (·.2)).length ≤ c.toInt.toNat :=
    hWalked.trans_le (Nat.min_le_left _ _)
  have hBlocks := h.size_blocks_le
  have hPieces := h.length_pieces_le
  rw [h.size_nodes]
  exact ⟨by omega, by omega⟩

/-- The numbers of a finished trace are in range if its ceiling is. -/
theorem numberable_of_buildTrace {c : Int64} (hFresh : u.Fresh)
    (hBuild : u.buildTrace c.toInt = .ok v) (hCeiling : c.toInt ≤ 2 ^ 29) : v.Numberable := by
  obtain ⟨hNodes, hBlocks⟩ := sizes_of_buildTrace hFresh hBuild
  exact ⟨by omega, by omega⟩

end Trace

end TraceJit.WorkUnit
