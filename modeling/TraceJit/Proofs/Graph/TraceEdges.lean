import Mathlib.Data.List.Nodup
import TraceJit.Proofs.Graph.TraceGraph

/-!
The edges of a finished trace. Each follows from the last instruction of its block: it leads to the
first later code block at the right offset, or to a cell that no other edge leads to. All edges lead
forward, so the graph has no cycles.
-/

namespace TraceJit.WorkUnit

/-- Block `j` is a code block that starts at `off`. -/
def CodeAt (v : WorkUnit) (j : Nat) (off : UInt32) : Prop :=
  ∃ b, v.blocks[j]? = some b ∧ b.kind = .code ∧ b.start = off

/-- Block `j` is the first code block behind block `i` that starts at `off`. -/
def FirstBehind (v : WorkUnit) (i : Nat) (off : UInt32) (j : Nat) : Prop :=
  i < j ∧ v.CodeAt j off ∧ ∀ k, i < k → k < j → ¬v.CodeAt k off

/-- Block `j` is of this kind, stands for this offset, and carries this callee. -/
def CellAt (v : WorkUnit) (j : Nat) (kind : BlockKind) (off : UInt32)
    (callee : Option MethodInfo) : Prop :=
  ∃ b, v.blocks[j]? = some b ∧ b.kind = kind ∧ b.start = off ∧ b.callee = callee

/-- Where the branch edge of block `i` leads, which ends with `last`. -/
inductive TakenLeads (v : WorkUnit) (l : Linkage) (i : Nat) (last : Placed) : BlockId → Prop where
  /-- To the first later code block at the target of the branch. -/
  | inside {t : UInt32} {j : Nat} (hTarget : l.target? last = some t)
      (hFirst : v.FirstBehind i t j) : TakenLeads v l i last j
  /-- To a cell for the target, if there is no such block. -/
  | branch {t : UInt32} {j : Nat} (hTarget : l.target? last = some t)
      (hOutside : ∀ k, i < k → ¬v.CodeAt k t)
      (hCell : v.CellAt j (if last.insn.isGoto then .chainHot else .chainNormal) t none) :
      TakenLeads v l i last j
  /-- To a cell for the method that is called, if it is known and not native. -/
  | call {callee : MethodInfo} {j : Nat} (hTarget : l.target? last = none)
      (hCallee : (l.boundaryOf last).callee = some callee) (hNative : callee.native = false)
      (hCell : v.CellAt j .chainInvoke 0 (some callee)) : TakenLeads v l i last j
  /-- Nowhere otherwise. -/
  | nowhere (hTarget : l.target? last = none)
      (hCallee : ∀ callee, (l.boundaryOf last).callee = some callee → callee.native = true) :
      TakenLeads v l i last noBlock

/-- Where control falls from block `i`, which ends with `last`. -/
inductive FallLeads (v : WorkUnit) (l : Linkage) (i : Nat) (last : Placed) : BlockId → Prop where
  /-- To the first later code block that starts right behind the instruction. -/
  | inside {j : Nat} (hFirst : v.FirstBehind i last.next j) : FallLeads v l i last j
  /-- To a cell for the offset behind the instruction, if there is no such block. -/
  | outside {j : Nat} (hOutside : ∀ k, i < k → ¬v.CodeAt k last.next)
      (hExit : last.insn.isUnconditionalExit = false)
      (hCell : v.CellAt j (if (l.boundaryOf last).isInvoke || !last.insn.flow.changesFlow
        then .chainHot else .chainNormal) last.next none) : FallLeads v l i last j
  /-- Nowhere if control never falls out of the instruction. -/
  | nowhere (hOutside : ∀ k, i < k → ¬v.CodeAt k last.next)
      (hExit : last.insn.isUnconditionalExit = true) : FallLeads v l i last noBlock

/-- Where all edges lead, two edges for each block. -/
def edgeEnds (v : WorkUnit) : List BlockId :=
  v.blocks.toList.flatMap fun b => [b.taken, b.fallThrough]

/-- An edge of block `i` leads nowhere or to a later block. -/
def LeadsForward (v : WorkUnit) (i : Nat) (e : BlockId) : Prop :=
  e = noBlock ∨ ∃ j : Nat, e = j ∧ i < j ∧ j < v.blocks.size

/-- What makes `v` the graph of a trace of `u` with `m` code blocks. -/
structure IsTraceGraph (u v : WorkUnit) (m : Nat) : Prop where
  /-- Code blocks come first, then cells, then the two closing blocks. -/
  kinds : ∃ cells : List BlockKind, (∀ k ∈ cells, k.isCell = true) ∧
    v.blocks.toList.map (·.kind) =
      List.replicate m .code ++ (cells ++ [.pcReconstruction, .exceptionHandling])
  /-- The edges of a code block follow from its last instruction. -/
  edges : ∀ i < m, ∃ b last, v.blocks[i]? = some b ∧ (v.instructionsOf i).getLast? = some last ∧
    v.TakenLeads u.method.linkage i last b.taken ∧
    v.FallLeads u.method.linkage i last b.fallThrough
  /-- Other blocks have no edges. -/
  leaves : ∀ (i : Nat) b, v.blocks[i]? = some b → b.kind ≠ .code →
    b.taken = noBlock ∧ b.fallThrough = noBlock ∧ b.next = noBlock
  /-- A cell belongs to one edge. -/
  once : ∀ (j : Nat) b, v.blocks[j]? = some b → b.kind.isCell = true →
    v.edgeEnds.count (j : BlockId) = 1
  /-- Edges lead to later blocks. -/
  forward : ∀ (i : Nat) b, v.blocks[i]? = some b →
    ∀ e ∈ [b.taken, b.fallThrough, b.next], v.LeadsForward i e

/-! ### Resolved edges -/

section Resolve

variable {v : WorkUnit} {l : Linkage} {views : List BlockView} {i total : Nat} {p : Placed}

/-- A branch out of the region gets a cell for its target. -/
theorem takenCell?_of_target {t : UInt32} (hTarget : l.target? p = some t) :
    takenCell? l p =
      some { kind := if p.insn.isGoto then .chainHot else .chainNormal, start := t } := by
  rw [takenCell?, Linkage.redirect?_of_target? hTarget, hTarget, Option.map_some,
    Linkage.has_always_of_target? hTarget]

/-- An edge to a block behind goes forward. -/
theorem FirstBehind.leadsForward {off : UInt32} {j : Nat} (h : v.FirstBehind i off j) :
    v.LeadsForward i j := by
  obtain ⟨hBehind, ⟨b, hBlock, _⟩, _⟩ := h
  exact .inr ⟨j, rfl, hBehind, (Array.getElem?_eq_some_iff.mp hBlock).1⟩

theorem takenFound_of_target {t : UInt32} (hTarget : l.target? p = some t) :
    takenFound l views i p = searchFrom views (i + 1) t := by
  rw [takenFound, hTarget, blockAt]

theorem takenFound_of_none (hTarget : l.target? p = none) : takenFound l views i p = noBlock := by
  rw [takenFound, hTarget, blockAt]

/-- A view of a cell is one of the unit's cells. -/
theorem Represents.cellAt {all : List BlockView} {j : Nat} {cell : BlockView}
    (h : v.Represents all) (hCell : all[j]? = some cell) :
    v.CellAt j cell.kind cell.start cell.callee :=
  ⟨cell.block j, by rw [h.blocks, hCell, Option.map_some], rfl, rfl, rfl⟩

variable (hCode : ∀ j off, v.CodeAt j off ↔ StartsAt views j off)

include hCode

/-- What a search finds is the first block behind that begins there. -/
theorem firstBehind_of_searchFrom {off : UInt32} {j : Nat}
    (hFound : searchFrom views (i + 1) off = (j : BlockId)) : v.FirstBehind i off j := by
  obtain ⟨hBehind, hStarts, hFirst⟩ := searchFrom_eq_iff.mp hFound
  exact ⟨hBehind, (hCode j off).mpr hStarts, fun k hk hLess hAt =>
    hFirst k hk hLess ((hCode k off).mp hAt)⟩

/-- What a search does not find is not there. -/
theorem not_codeAt_of_searchFrom {off : UInt32}
    (hNone : searchFrom views (i + 1) off = noBlock) (k : Nat) (hk : i < k) : ¬v.CodeAt k off :=
  fun hAt => searchFrom_eq_noBlock_iff.mp hNone k hk ((hCode k off).mp hAt)

/-- The branch edge of a block leads where its last instruction says. -/
theorem takenLeads_edgeTo
    (hCell : ∀ cell, takenNeeds l views i p = [cell] →
      v.CellAt total cell.kind cell.start cell.callee) :
    v.TakenLeads l i p (edgeTo (takenFound l views i p) (takenCell? l p) total) := by
  unfold takenNeeds at hCell
  cases hTarget : l.target? p with
  | some t =>
      rw [takenFound_of_target hTarget, takenCell?_of_target hTarget] at hCell ⊢
      rcases searchFrom_spec views (i + 1) t with ⟨hNone, _⟩ | ⟨j, hFound, _⟩
      · rw [edgeTo, if_pos hNone]
        rw [needed, if_pos hNone] at hCell
        exact .branch hTarget (not_codeAt_of_searchFrom hCode hNone) (hCell _ rfl)
      · rw [edgeTo, if_neg (hFound ▸ natCast_ne_noBlock j), hFound]
        exact .inside hTarget (firstBehind_of_searchFrom hCode hFound)
  | none =>
      rw [takenFound_of_none hTarget, edgeTo, if_pos rfl]
      rw [takenFound_of_none hTarget, needed, if_pos rfl] at hCell
      cases hRedirect : (l.boundaryOf p).redirect? with
      | some callee =>
          obtain ⟨hCallee, hManaged⟩ := Option.filter_eq_some_iff.mp hRedirect
          rw [takenCell?, hRedirect] at hCell ⊢
          exact .call hTarget hCallee (by simpa using hManaged) (hCell _ rfl)
      | none =>
          have hNothing : takenCell? l p = none := by
            rw [takenCell?, hRedirect, hTarget]
            rfl
          rw [hNothing]
          refine .nowhere hTarget fun callee hCallee => ?_
          rw [Boundary.redirect?, hCallee] at hRedirect
          simpa using hRedirect

/-- Control falls from a block where its last instruction says. -/
theorem fallLeads_edgeTo
    (hCell : ∀ cell, fallNeeds l views i p = [cell] →
      v.CellAt total cell.kind cell.start cell.callee) :
    v.FallLeads l i p (edgeTo (fallFound views i p) (fallCell? l p) total) := by
  unfold fallNeeds at hCell
  rcases searchFrom_spec views (i + 1) p.next with ⟨hNone, _⟩ | ⟨j, hFound, _⟩
  · rw [edgeTo, fallFound, if_pos hNone]
    rw [needed, fallFound, if_pos hNone] at hCell
    have hOutside := not_codeAt_of_searchFrom hCode hNone
    cases hExit : p.insn.isUnconditionalExit with
    | true =>
        have hNothing : fallCell? l p = none := by rw [fallCell?, if_pos hExit]
        rw [hNothing]
        exact .nowhere hOutside hExit
    | false =>
        rw [fallCell?, hExit] at hCell ⊢
        exact .outside hOutside hExit (hCell _ rfl)
  · rw [edgeTo, fallFound, if_neg (hFound ▸ natCast_ne_noBlock j), hFound]
    exact .inside (firstBehind_of_searchFrom hCode hFound)

end Resolve

/-! ### Cells and the edges to them -/

section Cells

variable {l : Linkage} {views : List BlockView} {i m total : Nat} {p : Placed}

/-- A search finds code blocks only. -/
theorem searchFrom_lt (lo : Nat) (off : UInt32) :
    searchFrom views lo off < (views.length : BlockId) := by
  rcases searchFrom_spec views lo off with ⟨hNone, _⟩ | ⟨j, hFound, _, ⟨w, hw, _⟩, _⟩
  · rw [hNone]
    exact noBlock_lt _
  · rw [hFound]
    exact Int.ofNat_lt.mpr (List.getElem?_eq_some_iff.mp hw).1

theorem takenFound_lt : takenFound l views i p < (views.length : BlockId) := by
  cases hTarget : l.target? p with
  | some t =>
      rw [takenFound_of_target hTarget]
      exact searchFrom_lt ..
  | none =>
      rw [takenFound_of_none hTarget]
      exact noBlock_lt _

/-- The numbers of `n` blocks from number `lo` on. -/
def idsFrom (lo n : Nat) : List BlockId := (List.range' lo n).map fun j : Nat => (j : BlockId)

theorem idsFrom_add (lo a b : Nat) : idsFrom lo (a + b) = idsFrom lo a ++ idsFrom (lo + a) b := by
  rw [idsFrom, ← List.range'_append_1, List.map_append, idsFrom, idsFrom]

theorem nodup_idsFrom (lo n : Nat) : (idsFrom lo n).Nodup :=
  List.Nodup.map (fun _ _ hEq => Int.natCast_inj.mp hEq) List.nodup_range'

theorem mem_idsFrom {lo n j : Nat} : (j : BlockId) ∈ idsFrom lo n ↔ lo ≤ j ∧ j < lo + n := by
  rw [idsFrom, List.mem_map]
  simp only [Int.natCast_inj, exists_eq_right, List.mem_range'_1]

/-- An edge leads to a number of its own exactly if a cell is made for it. -/
theorem filter_edgeTo {found : BlockId} (hFound : found < (m : BlockId)) (hTotal : m ≤ total)
    (cell? : Option BlockView) :
    [edgeTo found cell? total].filter (fun e => (m : BlockId) ≤ e) =
      idsFrom total (needed found cell?).length := by
  have hNone : ¬(m : BlockId) ≤ noBlock := Int.not_le.mpr (noBlock_lt m)
  unfold edgeTo needed idsFrom
  by_cases hNoBlock : found = noBlock
  · rw [if_pos hNoBlock, if_pos hNoBlock]
    cases cell? with
    | none => simp [hNone]
    | some cell => simp [Int.ofNat_le.mpr hTotal]
  · rw [if_neg hNoBlock, if_neg hNoBlock]
    simp [Int.not_le.mpr hFound]

def exits (v : BlockView) : List BlockId := [v.taken, v.fallThrough]

/-- The edges of a block into cells are those that were added for it, each once. -/
theorem filter_exits_resolvedView (l : Linkage) (i : Nat) (p : Placed) (v : BlockView)
    (hTotal : views.length ≤ total) :
    (exits (resolvedView l views i p total v)).filter (fun e => (views.length : BlockId) ≤ e) =
      idsFrom total (cellsOf l views i p).length := by
  have hTaken := filter_edgeTo (takenFound_lt (l := l) (i := i) (p := p)) hTotal (takenCell? l p)
  have hFall := filter_edgeTo (searchFrom_lt (i + 1) p.next)
    (Nat.le_add_right_of_le (k := (takenNeeds l views i p).length) hTotal) (fallCell? l p)
  have hExits : exits (resolvedView l views i p total v) =
      [(resolvedView l views i p total v).taken] ++
        [(resolvedView l views i p total v).fallThrough] := rfl
  rw [cellsOf, List.length_append, idsFrom_add, hExits, List.filter_append]
  exact congrArg₂ (· ++ ·) hTaken hFall

/-- The edges that leave the code blocks are numbered as the cells are. -/
theorem filter_exits_resolvedFrom {rest : List BlockView} (hTotal : views.length ≤ total) :
    ((resolvedFrom l views i total rest).flatMap exits).filter
        (fun e => (views.length : BlockId) ≤ e) =
      idsFrom total (cellsFrom l views i rest).length := by
  induction rest generalizing i total with
  | nil => rfl
  | cons v rest ih =>
      -- A block uses the numbers of its own cells, and the next one goes on behind them.
      rw [resolvedFrom, cellsFrom, List.flatMap_cons, List.filter_append, List.length_append,
        idsFrom_add, filter_exits_resolvedView l i (lastOf v) v hTotal, ih (by omega)]

/-- Blocks behind the runs have no edges. -/
theorem leads_nowhere_of_mem_rest {rest : List BlockView} {w : BlockView}
    (hw : w ∈ cellsFrom l views i rest ++ closingViews) :
    w.taken = noBlock ∧ w.fallThrough = noBlock ∧ w.next = noBlock := by
  rcases List.mem_append.mp hw with hCell | hClosing
  · rw [(isCell_of_mem_cellsFrom hCell).bare]
    exact ⟨rfl, rfl, rfl⟩
  · rw [closingViews, List.mem_pair] at hClosing
    rcases hClosing with rfl | rfl
    · exact ⟨rfl, rfl, rfl⟩
    · exact ⟨rfl, rfl, rfl⟩

end Cells

/-! ### The whole graph -/

namespace TraceBuilt

variable {u v : WorkUnit} {runs : List Run} {c i j : Nat} {pieces : List (Run × List Entry)}
  {b : Block}

/-- The code blocks that start somewhere are the runs that do. -/
theorem codeAt_iff (h : u.TraceBuilt v runs c pieces) (j : Nat) (off : UInt32) :
    v.CodeAt j off ↔ StartsAt (runViews 0 pieces) j off := by
  have hAll : v.CodeAt j off ↔
      StartsAt (traceViews u.method.linkage (runViews 0 pieces)) j off := by
    simp only [CodeAt, StartsAt, h.views.blocks, Option.map_eq_some_iff]
    constructor
    · rintro ⟨_, ⟨w, hw, rfl⟩, hKind, hStart⟩
      exact ⟨w, hw, hKind, hStart⟩
    · rintro ⟨w, hw, hKind, hStart⟩
      exact ⟨_, ⟨w, hw, rfl⟩, hKind, hStart⟩
  rw [hAll, traceViews, startsAt_append fun w hw => kind_ne_of_mem_rest hw, startsAt_iff,
    searchKeys_resolvedFrom, ← startsAt_iff]

/-- A block is a run with its edges, or one of those behind all runs. -/
theorem block_cases (h : u.TraceBuilt v runs c pieces) (hBlock : v.blocks[i]? = some b) :
    (i < pieces.length ∧ b.kind = .code) ∨
    (pieces.length ≤ i ∧ ∃ w ∈ cellsFrom u.method.linkage (runViews 0 pieces) 0
      (runViews 0 pieces) ++ closingViews, b = w.block i) := by
  rw [h.views.blocks, Option.map_eq_some_iff] at hBlock
  obtain ⟨w, hw, rfl⟩ := hBlock
  rw [traceViews, List.getElem?_append, length_resolvedFrom, length_runViews] at hw
  split at hw
  next hRun => exact .inl ⟨hRun, kind_of_mem_resolvedFrom (List.mem_of_getElem? hw)⟩
  next hRest => exact .inr ⟨Nat.le_of_not_lt hRest, w, List.mem_of_getElem? hw, rfl⟩

/-- The code blocks of a trace come first. -/
theorem kind_eq_code_iff (h : u.TraceBuilt v runs c pieces) (hBlock : v.blocks[i]? = some b) :
    b.kind = .code ↔ i < pieces.length := by
  rcases h.block_cases hBlock with ⟨hi, hKind⟩ | ⟨hPast, w, hw, rfl⟩
  · exact iff_of_true hKind hi
  · exact iff_of_false (kind_ne_of_mem_rest hw) (Nat.not_lt.mpr hPast)

/-- Behind the code blocks there are cells, and two closing blocks behind these. -/
theorem kinds (h : u.TraceBuilt v runs c pieces) :
    ∃ cells : List BlockKind, (∀ k ∈ cells, k.isCell = true) ∧
      v.blocks.toList.map (·.kind) = List.replicate pieces.length .code ++
        (cells ++ [.pcReconstruction, .exceptionHandling]) := by
  refine ⟨(cellsFrom u.method.linkage (runViews 0 pieces) 0 (runViews 0 pieces)).map (·.kind),
    ?_, ?_⟩
  · intro k hk
    obtain ⟨w, hw, rfl⟩ := List.mem_map.mp hk
    exact (isCell_of_mem_cellsFrom hw).kind
  · have hCode : (resolvedFrom u.method.linkage (runViews 0 pieces) 0
        (runViews 0 pieces).length (runViews 0 pieces)).map (·.kind) =
        List.replicate pieces.length .code := by
      rw [List.map_eq_replicate_iff.mpr fun w hw => kind_of_mem_resolvedFrom hw,
        length_resolvedFrom, length_runViews]
    rw [h.views.map_blocks fun _ _ => rfl, traceViews, List.map_append, List.map_append, hCode]
    rfl

/-- Nothing leads on from a cell or a closing block. -/
theorem leaves (h : u.TraceBuilt v runs c pieces) (hBlock : v.blocks[i]? = some b)
    (hKind : b.kind ≠ .code) : b.taken = noBlock ∧ b.fallThrough = noBlock ∧ b.next = noBlock := by
  rcases h.block_cases hBlock with ⟨_, hCode⟩ | ⟨_, w, hw, rfl⟩
  · exact absurd hCode hKind
  · exact leads_nowhere_of_mem_rest hw

/-- Where the last instruction of a block leads to. -/
theorem edges (h : u.TraceBuilt v runs c pieces) (hi : i < pieces.length) :
    ∃ b last, v.blocks[i]? = some b ∧ (v.instructionsOf i).getLast? = some last ∧
      v.TakenLeads u.method.linkage i last b.taken ∧
      v.FallLeads u.method.linkage i last b.fallThrough := by
  have hi' : i < (runViews 0 pieces).length := by rwa [length_runViews]
  have hRun := List.getElem?_eq_getElem hi'
  have hFull : (runViews 0 pieces)[i].body ≠ [] := by
    obtain ⟨_, x, hx, _, hBody⟩ := exists_piece_of_mem_runViews (List.getElem_mem hi')
    exact hBody ▸ h.full x hx
  obtain ⟨before, after, hCells, hView⟩ := exists_traceView u.method.linkage hRun
  refine ⟨_, lastOf (runViews 0 pieces)[i], by rw [h.views.blocks, hView, Option.map_some], ?_,
    takenLeads_edgeTo h.codeAt_iff fun cell hCell => ?_,
    fallLeads_edgeTo h.codeAt_iff fun cell hCell => ?_⟩
  · rw [h.views.instructionsOf_eq, hView]
    exact getLast?_code hFull
  · rw [cellsOf, hCell] at hCells
    exact h.views.cellAt (getElem?_traceViews_cell hCells)
  · rw [cellsOf, hCell, List.append_assoc, ← List.append_assoc] at hCells
    rw [Nat.add_assoc, ← List.length_append]
    exact h.views.cellAt (getElem?_traceViews_cell hCells)

/-- Cells come right behind the runs. -/
theorem mem_idsFrom_of_isCell (h : u.TraceBuilt v runs c pieces) (hBlock : v.blocks[j]? = some b)
    (hKind : b.kind.isCell = true) :
    (j : BlockId) ∈ idsFrom pieces.length (cellsFrom u.method.linkage (runViews 0 pieces) 0
      (runViews 0 pieces)).length := by
  rw [mem_idsFrom]
  have hBehind : pieces.length ≤ j := by
    rcases h.block_cases hBlock with ⟨_, hCode⟩ | ⟨hBehind, _⟩
    · rw [hCode] at hKind
      cases hKind
    · exact hBehind
  refine ⟨hBehind, Nat.lt_of_not_le fun hPast => ?_⟩
  rw [h.views.blocks, Option.map_eq_some_iff] at hBlock
  obtain ⟨w, hw, rfl⟩ := hBlock
  rw [traceViews, ← List.append_assoc, List.getElem?_append_right (by simpa using hPast)] at hw
  have hClosing := List.mem_of_getElem? hw
  rw [closingViews, List.mem_pair] at hClosing
  rcases hClosing with rfl | rfl
  · cases hKind
  · cases hKind

theorem edgeEnds_eq (h : u.TraceBuilt v runs c pieces) :
    v.edgeEnds = (traceViews u.method.linkage (runViews 0 pieces)).flatMap exits := by
  rw [edgeEnds, List.flatMap_def, h.views.map_blocks (g := exits) fun _ _ => rfl, List.flatMap_def]

/-- One edge leads to each cell. -/
theorem count_edgeEnds (h : u.TraceBuilt v runs c pieces) (hBlock : v.blocks[j]? = some b)
    (hKind : b.kind.isCell = true) : v.edgeEnds.count (j : BlockId) = 1 := by
  have hMem := h.mem_idsFrom_of_isCell hBlock hKind
  have hBehind : ((runViews 0 pieces).length : BlockId) ≤ j := by
    rw [length_runViews]
    exact Int.ofNat_le.mpr (mem_idsFrom.mp hMem).1
  have hRest : ((cellsFrom u.method.linkage (runViews 0 pieces) 0 (runViews 0 pieces) ++
      closingViews).flatMap exits).count (j : BlockId) = 0 := by
    rw [List.count_eq_zero, List.mem_flatMap]
    rintro ⟨w, hw, hExit⟩
    obtain ⟨hTaken, hFall, _⟩ := leads_nowhere_of_mem_rest hw
    rw [exits, hTaken, hFall, List.mem_pair, or_self] at hExit
    exact natCast_ne_noBlock j hExit
  rw [h.edgeEnds_eq, traceViews, List.flatMap_append, List.count_append, hRest, Nat.add_zero,
    ← List.count_filter (p := fun e => ((runViews 0 pieces).length : BlockId) ≤ e)
      (decide_eq_true hBehind),
    filter_exits_resolvedFrom (Nat.le_refl _), length_runViews]
  exact List.count_eq_one_of_mem (nodup_idsFrom ..) hMem

/-- Cells are behind the code blocks. -/
theorem behind_of_cellAt (h : u.TraceBuilt v runs c pieces) (hi : i < pieces.length)
    {kind : BlockKind} {off : UInt32} {callee : Option MethodInfo}
    (hCell : v.CellAt j kind off callee) (hKind : kind ≠ .code) : i < j ∧ j < v.blocks.size := by
  obtain ⟨b, hBlock, rfl, _⟩ := hCell
  refine ⟨?_, (Array.getElem?_eq_some_iff.mp hBlock).1⟩
  rcases h.block_cases hBlock with ⟨_, hCode⟩ | ⟨hBehind, _⟩
  · exact absurd hCode hKind
  · exact Nat.lt_of_lt_of_le hi hBehind

/-- The branch of a block goes forward. -/
theorem leadsForward_taken (h : u.TraceBuilt v runs c pieces) (hi : i < pieces.length)
    {l : Linkage} {last : Placed} {e : BlockId} (hLeads : v.TakenLeads l i last e) :
    v.LeadsForward i e := by
  cases hLeads with
  | inside _ hFirst => exact hFirst.leadsForward
  | branch _ _ hCell =>
      refine .inr ⟨_, rfl, h.behind_of_cellAt hi hCell ?_⟩
      split <;> decide
  | call _ _ _ hCell => exact .inr ⟨_, rfl, h.behind_of_cellAt hi hCell (by decide)⟩
  | nowhere => exact .inl rfl

/-- So does its way on. -/
theorem leadsForward_fall (h : u.TraceBuilt v runs c pieces) (hi : i < pieces.length)
    {l : Linkage} {last : Placed} {e : BlockId} (hLeads : v.FallLeads l i last e) :
    v.LeadsForward i e := by
  cases hLeads with
  | inside hFirst => exact hFirst.leadsForward
  | outside _ _ hCell =>
      refine .inr ⟨_, rfl, h.behind_of_cellAt hi hCell ?_⟩
      split <;> decide
  | nowhere => exact .inl rfl

/-- All edges go forward. -/
theorem forward (h : u.TraceBuilt v runs c pieces) (hBlock : v.blocks[i]? = some b) :
    ∀ e ∈ [b.taken, b.fallThrough, b.next], v.LeadsForward i e := by
  rcases h.block_cases hBlock with ⟨hi, _⟩ | ⟨_, w, hw, rfl⟩
  · obtain ⟨b', last, hBlock', _, hTaken, hFall⟩ := h.edges hi
    obtain rfl : b = b' := Option.some.inj (hBlock.symm.trans hBlock')
    obtain ⟨b'', hBlock'', _, hNext, _⟩ := h.exists_block (List.getElem?_eq_getElem hi)
    obtain rfl : b = b'' := Option.some.inj (hBlock.symm.trans hBlock'')
    simp only [List.forall_mem_cons]
    refine ⟨h.leadsForward_taken hi hTaken, h.leadsForward_fall hi hFall, ?_, by simp⟩
    rw [hNext]
    by_cases hMore : i + 1 < pieces.length
    · rw [if_pos hMore]
      obtain ⟨_, hLater, _⟩ := h.exists_block (List.getElem?_eq_getElem hMore)
      exact .inr ⟨i + 1, rfl, Nat.lt_succ_self i, (Array.getElem?_eq_some_iff.mp hLater).1⟩
    · rw [if_neg hMore]
      exact .inl rfl
  · obtain ⟨hTaken, hFall, hNext⟩ := leads_nowhere_of_mem_rest hw
    simp only [List.forall_mem_cons]
    exact ⟨.inl hTaken, .inl hFall, .inl hNext, by simp⟩

end TraceBuilt

/-- Trace linking is exact and closed. Where the build of a fresh unit succeeds, its code blocks
come first, then the cells, then two closing blocks. The two edges of a code block follow from its
last instruction; every cell belongs to exactly one of them, and all edges lead to later blocks. -/
theorem buildTrace_edges {u v : WorkUnit} {c : Int64} (hFresh : u.Fresh)
    (hBuild : u.buildTrace c.toInt = .ok v) : ∃ m, u.IsTraceGraph v m := by
  have hAccepted : u.traceRefusal? c.toInt = none := by
    cases hRefusal : u.traceRefusal? c.toInt with
    | none => rfl
    | some e =>
        rw [buildTrace, hRefusal] at hBuild
        cases hBuild
  obtain ⟨t, hTrace, hRuns, hPos, hCounts⟩ := traceRefusal?_eq_none_iff.mp hAccepted
  rw [← natCast_toNat_toInt hPos] at hBuild
  obtain ⟨pieces, h⟩ := traceBuilt_of_ok hFresh hTrace hRuns hCounts (Int.lt_toNat.mpr hPos)
    (toNat_toInt_lt c) hBuild
  exact ⟨pieces.length, h.kinds, fun i hi => h.edges hi, fun i b hBlock => h.leaves hBlock,
    fun j b hBlock => h.count_edgeEnds hBlock, fun i b hBlock => h.forward hBlock⟩

/-- A loop as a trace. -/
theorem buildTrace_edges_loop :
    ∃ v, (loose loopCode (some loopTrace)).Fresh ∧
      (loose loopCode (some loopTrace)).buildTrace 3 = .ok v ∧
      ∃ m, (loose loopCode (some loopTrace)).IsTraceGraph v m := by
  have hFresh := fresh_loose loopCode (some loopTrace)
  obtain ⟨v, _, hBuild, _⟩ := buildTrace_ok hFresh rfl (by decide) (by decide) (by decide)
    (by decide) fits_loopTrace
  exact ⟨v, hFresh, hBuild, buildTrace_edges (c := 3) hFresh hBuild⟩

end TraceJit.WorkUnit
