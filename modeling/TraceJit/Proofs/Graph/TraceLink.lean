import Mathlib.Data.List.Basic
import TraceJit.Graph.TraceBuild
import TraceJit.Proofs.Graph.Boundary
import TraceJit.Proofs.Graph.Edit

/-!
Linking the code blocks of a trace. Cells are added to the list that is searched, but they are no
code, so every search sees the code blocks only. An edge that finds no later code block takes the
next free number, and a cell is added there; hence cells and such edges are numbered alike.
-/

namespace TraceJit

/-- A block without the edges that linking gives it. -/
def BlockView.unlinked (v : BlockView) : BlockView :=
  { v with taken := noBlock, fallThrough := noBlock, explicitBranch := false }

namespace WorkUnit

open Entry

/-- An edge that leads to `found`, or else to a new cell behind `total` blocks, if it needs one. -/
def edgeTo (found : BlockId) (cell? : Option BlockView) (total : Nat) : BlockId :=
  if found = noBlock then (if cell?.isSome then (total : BlockId) else noBlock) else found

/-- The cell that is made for an edge. -/
def needed (found : BlockId) (cell? : Option BlockView) : List BlockView :=
  if found = noBlock then cell?.toList else []

theorem eq_some_of_mem_needed {found : BlockId} {cell? : Option BlockView} {c : BlockView}
    (hc : c ∈ needed found cell?) : cell? = some c := by
  unfold needed at hc
  split at hc
  · exact Option.mem_toList.mp hc
  · cases hc

/-- The block at the target of a branch; where there is no branch, there is no block. -/
def blockAt (search : UInt32 → BlockId) : Option UInt32 → BlockId
  | some t => search t
  | none => noBlock

section Edges

variable (l : Linkage) (views : List BlockView) (i : Nat) (p : Placed)

/-- The later code block to which the last instruction `p` of block `i` branches. -/
def takenFound : BlockId := blockAt (searchFrom views (i + 1)) (l.target? p)

def takenCell? : Option BlockView :=
  match (l.boundaryOf p).redirect? with
  | some callee => some { kind := .chainInvoke, start := 0, callee := some callee }
  | none => (l.target? p).map fun t =>
      { kind := if p.insn.flow.has .always then .chainHot else .chainNormal, start := t }

/-- The later code block that starts right behind the last instruction `p` of block `i`. -/
def fallFound : BlockId := searchFrom views (i + 1) p.next

def fallCell? : Option BlockView :=
  if p.insn.isUnconditionalExit then none
  else some
    { kind := if (l.boundaryOf p).isInvoke || !p.insn.flow.changesFlow then .chainHot
        else .chainNormal, start := p.next }

def takenNeeds : List BlockView := needed (takenFound l views i p) (takenCell? l p)

def fallNeeds : List BlockView := needed (fallFound views i p) (fallCell? l p)

/-- A code block of a trace once its edges are resolved, where there are `total` blocks before. -/
def resolvedView (total : Nat) (v : BlockView) : BlockView :=
  { v with
    taken := edgeTo (takenFound l views i p) (takenCell? l p) total
    fallThrough := edgeTo (fallFound views i p) (fallCell? l p)
      (total + (takenNeeds l views i p).length)
    explicitBranch := !p.insn.flow.changesFlow }

end Edges

/-- The cell that linking makes for a branch. -/
theorem takenCell_eq (l : Linkage) (p : Placed) :
    takenCell p.insn.flow (l.boundaryOf p) = (takenCell? l p).map (·.block 0) := by
  rw [takenCell, takenCell?, l.boundaryOf_target]
  cases (l.boundaryOf p).redirect? with
  | some callee =>
      simp only [Option.map_some, BlockView.block_empty]
      rfl
  | none =>
      cases l.target? p with
      | none => rfl
      | some t =>
          simp only [Option.map_some, BlockView.block_empty]
          rfl

/-- A chaining cell: a block of such a kind that holds nothing and leads nowhere. -/
structure IsCell (cell : BlockView) : Prop where
  kind : cell.kind.isCell = true
  bare : cell = { kind := cell.kind, start := cell.start, callee := cell.callee }

theorem isCell_takenCell? {l : Linkage} {p : Placed} {cell : BlockView}
    (hCell : takenCell? l p = some cell) : IsCell cell := by
  unfold takenCell? at hCell
  cases hRedirect : (l.boundaryOf p).redirect? with
  | some callee =>
      rw [hRedirect] at hCell
      cases hCell
      exact ⟨rfl, rfl⟩
  | none =>
      rw [hRedirect] at hCell
      obtain ⟨t, _, rfl⟩ := Option.map_eq_some_iff.mp hCell
      refine ⟨?_, rfl⟩
      dsimp only
      split <;> rfl

theorem isCell_fallCell? {l : Linkage} {p : Placed} {cell : BlockView}
    (hCell : fallCell? l p = some cell) : IsCell cell := by
  unfold fallCell? at hCell
  split at hCell
  · cases hCell
  · cases hCell
    refine ⟨?_, rfl⟩
    dsimp only
    split <;> rfl

section Step

variable {u : WorkUnit} {views : List BlockView}

/-- A cell is added behind all blocks. -/
theorem Represents.addCell {cell : BlockView} (h : u.Represents views) (hCell : IsCell cell) :
    (u.addCell (cell.block 0)).Represents (views ++ [cell]) := by
  refine h.push (congrArg BlockView.body hCell.bare) ?_ rfl
  simp only [WorkUnit.addCell, h.nextBlock_eq, BlockView.block]

/-- The branch edge of a block, and the unit with the cell it needs. -/
def resolveTaken (u : WorkUnit) (l : Linkage) (p : Placed) (found : BlockId) :
    BlockId × WorkUnit :=
  if found = noBlock then
    match takenCell p.insn.flow (l.boundaryOf p) with
    | some cell => (u.nextBlock, u.addCell cell)
    | none => (noBlock, u)
  else (found, u)

/-- The edge along which control falls out of a block, and the unit with the cell it needs. -/
def resolveFall (u : WorkUnit) (l : Linkage) (p : Placed) (found : BlockId) :
    BlockId × WorkUnit :=
  if found = noBlock && !p.insn.isUnconditionalExit then
    (u.nextBlock, u.newBlock (if (l.boundaryOf p).isInvoke || !p.insn.flow.changesFlow
      then .chainHot else .chainNormal) p.next)
  else (found, u)

/-- A branch leads to the block that was found, or to a cell that is added for it. -/
theorem Represents.resolveTaken (h : u.Represents views) (l : Linkage) (p : Placed)
    (found : BlockId) :
    ∃ w, u.resolveTaken l p found = (edgeTo found (takenCell? l p) views.length, w) ∧
      w.Represents (views ++ needed found (takenCell? l p)) ∧
      w.setting = u.setting ∧ w.numInsts = u.numInsts := by
  rw [WorkUnit.resolveTaken, takenCell_eq, edgeTo, needed]
  by_cases hFound : found = noBlock
  · simp only [if_pos hFound]
    cases hCell : takenCell? l p with
    | none =>
        refine ⟨u, rfl, ?_, rfl, rfl⟩
        rwa [Option.toList_none, List.append_nil]
    | some cell =>
        refine ⟨u.addCell (cell.block 0), ?_, h.addCell (isCell_takenCell? hCell), rfl, rfl⟩
        rw [h.nextBlock_eq]
        rfl
  · simp only [if_neg hFound]
    exact ⟨u, rfl, by rwa [List.append_nil], rfl, rfl⟩

/-- So does the way on. -/
theorem Represents.resolveFall (h : u.Represents views) (l : Linkage) (p : Placed)
    (found : BlockId) :
    ∃ w, u.resolveFall l p found = (edgeTo found (fallCell? l p) views.length, w) ∧
      w.Represents (views ++ needed found (fallCell? l p)) ∧
      w.setting = u.setting ∧ w.numInsts = u.numInsts := by
  rw [WorkUnit.resolveFall, edgeTo, needed, fallCell?]
  by_cases hFound : found = noBlock
  · by_cases hExit : p.insn.isUnconditionalExit = true
    · refine ⟨u, by simp [hFound, hExit], ?_, rfl, rfl⟩
      rw [if_pos hFound, if_pos hExit, Option.toList_none, List.append_nil]
      exact h
    · refine ⟨u.newBlock (if (l.boundaryOf p).isInvoke || !p.insn.flow.changesFlow
        then .chainHot else .chainNormal) p.next, ?_, ?_, newBlock_setting .., rfl⟩
      · simp [hFound, hExit, h.nextBlock_eq]
      · rw [if_pos hFound, if_neg hExit]
        exact h.newBlock ..
  · refine ⟨u, by simp [hFound], ?_, rfl, rfl⟩
    rw [if_neg hFound, List.append_nil]
    exact h

end Step

def cellsOf (l : Linkage) (views : List BlockView) (i : Nat) (p : Placed) : List BlockView :=
  takenNeeds l views i p ++ fallNeeds l views i p

/-- Linking a block resolves one edge after the other. -/
theorem linkTraceBlock_eq {u : WorkUnit} {id : BlockId} {n : Node} (hLast : u.lastNode? id = some n)
    {views : List BlockView} {i : Nat}
    (hSearch : ∀ off, u.findBlock (id + 1).toNat off = searchFrom views (i + 1) off)
    (hNext : n.fallThrough = n.placed.next) :
    linkTraceBlock u id =
      (let taken := u.resolveTaken u.method.linkage n.placed
        (takenFound u.method.linkage views i n.placed)
      let fall := taken.2.resolveFall u.method.linkage n.placed (fallFound views i n.placed)
      .ok (fall.2.modifyBlock id fun b =>
        { b with
          taken := taken.1, fallThrough := fall.1,
          explicitBranch := !n.placed.insn.flow.changesFlow })) := by
  have hInner : takenFound u.method.linkage views i n.placed =
      blockAt (u.findBlock (id + 1).toNat) (u.method.linkage.boundaryOf n.placed).target := by
    rw [takenFound, Linkage.boundaryOf_target, funext hSearch]
  unfold WorkUnit.resolveFall fallFound
  rw [hInner, ← hSearch, ← hNext, linkTraceBlock, hLast]
  rfl

/-- Linking a block resolves its two edges and adds the cells they need behind all blocks. -/
theorem linkTraceBlock_ok {u : WorkUnit} {views done rest : List BlockView} {v : BlockView}
    {es : List Entry} {e : Entry} (h : u.Represents (done ++ v :: rest))
    (hSame : ∀ j off, StartsAt (done ++ v :: rest) j off ↔ StartsAt views j off)
    (hBody : v.body = es ++ [e]) :
    ∃ w, linkTraceBlock u done.length = .ok w ∧
      w.Represents (done ++ resolvedView u.method.linkage views done.length e.placed
        (done ++ v :: rest).length v :: (rest ++
          cellsOf u.method.linkage views done.length e.placed)) ∧
      w.setting = u.setting ∧ w.numInsts = u.numInsts := by
  have hLast := h.lastNode?_eq (Represents.getElem?_pre_length ..) hBody
  have hSearch : ∀ off, u.findBlock ((done.length : BlockId) + 1).toNat off =
      searchFrom views (done.length + 1) off := by
    intro off
    rw [h.findBlock_eq]
    exact searchFrom_congr fun j => hSame j off
  obtain ⟨w, hTaken, hViews, hSetting, hCount⟩ := h.resolveTaken u.method.linkage e.placed
    (takenFound u.method.linkage views done.length e.placed)
  obtain ⟨x, hFall, hViews', hSetting', hCount'⟩ := hViews.resolveFall u.method.linkage e.placed
    (fallFound views done.length e.placed)
  rw [List.length_append] at hFall
  have hLink := linkTraceBlock_eq hLast hSearch rfl
  simp only [node_placed, hTaken, hFall] at hLink
  refine ⟨_, hLink, ?_, ?_, ?_⟩
  · rw [List.append_assoc, List.append_assoc, List.cons_append] at hViews'
    exact hViews'.modifyBlock (by simp only [BlockView.block, resolvedView, takenNeeds]) rfl
  · rw [modifyBlock_setting, hSetting', hSetting]
  · rw [modifyBlock_numInsts, hCount', hCount]

/-! ### All blocks -/

/-- The code blocks of a unit in which they come first. -/
theorem Represents.codeBlocks_eq {u : WorkUnit} {views cells : List BlockView}
    (h : u.Represents (views ++ cells)) (hCode : ∀ v ∈ views, v.kind = .code)
    (hCells : ∀ v ∈ cells, v.kind ≠ .code) :
    u.codeBlocks = (List.range views.length).map fun i : Nat => (i : BlockId) := by
  rw [codeBlocks, h.toList_blocks, List.mapIdx_mapIdx, List.mapIdx_append, List.filterMap_append]
  have hFirst : (views.mapIdx fun i v => ((i : BlockId), v.block i)).filterMap
      (fun x => if x.2.kind = .code then some x.1 else none) =
      (List.range views.length).map fun i : Nat => (i : BlockId) := by
    have hSome : ∀ x ∈ views.mapIdx fun i v => ((i : BlockId), v.block i),
        (if x.2.kind = .code then some x.1 else none) = some x.1 := by
      intro x hx
      obtain ⟨i, hi, rfl⟩ := List.mem_mapIdx.mp hx
      exact if_pos (hCode _ (List.getElem_mem hi))
    rw [List.filterMap_eq_map_iff_forall_eq_some.mpr hSome]
    apply List.ext_getElem
    · simp
    · simp
  have hLast : (cells.mapIdx fun i v => (((i + views.length : Nat) : BlockId),
      v.block (i + views.length))).filterMap
      (fun x => if x.2.kind = .code then some x.1 else none) = [] := by
    rw [List.filterMap_eq_nil_iff]
    intro x hx
    obtain ⟨i, hi, rfl⟩ := List.mem_mapIdx.mp hx
    exact if_neg (hCells _ (List.getElem_mem hi))
  exact (congrArg₂ (· ++ ·) hFirst hLast).trans (List.append_nil _)

def lastOf (v : BlockView) : Placed := (v.code.getLast?).getD default

theorem getLast?_code {v : BlockView} (hFull : v.body ≠ []) :
    v.code.getLast? = some (lastOf v) := by
  have hCode : v.code ≠ [] := by simpa [BlockView.code] using hFull
  rw [lastOf, List.getLast?_eq_some_getLast hCode, Option.getD_some]

theorem lastOf_concat {v : BlockView} {es : List Entry} {e : Entry} (hBody : v.body = es ++ [e]) :
    lastOf v = e.placed := by
  rw [lastOf, BlockView.code, hBody, List.map_append, List.map_singleton, List.getLast?_concat,
    Option.getD_some]

section Fold

variable (l : Linkage) (views : List BlockView)

/-- The blocks from number `i` on with their edges, where there are `total` blocks before. -/
def resolvedFrom : Nat → Nat → List BlockView → List BlockView
  | _, _, [] => []
  | i, total, v :: rest =>
      resolvedView l views i (lastOf v) total v ::
        resolvedFrom (i + 1) (total + (cellsOf l views i (lastOf v)).length) rest

def cellsFrom : Nat → List BlockView → List BlockView
  | _, [] => []
  | i, v :: rest => cellsOf l views i (lastOf v) ++ cellsFrom (i + 1) rest

end Fold

section Resolved

variable {l : Linkage} {views : List BlockView}

/-- Linking changes the edges of blocks only. -/
theorem map_unlinked_resolvedFrom (l : Linkage) (views : List BlockView) (i total : Nat)
    (rest : List BlockView) :
    (resolvedFrom l views i total rest).map (·.unlinked) = rest.map (·.unlinked) := by
  induction rest generalizing i total with
  | nil => rfl
  | cons v rest ih =>
      rw [resolvedFrom, List.map_cons, List.map_cons, ih]
      rfl

@[simp] theorem length_resolvedFrom (l : Linkage) (views : List BlockView) (i total : Nat)
    (rest : List BlockView) : (resolvedFrom l views i total rest).length = rest.length := by
  simpa using congrArg List.length (map_unlinked_resolvedFrom l views i total rest)

/-- Linking does not change what a search for blocks sees. -/
theorem searchKeys_resolvedFrom (l : Linkage) (views : List BlockView) (i total : Nat)
    (rest : List BlockView) : searchKeys (resolvedFrom l views i total rest) = searchKeys rest := by
  have hKeys := congrArg searchKeys (map_unlinked_resolvedFrom l views i total rest)
  simp only [searchKeys, List.map_map] at hKeys
  exact hKeys

theorem exists_of_mem_resolvedFrom {i total : Nat} {rest : List BlockView} {v : BlockView}
    (hv : v ∈ resolvedFrom l views i total rest) : ∃ w ∈ rest, v.unlinked = w.unlinked := by
  have hMem := List.mem_map_of_mem (f := BlockView.unlinked) hv
  rw [map_unlinked_resolvedFrom] at hMem
  obtain ⟨w, hw, hEq⟩ := List.mem_map.mp hMem
  exact ⟨w, hw, hEq.symm⟩

/-- A block is resolved behind the cells of all blocks before it. -/
theorem exists_resolved (l : Linkage) (views : List BlockView) (i total : Nat) {k : Nat}
    {rest : List BlockView} {v : BlockView} (hv : rest[k]? = some v) :
    ∃ before after, cellsFrom l views i rest =
        before ++ (cellsOf l views (i + k) (lastOf v) ++ after) ∧
      (resolvedFrom l views i total rest)[k]? =
        some (resolvedView l views (i + k) (lastOf v) (total + before.length) v) := by
  induction rest generalizing i total k with
  | nil => cases hv
  | cons x rest ih =>
      cases k with
      | zero =>
          cases hv
          exact ⟨[], cellsFrom l views (i + 1) rest, rfl, rfl⟩
      | succ k =>
          obtain ⟨before, after, hCells, hResolved⟩ :=
            ih (i + 1) (total + (cellsOf l views i (lastOf x)).length) hv
          rw [Nat.add_right_comm, Nat.add_assoc] at hCells hResolved
          refine ⟨cellsOf l views i (lastOf x) ++ before, after, ?_, ?_⟩
          · rw [cellsFrom, hCells, List.append_assoc]
          · rw [resolvedFrom, List.getElem?_cons_succ, hResolved, List.length_append,
              Nat.add_assoc]

end Resolved

theorem cell?_of_mem_cellsOf {l : Linkage} {views : List BlockView} {i : Nat} {p : Placed}
    {c : BlockView} (hc : c ∈ cellsOf l views i p) :
    takenCell? l p = some c ∨ fallCell? l p = some c := by
  rcases List.mem_append.mp hc with hTaken | hFall
  · exact .inl (eq_some_of_mem_needed hTaken)
  · exact .inr (eq_some_of_mem_needed hFall)

/-- Every cell is made for an instruction. -/
theorem exists_of_mem_cellsFrom {l : Linkage} {views rest : List BlockView} {i : Nat}
    {c : BlockView} (hc : c ∈ cellsFrom l views i rest) :
    ∃ p, takenCell? l p = some c ∨ fallCell? l p = some c := by
  induction rest generalizing i with
  | nil => cases hc
  | cons v rest ih =>
      rcases List.mem_append.mp hc with hHere | hLater
      · exact ⟨_, cell?_of_mem_cellsOf hHere⟩
      · exact ih hLater

theorem isCell_of_mem_cellsOf {l : Linkage} {views : List BlockView} {i : Nat} {p : Placed}
    {c : BlockView} (hc : c ∈ cellsOf l views i p) : IsCell c :=
  (cell?_of_mem_cellsOf hc).elim isCell_takenCell? isCell_fallCell?

/-- What linking adds are cells. -/
theorem isCell_of_mem_cellsFrom {l : Linkage} {views rest : List BlockView} {i : Nat}
    {c : BlockView} (hc : c ∈ cellsFrom l views i rest) : IsCell c := by
  obtain ⟨p, hCell⟩ := exists_of_mem_cellsFrom hc
  exact hCell.elim isCell_takenCell? isCell_fallCell?

theorem IsCell.kind_ne {c : BlockView} (h : IsCell c) : c.kind ≠ .code := by
  intro hCode
  have hKind := h.kind
  rw [hCode] at hKind
  cases hKind

/-- Linking goes from block to block and adds the cells of each behind all others. -/
theorem linkTrace_blocks {u : WorkUnit} {views done cells : List BlockView} (rest : List BlockView)
    (h : u.Represents (done ++ (rest ++ cells)))
    (hSame : ∀ j off, StartsAt (done ++ (rest ++ cells)) j off ↔ StartsAt views j off)
    (hFull : ∀ v ∈ rest, v.body ≠ []) :
    ∃ w, ((List.range' done.length rest.length).map fun i : Nat => (i : BlockId)).foldlM
        linkTraceBlock u = .ok w ∧
      w.Represents (done ++ (resolvedFrom u.method.linkage views done.length
        (done ++ (rest ++ cells)).length rest ++
          (cells ++ cellsFrom u.method.linkage views done.length rest))) ∧
      w.setting = u.setting ∧ w.numInsts = u.numInsts := by
  induction rest generalizing u done cells with
  | nil => exact ⟨u, rfl, by simpa [resolvedFrom, cellsFrom] using h, rfl, rfl⟩
  | cons v rest ih =>
      obtain ⟨es, e, hBody⟩ :=
        (List.eq_nil_or_concat v.body).resolve_left (hFull v (List.mem_cons_self ..))
      rw [List.concat_eq_append] at hBody
      rw [List.cons_append] at h hSame ⊢
      obtain ⟨w, hLink, hNext, hSetting, hCount⟩ := linkTraceBlock_ok h hSame hBody
      rw [← lastOf_concat hBody] at hNext
      have hMethod := method_of_setting hSetting
      generalize hNew : cellsOf u.method.linkage views done.length (lastOf v) = new at hNext
      generalize hView : resolvedView u.method.linkage views done.length (lastOf v)
        (done ++ v :: (rest ++ cells)).length v = v' at hNext
      have hShape : done ++ v' :: (rest ++ cells ++ new) =
          (done ++ [v']) ++ (rest ++ (cells ++ new)) := by simp
      -- Cells are no code, so the blocks that are left are searched for as before.
      have hSame' : ∀ j off, StartsAt ((done ++ [v']) ++ (rest ++ (cells ++ new))) j off ↔
          StartsAt views j off := by
        intro j off
        have hCells : ∀ c ∈ new, c.kind ≠ .code := fun c hc =>
          (isCell_of_mem_cellsOf (hNew ▸ hc)).kind_ne
        have hKeys : searchKeys (done ++ v' :: (rest ++ cells)) =
            searchKeys (done ++ v :: (rest ++ cells)) := by
          rw [← hView]
          simp [searchKeys, resolvedView]
        rw [← hShape, ← List.cons_append, ← List.append_assoc, startsAt_append hCells,
          startsAt_iff, hKeys, ← startsAt_iff]
        exact hSame j off
      rw [hShape] at hNext
      obtain ⟨x, hRest, hFinal, hSetting', hCount'⟩ :=
        ih hNext hSame' fun c hc => hFull c (List.mem_cons_of_mem _ hc)
      refine ⟨x, ?_, ?_, hSetting'.trans hSetting, hCount'.trans hCount⟩
      · rw [List.length_cons, List.range'_succ, List.map_cons, List.foldlM_cons, hLink]
        rw [List.length_append, List.length_singleton] at hRest
        exact hRest
      · have hTotal : ((done ++ [v']) ++ (rest ++ (cells ++ new))).length =
            (done ++ v :: (rest ++ cells)).length + new.length := by simp; omega
        rw [hTotal, hMethod, List.length_append, List.length_singleton] at hFinal
        rw [resolvedFrom, cellsFrom, hNew, hView]
        simpa using hFinal

/-- Code blocks that hold instructions are all linked, and all cells come behind them. -/
theorem linkTrace_ok {u : WorkUnit} {views : List BlockView} (h : u.Represents views)
    (hCode : ∀ v ∈ views, v.kind = .code) (hFull : ∀ v ∈ views, v.body ≠ []) :
    ∃ w, u.linkTrace = .ok w ∧
      w.Represents (resolvedFrom u.method.linkage views 0 views.length views ++
        cellsFrom u.method.linkage views 0 views) ∧
      w.setting = u.setting ∧ w.numInsts = u.numInsts := by
  have hBare : u.Represents (views ++ []) := by rwa [List.append_nil]
  have hSame : ∀ j off, StartsAt ([] ++ (views ++ [])) j off ↔ StartsAt views j off := by simp
  obtain ⟨w, hLink, hFinal, hRest⟩ := linkTrace_blocks views hBare hSame hFull
  refine ⟨w, ?_, by simpa using hFinal, hRest⟩
  rw [linkTrace, hBare.codeBlocks_eq hCode (by simp), List.range_eq_range']
  exact hLink

end WorkUnit

end TraceJit
