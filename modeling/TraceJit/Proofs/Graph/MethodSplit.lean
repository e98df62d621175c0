import TraceJit.Proofs.Graph.Cut
import TraceJit.Proofs.Graph.MethodScan

/-!
The second pass over a method. It cuts the block of the whole walk in front of every marked
instruction. Only the part cut off last can still hold a mark behind its first instruction, so
the pass goes through the body once, from front to back.
-/

namespace TraceJit

namespace Entry

def firstOffset : List Entry → UInt32
  | [] => 0
  | e :: _ => e.placed.offset

/-- Where control falls from the end of a body in front of block `next`. -/
def fallEdge (body : List Entry) (next : BlockId) : BlockId :=
  match body.getLast? with
  | none => noBlock
  | some e => if e.placed.insn.isUnconditionalExit then noBlock else next

/-- Control goes on behind a block unless it ends in an instruction that control never passes. -/
theorem fallEdge_concat (es : List Entry) (e : Entry) (next : BlockId) :
    fallEdge (es ++ [e]) next =
      if e.placed.insn.isUnconditionalExit then noBlock else next := by
  rw [fallEdge, List.getLast?_concat]

def isMarked (starts : StartSet) (e : Entry) : Bool := starts.isStart e.placed.offset

theorem filter_marked_eq_nil {starts : StartSet} {es : List Entry}
    (hNone : ∀ x ∈ es, ¬isMarked starts x) : es.filter (isMarked starts) = [] :=
  List.filter_eq_nil_iff.mpr hNone

/-- The bodies into which a body is cut: every mark behind the first entry starts a new one. -/
inductive Pieces (starts : StartSet) : List Entry → List (List Entry) → Prop where
  | last {e : Entry} {rest : List Entry} (hRest : ∀ x ∈ rest, ¬isMarked starts x) :
      Pieces starts (e :: rest) [e :: rest]
  | cut {e c : Entry} {front back : List Entry} {bodies : List (List Entry)}
      (hFront : ∀ x ∈ front, ¬isMarked starts x) (hCut : isMarked starts c)
      (hRest : Pieces starts (c :: back) bodies) :
      Pieces starts (e :: front ++ c :: back) ((e :: front) :: bodies)

namespace Pieces

variable {starts : StartSet} {body : List Entry} {bodies : List (List Entry)}

/-- Nothing is lost, added or moved by cutting. -/
theorem flatten_eq (h : Pieces starts body bodies) : bodies.flatten = body := by
  induction h with
  | last => simp
  | cut _ _ _ ih => rw [List.flatten_cons, ih]

theorem ne_nil (h : Pieces starts body bodies) : [] ∉ bodies := by
  induction h with
  | last => simp
  | cut _ _ _ ih => simpa using ih

theorem bodies_ne_nil (h : Pieces starts body bodies) : bodies ≠ [] := by
  cases h <;> exact List.cons_ne_nil _ _

/-- Inside of a piece there is no mark. -/
theorem not_marked (h : Pieces starts body bodies) :
    ∀ piece ∈ bodies, ∀ x ∈ piece.tail, ¬isMarked starts x := by
  induction h with
  | last hRest => simpa using hRest
  | cut hFront _ _ ih =>
      intro piece hPiece
      rcases List.mem_cons.mp hPiece with rfl | hPiece
      · exact hFront
      · exact ih piece hPiece

/-- The pieces start at the first entry and at the marks behind it. -/
theorem map_firstOffset (h : Pieces starts body bodies) :
    bodies.map firstOffset =
      firstOffset body :: (body.tail.filter (isMarked starts)).map (·.placed.offset) := by
  induction h with
  | last hRest => rw [List.tail_cons, filter_marked_eq_nil hRest]; rfl
  | @cut e c front back bodies hFront hCut _ ih =>
      have hFilter : (front ++ c :: back).filter (isMarked starts) =
          c :: back.filter (isMarked starts) := by
        rw [List.filter_append, filter_marked_eq_nil hFront, List.nil_append,
          List.filter_cons_of_pos hCut]
      rw [List.map_cons, ih, List.cons_append, List.tail_cons, List.tail_cons, hFilter]
      rfl

end Pieces

end Entry

namespace WorkUnit

open Entry

/-- A code block of a method before its branch is linked. -/
def bodyView (body : List Entry) (fallThrough : BlockId) : BlockView :=
  { kind := .code, start := firstOffset body, body, fallThrough }

/-- The blocks of a cut body, of which the first has number `i`. -/
def splitViews (i : Nat) : List (List Entry) → List BlockView
  | [] => []
  | [body] => [bodyView body noBlock]
  | body :: next :: rest =>
      bodyView body (fallEdge body (i + 1 : Nat)) :: splitViews (i + 1) (next :: rest)

theorem splitViews_cons (i : Nat) (body : List Entry) {rest : List (List Entry)}
    (hRest : rest ≠ []) :
    splitViews i (body :: rest) =
      bodyView body (fallEdge body (i + 1 : Nat)) :: splitViews (i + 1) rest := by
  cases rest with
  | nil => exact absurd rfl hRest
  | cons next rest => rfl

theorem length_splitViews (i : Nat) (bodies : List (List Entry)) :
    (splitViews i bodies).length = bodies.length := by
  fun_induction splitViews i bodies with
  | case1 => rfl
  | case2 => rfl
  | case3 i body next rest ih => rw [List.length_cons, ih]; rfl

theorem getElem?_splitViews (i k : Nat) (bodies : List (List Entry)) :
    (splitViews i bodies)[k]? = (bodies[k]?).map fun body =>
      bodyView body
        (if k + 1 < bodies.length then fallEdge body (i + k + 1 : Nat) else noBlock) := by
  fun_induction splitViews i bodies generalizing k with
  | case1 => rfl
  | case2 i body => cases k <;> simp
  | case3 i body next rest ih =>
      cases k with
      | zero => simp
      | succ k =>
          have hNumber : i + 1 + k + 1 = i + (k + 1) + 1 := by omega
          rw [List.getElem?_cons_succ, ih, List.getElem?_cons_succ, hNumber]
          simp only [List.length_cons, Nat.add_lt_add_iff_right]

theorem map_body_splitViews (i : Nat) (bodies : List (List Entry)) :
    (splitViews i bodies).map (·.body) = bodies := by
  apply List.ext_getElem?
  intro k
  rw [List.getElem?_map, getElem?_splitViews, Option.map_map]
  exact Option.map_id_apply

namespace Represents

variable {u : WorkUnit} {pre : List BlockView} {starts : StartSet}

/-- The node at which a block is cut next belongs to the first mark behind its first entry. -/
theorem splitPoint?_map {views : List BlockView} {i : Nat} {v : BlockView}
    (h : u.Represents views) (starts : StartSet) (hv : views[i]? = some v) :
    (u.splitPoint? starts i).map (fun x => (x.1, x.2.placed)) =
      (v.body.tail.find? (isMarked starts)).map fun e => ((e.number : NodeId), e.placed) := by
  have hNodes := congrArg List.tail (nodes_map i noNode v.body noNode)
  rw [← List.map_tail, ← List.map_tail] at hNodes
  have hFind := congrArg
    (List.find? fun x : NodeId × Placed => starts.isStart x.2.offset) hNodes
  rw [List.find?_map, List.find?_map] at hFind
  rw [splitPoint?, h.nodesOf_eq hv]
  exact hFind

/-- A block without marks inside is not split. -/
theorem splitPoint?_eq_none {views : List BlockView} {i : Nat} {v : BlockView}
    (h : u.Represents views) (hv : views[i]? = some v)
    (hNone : v.body.tail.find? (isMarked starts) = none) : u.splitPoint? starts i = none := by
  have hMap := h.splitPoint?_map starts hv
  rwa [hNone, Option.map_none, Option.map_eq_none_iff] at hMap

/-- A block is split at its first mark. -/
theorem splitPoint?_eq_some {views : List BlockView} {i : Nat} {v : BlockView} {c : Entry}
    (h : u.Represents views) (hv : views[i]? = some v)
    (hSome : v.body.tail.find? (isMarked starts) = some c) :
    ∃ n, u.splitPoint? starts i = some ((c.number : NodeId), n) ∧ n.placed = c.placed := by
  have hMap := h.splitPoint?_map starts hv
  rw [hSome, Option.map_some, Option.map_eq_some_iff] at hMap
  obtain ⟨⟨id, n⟩, hPoint, hEq⟩ := hMap
  obtain ⟨rfl, hPlaced⟩ := Prod.mk.inj hEq
  exact ⟨n, hPoint, hPlaced⟩

/-- No block starts at an instruction that is still behind the first one of the newest block. -/
theorem findBlock_behind {e c : Entry} {front back : List Entry}
    (h : u.Represents (pre ++ [bodyView (e :: front ++ c :: back) noBlock]))
    (hNodup : ((e :: front ++ c :: back).map (·.placed.offset)).Nodup)
    (hNew : ∀ v ∈ pre, v.start ≠ c.placed.offset) : u.findBlock 0 c.placed.offset = noBlock := by
  rw [h.findBlock_eq, searchFrom_eq_noBlock_iff]
  rintro j - ⟨v, hv, _, hStart⟩
  rcases List.mem_append.mp (List.mem_of_getElem? hv) with hPre | hOwn
  · exact hNew v hPre hStart
  · rw [List.mem_singleton.mp hOwn] at hStart
    rw [List.cons_append, List.map_cons, List.nodup_cons] at hNodup
    refine hNodup.1 (List.mem_map.mpr ⟨c, by simp, hStart.symm⟩)

end Represents

/-- One round cuts the newest block at its first mark, and lets control fall from its front into
the part cut off. -/
theorem splitFrom_cut {starts : StartSet} {u : WorkUnit} {pre : List BlockView} {e c : Entry}
    {front back : List Entry} (fuel : Nat)
    (h : u.Represents (pre ++ [bodyView (e :: front ++ c :: back) noBlock]))
    (hFront : ∀ x ∈ front, ¬isMarked starts x) (hMark : isMarked starts c)
    (hFresh : u.findBlock 0 c.placed.offset = noBlock) :
    ∃ w, splitFrom starts (fuel + 1) pre.length u = splitFrom starts fuel (pre.length + 1 : Nat) w ∧
      w.Represents (pre ++ [bodyView (e :: front) (fallEdge (e :: front) (pre.length + 1 : Nat)),
        bodyView (c :: back) noBlock]) ∧
      w.setting = u.setting ∧ w.numInsts = u.numInsts := by
  have hFind : (e :: front ++ c :: back).tail.find? (isMarked starts) = some c :=
    List.find?_eq_some_iff_append.mpr ⟨hMark, front, back, rfl, by simpa using hFront⟩
  obtain ⟨n, hPoint, hPlaced⟩ := h.splitPoint?_eq_some (Represents.getElem?_pre_length ..) hFind
  have hOffset : n.offset = c.placed.offset := congrArg Placed.offset hPlaced
  have hTail : u.nextBlock = (pre.length + 1 : Nat) := by
    rw [h.nextBlock_eq, List.length_append]
    rfl
  have hSplit : (u.split pre.length c.number).Represents
      (pre ++ bodyView (e :: front) noBlock :: [bodyView (c :: back) noBlock]) := h.split rfl
  obtain ⟨es, l, hConcat⟩ := (List.eq_nil_or_concat (e :: front)).resolve_left (by simp)
  rw [List.concat_eq_append] at hConcat
  have hLast := hSplit.lastNode?_eq (Represents.getElem?_pre_length ..) hConcat
  rw [splitFrom, hPoint]
  simp only [hOffset, hFresh, hTail, hLast, node_insn, ne_eq, not_true_eq_false, if_false]
  rw [hConcat, fallEdge_concat, ← hConcat]
  split
  next => exact ⟨_, rfl, hSplit, split_setting .., split_numInsts ..⟩
  next =>
    refine ⟨_, rfl, hSplit.modifyBlock (by simp only [BlockView.block, bodyView]) rfl, ?_, ?_⟩
    · rw [modifyBlock_setting, split_setting]
    · rw [modifyBlock_numInsts, split_numInsts]

/-- With fuel for every mark that is left, the newest block is cut into all its pieces. -/
theorem splitFrom_ok {starts : StartSet} {fuel : Nat} {u : WorkUnit} {pre : List BlockView}
    {body : List Entry} (h : u.Represents (pre ++ [bodyView body noBlock])) (hBody : body ≠ [])
    (hFuel : (body.tail.filter (isMarked starts)).length < fuel)
    (hNodup : (body.map (·.placed.offset)).Nodup)
    (hNew : ∀ v ∈ pre, ∀ e ∈ body, v.start ≠ e.placed.offset) :
    ∃ (w : WorkUnit) (bodies : List (List Entry)),
      splitFrom starts fuel pre.length u = .ok w ∧ Pieces starts body bodies ∧
      w.Represents (pre ++ splitViews pre.length bodies) ∧ w.setting = u.setting ∧
      w.numInsts = u.numInsts := by
  induction fuel generalizing u pre body with
  | zero => omega
  | succ fuel ih =>
      obtain ⟨e, rest, rfl⟩ := List.exists_cons_of_ne_nil hBody
      cases hFind : rest.find? (isMarked starts) with
      | none =>
          have hNone : ∀ x ∈ rest, ¬isMarked starts x := List.find?_eq_none.mp hFind
          refine ⟨u, [e :: rest], ?_, .last hNone, h, rfl, rfl⟩
          rw [splitFrom, h.splitPoint?_eq_none (Represents.getElem?_pre_length ..) hFind]
      | some c =>
          obtain ⟨hMark, front, back, rfl, hFront⟩ := List.find?_eq_some_iff_append.mp hFind
          have hUnmarked : ∀ x ∈ front, ¬isMarked starts x := by simpa using hFront
          have hFresh := h.findBlock_behind hNodup fun v hv => hNew v hv c (by simp)
          obtain ⟨w, hStep, hCut, hSetting, hCount⟩ := splitFrom_cut fuel h hUnmarked hMark hFresh
          -- The front is closed now, and what was cut off is the newest block.
          have hFuel' : (back.filter (isMarked starts)).length < fuel := by
            rw [List.tail_cons, List.filter_append, filter_marked_eq_nil hUnmarked,
              List.nil_append, List.filter_cons_of_pos hMark, List.length_cons] at hFuel
            exact Nat.lt_of_succ_lt_succ hFuel
          have hNodup' : ((c :: back).map (·.placed.offset)).Nodup := by
            rw [← List.cons_append, List.map_append] at hNodup
            exact (List.nodup_append.mp hNodup).2.1
          have hNew' : ∀ v ∈ pre ++ [bodyView (e :: front)
              (fallEdge (e :: front) (pre.length + 1 : Nat))], ∀ x ∈ c :: back,
              v.start ≠ x.placed.offset := by
            intro v hv x hx
            rcases List.mem_append.mp hv with hPre | hOwn
            · exact hNew v hPre x (List.mem_cons_of_mem _ (List.mem_append_right _ hx))
            · rw [List.map_cons, List.nodup_cons] at hNodup
              rw [List.mem_singleton.mp hOwn]
              intro hStart
              exact hNodup.1 (List.mem_map.mpr ⟨x, List.mem_append_right _ hx, hStart.symm⟩)
          rw [List.append_cons] at hCut
          obtain ⟨w', bodies, hSplit, hPieces, hViews, hSetting', hCount'⟩ :=
            ih hCut (List.cons_ne_nil c back) hFuel' hNodup' hNew'
          rw [List.length_append, List.length_singleton] at hSplit hViews
          refine ⟨w', (e :: front) :: bodies, hStep.trans hSplit, .cut hUnmarked hMark hPieces,
            ?_, hSetting'.trans hSetting, hCount'.trans hCount⟩
          rw [splitViews_cons _ _ hPieces.bodies_ne_nil, List.append_cons]
          exact hViews

/-- Distinct marked offsets are no more than there are marks. -/
theorem length_filter_isMarked_le (starts : StartSet) {body : List Entry}
    (hNodup : (body.map (·.placed.offset)).Nodup) :
    (body.filter (isMarked starts)).length ≤ starts.count := by
  have hSub : ((body.filter (isMarked starts)).map (·.placed.offset)).Sublist
      (body.map (·.placed.offset)) := List.filter_sublist.map _
  have hMarks : (body.filter (isMarked starts)).map (·.placed.offset) ⊆ starts.offsets := by
    intro off hOff
    obtain ⟨e, he, rfl⟩ := List.mem_map.mp hOff
    have hMark := (List.mem_filter.mp he).2
    rw [isMarked, StartSet.isStart_iff, StartSet.toFinset, List.mem_toFinset] at hMark
    exact hMark
  have hLength := (hNodup.sublist hSub).length_le_of_subset hMarks
  rwa [List.length_map] at hLength

/-- The pass cuts the walk into all its pieces, and then compares their number with the marks. -/
theorem splitAtMarks_eq {u w : WorkUnit} {n : Nat} {body : List Entry}
    (hFits : ∀ k < n, u.code.Fits (u.code.walkOffset 0 k)) (hn : 0 < n)
    (h : w.Represents [whole body]) (hPlaced : body.map (·.placed) = u.code.walk 0 n)
    (hSetting : w.setting = u.scannedSetting n) :
    ∃ (v : WorkUnit) (bodies : List (List Entry)),
      Pieces (u.methodMarks (u.code.walk 0 n)) body bodies ∧
      v.Represents (splitViews 0 bodies) ∧ v.setting = u.scannedSetting n ∧
      v.numInsts = w.numInsts ∧
      w.splitAtMarks =
        if (u.methodMarks (u.code.walk 0 n)).expectedBlocks = bodies.length then .ok v
        else .fail v (.invariant (.split u.name
          (u.methodMarks (u.code.walk 0 n)).expectedBlocks bodies.length)) := by
  have hStarts : w.starts = some (u.methodMarks (u.code.walk 0 n)) :=
    congrArg WorkUnit.starts hSetting
  have hNodup : (body.map (·.placed.offset)).Nodup := by
    have hOffsets := congrArg (List.map Placed.offset) hPlaced
    rw [List.map_map] at hOffsets
    exact hOffsets ▸ u.code.nodup_walk hFits
  obtain ⟨n, rfl⟩ := Nat.exists_eq_succ_of_ne_zero (Nat.ne_of_gt hn)
  obtain ⟨e, rest, rfl, hFirst, _⟩ :=
    List.map_eq_cons_iff.mp (hPlaced.trans (u.code.walk_succ_start 0 n))
  have hWhole : w.Represents ([] ++ [bodyView (e :: rest) noBlock]) := by
    rw [bodyView, firstOffset, hFirst]
    exact h
  have hFuel := length_filter_isMarked_le (u.methodMarks (u.code.walk 0 (n + 1)))
    (List.nodup_cons.mp hNodup).2
  obtain ⟨v, bodies, hSplit, hPieces, hViews, hSame, hCount⟩ :=
    splitFrom_ok hWhole (List.cons_ne_nil e rest) (Nat.lt_succ_of_le hFuel) hNodup (by simp)
  have hMethod := method_of_scannedSetting (hSame.trans hSetting)
  have hName : v.name = u.name := by rw [name, name, hMethod]
  refine ⟨v, bodies, hPieces, hViews, hSame.trans hSetting, hCount, ?_⟩
  have hSize := hViews.size_eq
  rw [List.nil_append, length_splitViews] at hSize
  have hZero : (([] : List BlockView).length : BlockId) = 0 := rfl
  rw [hZero] at hSplit
  simp only [splitAtMarks, hStarts, Option.getD_some, hSplit]
  simp only [bind, Except.bind, hSize, hName]
  rfl

end WorkUnit

end TraceJit
