import Mathlib.Algebra.BigOperators.Group.List.Basic
import TraceJit.Proofs.Codegen.Lowering
import TraceJit.Proofs.Graph.TraceGraph

/-!
The size of a compiled trace. It is the price of all instructions, of the ways out of the blocks and
of the closing blocks. A longer trace need not be larger, since a way out of the one may stay inside
the other; but no trace is much smaller than its first instruction alone.
-/

namespace TraceJit

/-- A straight piece of a trace: its start and its instructions. -/
abbrev Stretch := UInt32 × List Placed

/-- What a plan walks over, run by run. -/
def Code.stretches (code : Code) (plan : List (Run × Nat)) : List Stretch :=
  plan.map fun x => (x.1.start, code.walk x.1.start.toNat x.2)

/-- Words for an instruction, with the stub of one that can throw. -/
def Placed.price (singleStep : Bool) (p : Placed) : Nat :=
  p.words singleStep + 2 * p.throws.toNat

namespace Stretch

def last (s : Stretch) : Placed := (s.2.getLast?).getD default

variable (l : Linkage) (later : List UInt32) (p : Placed)

/-- Words for a branch or a call at the end of a block, if code goes on at the offsets `later`. -/
def takenWords : Nat :=
  if (l.boundaryOf p).redirect?.isSome then 6
  else match l.target? p with
    | some t => if t ∈ later then 0 else 4
    | none => 0

/-- Words for control that falls out of a block. -/
def fallWords : Nat := if p.insn.isUnconditionalExit ∨ p.next ∈ later then 0 else 4

/-- Words for both ways out of a block, with the jump to the second if there is no branch. -/
def exitWords : Nat :=
  (!p.insn.flow.changesFlow).toNat + (takenWords l later p + fallWords later p)

def linkWords : List Stretch → Nat
  | [] => 0
  | s :: rest => exitWords l (rest.map (·.1)) (last s) + linkWords rest

/-- Words that a trace over these stretches takes. -/
def words (singleStep : Bool) (stretches : List Stretch) : Nat :=
  ((stretches.flatMap (·.2)).map (·.price singleStep)).sum + linkWords l stretches + 3

end Stretch

namespace WorkUnit

/-! ### Cells -/

section Cells

variable {l : Linkage} {views : List BlockView} {i : Nat} {p : Placed} {later : List UInt32}

theorem IsCell.throwing {cell : BlockView} (h : IsCell cell) : cell.throwing = 0 := by
  unfold BlockView.throwing
  split
  next hCode => exact absurd hCode h.kind_ne
  next => rfl

/-- Every cell can be lowered. -/
theorem IsCell.lowers {cell : BlockView} (h : IsCell cell) : cell.Lowers := by
  intro byte hKind
  have hCell := h.kind
  rw [hKind] at hCell
  cases hCell

theorem throwing_cells {cells : List BlockView} (hCells : ∀ v ∈ cells, IsCell v) :
    (cells.map (·.throwing)).sum = 0 := by
  apply List.sum_eq_zero
  simpa using fun v hv => (hCells v hv).throwing

/-- A cell for a branch or for control that falls through. -/
theorem wordsFrom_plainCell (singleStep : Bool) (before : Nat) (hot : Bool) (start : UInt32) :
    BlockView.wordsFrom singleStep before
      [{ kind := if hot then .chainHot else .chainNormal, start }] = 4 := by
  cases hot <;> rfl

variable (hLater : ∀ off, searchFrom views (i + 1) off = noBlock ↔ off ∉ later)

include hLater

/-- The words of the cell for a branch that leaves the trace. -/
theorem wordsFrom_takenNeeds (singleStep : Bool) (before : Nat) :
    BlockView.wordsFrom singleStep before (takenNeeds l views i p) =
      Stretch.takenWords l later p := by
  unfold takenNeeds needed takenFound Stretch.takenWords
  cases hTarget : l.target? p with
  | some t =>
      simp only [takenCell?, Linkage.redirect?_of_target? hTarget, hTarget, blockAt, hLater,
        Option.map_some, Option.isSome_none, Bool.false_eq_true, if_false]
      by_cases hInside : t ∈ later
      · simp [hInside, BlockView.wordsFrom]
      · simp only [hInside, not_false_eq_true, if_true, if_false, Option.toList_some]
        exact wordsFrom_plainCell ..
  | none =>
      simp only [takenCell?, blockAt, if_true]
      cases (l.boundaryOf p).redirect? with
      | some callee => rfl
      | none => simp [hTarget, BlockView.wordsFrom]

/-- The words of the cell for a way on that leaves the trace. -/
theorem wordsFrom_fallNeeds (singleStep : Bool) (before : Nat) :
    BlockView.wordsFrom singleStep before (fallNeeds l views i p) =
      Stretch.fallWords later p := by
  unfold fallNeeds needed fallFound fallCell? Stretch.fallWords
  by_cases hInside : p.next ∈ later
  · simp [hLater, hInside, BlockView.wordsFrom]
  · cases p.insn.isUnconditionalExit with
    | true => simp [hLater, hInside, BlockView.wordsFrom]
    | false =>
        simp only [hLater, hInside, not_false_eq_true, if_true, Bool.false_eq_true, if_false,
          or_self, Option.toList_some]
        exact wordsFrom_plainCell ..

/-- The words of the cells of one block. -/
theorem wordsFrom_cellsOf (singleStep : Bool) (before : Nat) :
    BlockView.wordsFrom singleStep before (cellsOf l views i p) =
      Stretch.takenWords l later p + Stretch.fallWords later p := by
  rw [cellsOf, BlockView.wordsFrom_append, wordsFrom_takenNeeds hLater, wordsFrom_fallNeeds hLater]

end Cells

/-! ### Blocks -/

section Blocks

variable {l : Linkage} {singleStep : Bool}

def stretchOf (v : BlockView) : Stretch := (v.start, v.code)

/-- A target is found behind a block exactly if a later block begins there. -/
theorem searchFrom_behind (done : List BlockView) (v : BlockView) {rest : List BlockView}
    (hCode : ∀ w ∈ rest, w.kind = .code) (off : UInt32) :
    searchFrom (done ++ v :: rest) (done.length + 1) off = noBlock ↔
      off ∉ (rest.map stretchOf).map (·.1) := by
  have hDrop : (done ++ v :: rest).drop (done.length + 1) = rest := by
    rw [List.append_cons, ← List.length_singleton (a := v), ← List.length_append]
    exact List.drop_left
  have hNone : ∀ o, foundFrom (done.length + 1) o = noBlock ↔ o = none := by
    intro o
    cases o with
    | none => simp [foundFrom]
    | some j => exact iff_of_false (natCast_ne_noBlock _) (by simp)
  rw [searchFrom, hDrop, hNone, List.findIdx?_eq_none_iff, List.map_map, List.mem_map]
  constructor
  · rintro hAll ⟨w, hw, rfl⟩
    have hMiss := hAll w hw
    simp [hCode w hw, stretchOf] at hMiss
  · intro hNot w hw
    simp only [hCode w hw, decide_true, Bool.true_and, decide_eq_false_iff_not]
    exact fun hStart => hNot ⟨w, hw, hStart⟩

/-- The blocks of a trace and their cells. -/
theorem wordsFrom_linked (l : Linkage) (singleStep : Bool) (done rest : List BlockView)
    (hCode : ∀ v ∈ rest, v.kind = .code) (before before' total : Nat) :
    BlockView.wordsFrom singleStep before
        (resolvedFrom l (done ++ rest) done.length total rest) +
      BlockView.wordsFrom singleStep before' (cellsFrom l (done ++ rest) done.length rest) =
      ((rest.flatMap (·.code)).map (·.words singleStep)).sum +
        Stretch.linkWords l (rest.map stretchOf) := by
  induction rest generalizing done before before' total with
  | nil => rfl
  | cons v rest ih =>
      have hRest : ∀ w ∈ rest, w.kind = .code := fun w hw => hCode w (List.mem_cons_of_mem _ hw)
      have hCells := wordsFrom_cellsOf (l := l) (p := lastOf v) (searchFrom_behind done v hRest)
        singleStep before'
      have hNone : ((cellsOf l (done ++ v :: rest) done.length (lastOf v)).map (·.throwing)).sum =
          0 := throwing_cells fun _ hc => isCell_of_mem_cellsOf hc
      have hBlock : (resolvedView l (done ++ v :: rest) done.length (lastOf v) total v).words
          singleStep before =
          (v.code.map (·.words singleStep)).sum + (!(lastOf v).insn.flow.changesFlow).toNat := by
        have hKind := hCode v (List.mem_cons_self ..)
        simp only [resolvedView, BlockView.words, hKind]
        rfl
      have hLast : Stretch.last (stretchOf v) = lastOf v := rfl
      have hShape : done ++ v :: rest = (done ++ [v]) ++ rest := List.append_cons ..
      have hLength : done.length + 1 = (done ++ [v]).length := by simp
      rw [resolvedFrom, cellsFrom, BlockView.wordsFrom, BlockView.wordsFrom_append, hBlock, hCells,
        hNone, Nat.add_zero before', List.map_cons, Stretch.linkWords, hLast, List.flatMap_cons,
        List.map_append, List.sum_append, Stretch.exitWords]
      have hLater := ih (done ++ [v]) hRest
        (before + (resolvedView l (done ++ v :: rest) done.length (lastOf v) total v).throwing)
        before' (total + (cellsOf l (done ++ v :: rest) done.length (lastOf v)).length)
      rw [← hShape, ← hLength] at hLater
      omega

/-- Linking adds no instruction that can throw. -/
theorem throwing_resolvedFrom {views rest : List BlockView} {i total : Nat}
    (hCode : ∀ v ∈ rest, v.kind = .code) :
    ((resolvedFrom l views i total rest).map (·.throwing)).sum =
      (rest.flatMap (·.code)).countP Placed.throws := by
  have hUnlinked := congrArg (List.map BlockView.throwing)
    (map_unlinked_resolvedFrom l views i total rest)
  rw [List.map_map, List.map_map] at hUnlinked
  change (resolvedFrom l views i total rest).map (·.throwing) = rest.map (·.throwing) at hUnlinked
  rw [hUnlinked, BlockView.sum_throwing hCode]

theorem sum_price (ps : List Placed) :
    (ps.map (·.price singleStep)).sum =
      (ps.map (·.words singleStep)).sum + 2 * ps.countP Placed.throws := by
  rw [← Placed.sum_throws]
  induction ps with
  | nil => rfl
  | cons p ps ih =>
      rw [List.map_cons, List.map_cons, List.map_cons, List.sum_cons, List.sum_cons, List.sum_cons,
        ih, Placed.price]
      omega

/-- The words of a finished trace. -/
theorem wordsFrom_traceViews {views : List BlockView} (hCode : ∀ v ∈ views, v.kind = .code) :
    BlockView.wordsFrom singleStep 0 (traceViews l views) =
      Stretch.words l singleStep (views.map stretchOf) := by
  have hLinked := wordsFrom_linked l singleStep [] views hCode 0
    ((views.flatMap (·.code)).countP Placed.throws) views.length
  have hNone : ((cellsFrom l views 0 views).map (·.throwing)).sum = 0 :=
    throwing_cells fun _ hc => isCell_of_mem_cellsFrom hc
  have hCodes : (views.map stretchOf).flatMap (·.2) = views.flatMap (·.code) := List.flatMap_map ..
  have hClosing : ∀ before, BlockView.wordsFrom singleStep before closingViews = 2 * before + 3 :=
    fun _ => rfl
  rw [traceViews, BlockView.wordsFrom_append, BlockView.wordsFrom_append,
    throwing_resolvedFrom hCode, hNone, hClosing, Stretch.words, hCodes, sum_price, Nat.zero_add]
  rw [List.nil_append, List.length_nil] at hLinked
  omega

end Blocks

section Built

variable {u v : WorkUnit} {runs : List Run} {c : Nat} {pieces : List (Run × List Entry)}

/-- The blocks of the runs are the stretches that the plan walks. -/
theorem Carries.stretches {code : Code} {plan : List (Run × Nat)} (h : Carries code plan pieces) :
    (runViews 0 pieces).map stretchOf = code.stretches plan := by
  have hPieces := congrArg (List.map fun x : Run × List Placed => (x.1.start, x.2)) h
  rw [List.map_map, List.map_map] at hPieces
  refine Eq.trans ?_ hPieces
  apply List.ext_getElem?
  intro k
  rw [List.getElem?_map, getElem?_runViews, Option.map_map, List.getElem?_map]
  rfl

theorem lowers_of_mem_traceViews {l : Linkage} {w : BlockView}
    (hw : w ∈ traceViews l (runViews 0 pieces)) : w.Lowers := by
  rw [traceViews, List.mem_append, List.mem_append] at hw
  rcases hw with hRun | hCell | hClosing
  · intro byte hKind
    cases hKind.symm.trans (kind_of_mem_resolvedFrom hRun)
  · exact (isCell_of_mem_cellsFrom hCell).lowers
  · rw [closingViews, List.mem_pair] at hClosing
    rcases hClosing with rfl | rfl
    · exact fun _ hKind => by cases hKind
    · exact fun _ hKind => by cases hKind

theorem Decoded.singleStep_eq {w : WorkUnit} {steps : List Placed} (h : u.Decoded w steps) :
    w.singleStep = u.singleStep := by
  change w.traced.singleStep = u.traced.singleStep
  rw [h.traced]

/-- A finished trace is lowered, to as many words as its plan says. -/
theorem TraceBuilt.lower (h : u.TraceBuilt v runs c pieces) :
    ∃ p, v.lower = .ok p ∧ p.words.size =
      Stretch.words u.method.linkage u.singleStep (u.code.stretches (Run.plan c runs)) := by
  obtain ⟨p, hLower, hWords⟩ := h.views.lower fun w hw => lowers_of_mem_traceViews hw
  refine ⟨p, hLower, ?_⟩
  rw [hWords, wordsFrom_traceViews fun w hw => (exists_piece_of_mem_runViews hw).1,
    h.decoded.singleStep_eq, h.carries.stretches]

end Built

end WorkUnit

/-! ### How small a trace can be -/

theorem Code.traceOffsets_pos (code : Code) {runs : List Run} (hRuns : runs ≠ [])
    (hCounts : ∀ r ∈ runs, r.count ≠ 0) : 0 < (code.traceOffsets runs).length := by
  obtain ⟨r, rest, rfl⟩ := List.exists_cons_of_ne_nil hRuns
  have hCount : 0 < r.count.toNat := UInt32.pos_iff_ne_zero.mpr (hCounts r (List.mem_cons_self ..))
  rw [traceOffsets, Run.active]
  split
  next => simpa [Run.length_offsets] using hCount
  next =>
      rw [List.flatMap_cons, List.length_append, Run.length_offsets]
      omega

/-- A ceiling past the end of a trace plans no more than the whole of it. -/
theorem Run.plan_min (code : Code) (left : Nat) {runs : List Run}
    (hCounts : ∀ r ∈ runs, r.count ≠ 0) :
    plan (min left (code.traceOffsets runs).length) runs = plan left runs := by
  induction runs generalizing left with
  | nil => rfl
  | cons r rest ih =>
      cases hEnds : r.ends with
      | true =>
          have hLength : (code.traceOffsets (r :: rest)).length = r.count.toNat := by
            simp [Code.traceOffsets, active, hEnds, length_offsets]
          simp only [plan, hLength, hEnds, Bool.or_true, if_true]
          rw [Nat.min_comm left, ← Nat.min_assoc, Nat.min_self]
      | false =>
          have hLength : (code.traceOffsets (r :: rest)).length =
              r.count.toNat + (code.traceOffsets rest).length := by
            simp [Code.traceOffsets, active, hEnds, length_offsets]
          by_cases hShort : left ≤ r.count.toNat
          · rw [hLength, Nat.min_eq_left (by omega)]
          · by_cases hRest : rest = []
            · subst hRest
              have hNone : (code.traceOffsets []).length = 0 := rfl
              have hAll : min left (code.traceOffsets [r]).length = r.count.toNat := by omega
              rw [hAll]
              simp [plan, Nat.min_eq_left (Nat.le_of_not_le hShort)]
            · -- Both plans take this run as a whole and go on with the rest of the trace.
              have hMore := code.traceOffsets_pos hRest
                fun x hx => hCounts x (List.mem_cons_of_mem _ hx)
              have hSub : min left (code.traceOffsets (r :: rest)).length - r.count.toNat =
                  min (left - r.count.toNat) (code.traceOffsets rest).length := by omega
              have hGoes : ∀ n, r.count.toNat < n → ¬(n ≤ r.count.toNat || r.ends) = true := by
                intro n hn
                simp [hEnds, hn]
              rw [(plan_cons rest (hGoes _ (by omega))).2,
                (plan_cons rest (hGoes left (by omega))).2, hSub,
                ih _ fun x hx => hCounts x (List.mem_cons_of_mem _ hx)]

namespace Code

/-- No stretch is empty if no run is. -/
theorem full_stretches (code : Code) {k : Nat} {runs : List Run}
    (hCounts : ∀ r ∈ runs, r.count ≠ 0) (hPos : 0 < k) :
    ∀ s ∈ code.stretches (Run.plan k runs), s.2 ≠ [] := by
  intro s hs
  obtain ⟨x, hx, rfl⟩ := List.mem_map.mp hs
  have hEntered := Run.pos_of_mem_plan hCounts hPos hx
  simpa [walk] using Nat.ne_of_gt hEntered

theorem format_of_mem_stretches (code : Code) {plan : List (Run × Nat)} {p : Placed}
    (hp : p ∈ (code.stretches plan).flatMap (·.2)) : p.insn.format = p.insn.op.format := by
  obtain ⟨s, hs, hp⟩ := List.mem_flatMap.mp hp
  obtain ⟨x, _, rfl⟩ := List.mem_map.mp hs
  obtain ⟨j, _, rfl⟩ := mem_walk.mp hp
  exact code.placedAt_format _

end Code

namespace Stretch

variable {l : Linkage} {later : List UInt32} {p : Placed}

/-- A goto leads somewhere. -/
theorem isSome_target?_of_goto (hFormat : p.insn.format = p.insn.op.format)
    (hProper : p.insn.isPayload = false) (hGoto : p.insn.isGoto = true) :
    (l.target? p).isSome := by
  have hRow : ∀ op : Opcode, 0x28 ≤ op.byte.toNat → op.byte.toNat ≤ 0x2a →
      op.exit? = some .branch ∧
      (OpcodeInfo.ofNumber op.byte.toNat).format ∈ [Format.f10t, .f20t, .f30t] :=
    Opcode.of_table (by decide +kernel)
  simp only [Instruction.isGoto, Bool.and_eq_true, decide_eq_true_eq] at hGoto
  obtain ⟨hExit, hFormats⟩ := hRow p.insn.op hGoto.1 hGoto.2
  rw [← Opcode.info_eq] at hFormats
  simp only [List.mem_cons, List.not_mem_nil, or_false] at hFormats
  have hOffset : p.insn.branchOffset? = some p.insn.va.toInt32 := by
    rw [Instruction.branchOffset?, hFormat, Opcode.format]
    rcases hFormats with h | h | h <;> rw [h]
  rw [Linkage.target?, classify, hProper, hExit, hOffset]
  rfl

/-- A return takes three words. -/
theorem three_le_words_of_return (singleStep : Bool) (hProper : p.insn.isPayload = false)
    (hLow : 0x0e ≤ p.insn.op.byte.toNat) (hHigh : p.insn.op.byte.toNat ≤ 0x11) :
    3 ≤ p.words singleStep := by
  have hRow : ∀ op : Opcode, 0x0e ≤ op.byte.toNat → op.byte.toNat ≤ 0x11 →
      (OpcodeInfo.ofNumber op.byte.toNat).flow = .returns :=
    Opcode.of_table (by decide +kernel)
  have hFlow : p.insn.flow = .returns := by
    rw [Instruction.flow, hProper, Opcode.flow, Opcode.info_eq]
    exact hRow p.insn.op hLow hHigh
  have hCost : Lowered.cost singleStep ((⟨0, p⟩ : Entry).node 0 noNode noNode) =
      if singleStep then 8 else 3 := by
    rw [Lowered.cost, Entry.node_insn, hProper, hFlow]
    rfl
  rw [Placed.words, hCost]
  cases singleStep <;> decide

/-- The last block of a trace takes three words for its last instruction and the ways out. -/
theorem three_le_exit (l : Linkage) (singleStep : Bool)
    (hFormat : p.insn.format = p.insn.op.format) :
    3 ≤ p.words singleStep + exitWords l [] p := by
  have hWord := p.one_le_words singleStep
  unfold exitWords
  cases hExit : p.insn.isUnconditionalExit with
  | false =>
      have hFall : fallWords [] p = 4 := by simp [fallWords, hExit]
      omega
  | true =>
      simp only [Instruction.isUnconditionalExit, Bool.and_eq_true, Bool.or_eq_true,
        Bool.not_eq_true', decide_eq_true_eq] at hExit
      obtain ⟨hProper, ⟨hLow, hHigh⟩ | ⟨hLow, hHigh⟩⟩ := hExit
      · have hReturn := three_le_words_of_return singleStep hProper hLow hHigh
        omega
      · have hTarget := isSome_target?_of_goto (l := l) hFormat hProper
          (by simp [Instruction.isGoto, hLow, hHigh])
        obtain ⟨t, hTarget⟩ := Option.isSome_iff_exists.mp hTarget
        have hTaken : takenWords l [] p = 4 := by
          simp [takenWords, Linkage.redirect?_of_target? hTarget, hTarget]
        omega

/-- Only an instruction that sends control elsewhere needs a cell for it. -/
theorem changesFlow_of_takenWords (hTaken : takenWords l later p ≠ 0) :
    p.insn.flow.changesFlow = true := by
  have hRow : ∀ op : Opcode, op.exit? ≠ none → op.exit? ≠ some .leave →
      (OpcodeInfo.ofNumber op.byte.toNat).flow.changesFlow = true :=
    Opcode.of_table (by decide +kernel)
  -- What is no boundary, or leaves for an unknown place, has neither target nor callee.
  have hElsewhere : p.insn.isPayload = false ∧ p.insn.op.exit? ≠ none ∧
      p.insn.op.exit? ≠ some .leave := by
    unfold takenWords Linkage.target? Linkage.boundaryOf classify at hTaken
    cases hPayload : p.insn.isPayload with
    | true => simp [hPayload, Boundary.redirect?] at hTaken
    | false =>
        refine ⟨rfl, fun hExit => ?_, fun hExit => ?_⟩
        · simp [hPayload, hExit, Boundary.redirect?] at hTaken
        · simp [hPayload, hExit, Boundary.redirect?, Boundary.leave] at hTaken
  rw [Instruction.flow, hElsewhere.1, Opcode.flow, Opcode.info_eq]
  exact hRow p.insn.op hElsewhere.2.1 hElsewhere.2.2

/-- The cells of one block take ten words at most. -/
theorem exitWords_le (l : Linkage) (later : List UInt32) (p : Placed) :
    exitWords l later p ≤ 10 := by
  have hFall : fallWords later p ≤ 4 := by
    unfold fallWords
    split <;> omega
  have hTaken : takenWords l later p ≤ 6 := by
    unfold takenWords
    split
    next => omega
    next => split <;> (try split) <;> omega
  unfold exitWords
  by_cases hNone : takenWords l later p = 0
  · have hJump := Bool.toNat_le (!p.insn.flow.changesFlow)
    omega
  · rw [changesFlow_of_takenWords hNone]
    simp only [Bool.not_true, Bool.toNat_false]
    omega

/-- The last block pays for its own ways out in full. -/
theorem exists_last (l : Linkage) {stretches : List Stretch} (hSome : stretches ≠ [])
    (hFull : ∀ s ∈ stretches, s.2 ≠ []) :
    ∃ front p, stretches.flatMap (·.2) = front ++ [p] ∧
      exitWords l [] p ≤ linkWords l stretches := by
  induction stretches with
  | nil => exact absurd rfl hSome
  | cons s rest ih =>
      by_cases hRest : rest = []
      · subst hRest
        obtain ⟨front, p, hShape⟩ :=
          (List.eq_nil_or_concat s.2).resolve_left (hFull s (List.mem_cons_self ..))
        rw [List.concat_eq_append] at hShape
        have hLast : last s = p := by simp [last, hShape]
        refine ⟨front, p, by simpa using hShape, ?_⟩
        simp [linkWords, hLast]
      · obtain ⟨front, p, hShape, hExit⟩ :=
          ih hRest fun s hs => hFull s (List.mem_cons_of_mem _ hs)
        refine ⟨s.2 ++ front, p, ?_, ?_⟩
        · rw [List.flatMap_cons, hShape, List.append_assoc]
        · rw [linkWords]
          omega

/-- Plans of the same runs start with the same instruction. -/
theorem exists_first (code : Code) {k : Nat} {runs : List Run} (hRuns : runs ≠ [])
    (hCounts : ∀ r ∈ runs, r.count ≠ 0) (hPos : 0 < k) :
    ∃ start p, code.stretches (Run.plan 1 runs) = [(start, [p])] ∧
      ∃ rest, (code.stretches (Run.plan k runs)).flatMap (·.2) = p :: rest := by
  obtain ⟨r, more, rfl⟩ := List.exists_cons_of_ne_nil hRuns
  have hCount : 0 < r.count.toNat := UInt32.pos_iff_ne_zero.mpr (hCounts r (List.mem_cons_self ..))
  obtain ⟨n, hn⟩ : ∃ n, min r.count.toNat k = n + 1 := ⟨min r.count.toNat k - 1, by omega⟩
  refine ⟨r.start, code.walked r.start.toNat 0, ?_⟩
  constructor
  · have hStop : (1 ≤ r.count.toNat || r.ends) = true := by simpa using .inl hCount
    rw [Run.plan, if_pos hStop, Nat.min_eq_right hCount]
    rfl
  · rw [Run.plan, Code.stretches, List.map_cons, List.flatMap_cons, hn, Code.walk_succ_start]
    exact ⟨_, rfl⟩

/-- The first instruction alone takes no more than seven words more than any other part of the
trace. -/
theorem words_one_le (code : Code) (l : Linkage) (singleStep : Bool) {k : Nat} {runs : List Run}
    (hRuns : runs ≠ []) (hCounts : ∀ r ∈ runs, r.count ≠ 0) (hPos : 0 < k) :
    words l singleStep (code.stretches (Run.plan 1 runs)) ≤
      words l singleStep (code.stretches (Run.plan k runs)) + 7 := by
  obtain ⟨start, first, hOne, rest, hAll⟩ := exists_first code hRuns hCounts hPos
  have hSome : code.stretches (Run.plan k runs) ≠ [] := by
    intro hNil
    rw [hNil] at hAll
    cases hAll
  obtain ⟨front, p, hShape, hExit⟩ := exists_last l hSome (code.full_stretches hCounts hPos)
  have hFirst : words l singleStep [(start, [first])] =
      first.price singleStep + exitWords l [] first + 3 := by
    simp [words, linkWords, last]
  rw [hOne, hFirst, words, hShape]
  rw [hShape] at hAll
  cases front with
  | nil =>
      obtain ⟨rfl, _⟩ := List.cons.inj hAll
      simp only [List.nil_append, List.map_cons, List.map_nil, List.sum_cons, List.sum_nil]
      omega
  | cons q front =>
      -- The last instruction is another one than the first, and is paid for on its own.
      obtain ⟨rfl, _⟩ := List.cons.inj hAll
      have hMem : p ∈ (code.stretches (Run.plan k runs)).flatMap (·.2) := by simp [hShape]
      have hLast := three_le_exit l singleStep (code.format_of_mem_stretches hMem)
      have hUpper := exitWords_le l [] q
      have hPrice : p.words singleStep ≤ p.price singleStep := Nat.le_add_right ..
      simp only [List.cons_append, List.map_cons, List.map_append, List.sum_cons, List.sum_append,
        List.map_nil, List.sum_nil]
      omega

end Stretch

end TraceJit
