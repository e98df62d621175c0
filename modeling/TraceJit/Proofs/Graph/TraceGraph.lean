import TraceJit.Proofs.Graph.TraceDecode
import TraceJit.Proofs.Graph.TraceLink

/-!
The graph of a trace as a whole. A fresh unit whose trace can be decoded ends up with the blocks of
its runs, their cells and two closing blocks; any other is refused as malformed.
-/

namespace TraceJit

namespace Run

/-- Every run that is entered gives an instruction. -/
theorem pos_of_mem_plan {left : Nat} {runs : List Run} (hCounts : ∀ r ∈ runs, r.count ≠ 0)
    (hLeft : 0 < left) {x : Run × Nat} (hx : x ∈ plan left runs) : 0 < x.2 := by
  induction runs generalizing left with
  | nil => cases hx
  | cons r rest ih =>
      have hCount : 0 < r.count.toNat :=
        UInt32.pos_iff_ne_zero.mpr (hCounts r (List.mem_cons_self ..))
      rw [plan, List.mem_cons] at hx
      rcases hx with rfl | hLater
      · exact Nat.lt_min.mpr ⟨hCount, hLeft⟩
      · by_cases hStop : (left ≤ r.count.toNat || r.ends) = true
        · rw [if_pos hStop] at hLater
          cases hLater
        · rw [if_neg hStop] at hLater
          obtain ⟨hShort, _⟩ := plan_cons rest hStop
          exact ih (fun r hr => hCounts r (List.mem_cons_of_mem _ hr)) (by omega) hLater

/-- Runs are planned in order, and as a whole except for the last of them. -/
theorem getElem?_plan {left k : Nat} {runs : List Run} {r : Run} {n : Nat}
    (hPlan : (plan left runs)[k]? = some (r, n)) :
    (active runs)[k]? = some r ∧ n ≤ r.count.toNat ∧
      (k + 1 < (plan left runs).length → n = r.count.toNat) := by
  induction runs generalizing left k with
  | nil => simp [plan] at hPlan
  | cons x rest ih =>
      by_cases hStop : (left ≤ x.count.toNat || x.ends) = true
      · rw [plan, if_pos hStop] at hPlan ⊢
        cases k with
        | zero =>
            cases hPlan
            refine ⟨?_, Nat.min_le_left .., fun hMore => ?_⟩
            · rw [active]
              split <;> rfl
            · rw [List.length_singleton] at hMore
              omega
        | succ k => simp at hPlan
      · obtain ⟨_, hCons⟩ := plan_cons rest hStop
        have hEnds : x.ends = false := by
          simp only [Bool.or_eq_true, not_or, Bool.not_eq_true] at hStop
          exact hStop.2
        rw [hCons] at hPlan ⊢
        rw [active, hEnds]
        cases k with
        | zero =>
            cases hPlan
            exact ⟨rfl, Nat.le_refl _, fun _ => rfl⟩
        | succ k =>
            obtain ⟨hActive, hLess, hWhole⟩ := ih hPlan
            refine ⟨hActive, hLess, fun hMore => hWhole ?_⟩
            rw [List.length_cons] at hMore
            omega

end Run

namespace WorkUnit

def closingViews : List BlockView :=
  [{ kind := .pcReconstruction, start := 0 }, { kind := .exceptionHandling, start := 0 }]

/-- All blocks of a finished trace: the decoded runs with their edges, the cells, and the two
closing blocks. -/
def traceViews (l : Linkage) (views : List BlockView) : List BlockView :=
  resolvedFrom l views 0 views.length views ++ (cellsFrom l views 0 views ++ closingViews)

/-- The first blocks of a finished trace are its runs, each linked behind the cells of the runs
before it. -/
theorem exists_traceView (l : Linkage) {views : List BlockView} {k : Nat} {v : BlockView}
    (hv : views[k]? = some v) :
    ∃ before after, cellsFrom l views 0 views =
        before ++ (cellsOf l views k (lastOf v) ++ after) ∧
      (traceViews l views)[k]? =
        some (resolvedView l views k (lastOf v) (views.length + before.length) v) := by
  obtain ⟨before, after, hCells, hResolved⟩ :=
    exists_resolved l views 0 views.length hv
  rw [Nat.zero_add] at hCells hResolved
  refine ⟨before, after, hCells, ?_⟩
  obtain ⟨hLess, _⟩ := List.getElem?_eq_some_iff.mp hResolved
  rw [traceViews, List.getElem?_append_left hLess, hResolved]

/-- A cell is found at its place behind all runs. -/
theorem getElem?_traceViews_cell {l : Linkage} {views before after : List BlockView}
    {cell : BlockView} (hCells : cellsFrom l views 0 views = before ++ cell :: after) :
    (traceViews l views)[views.length + before.length]? = some cell := by
  have hLength := length_resolvedFrom l views 0 views.length views
  rw [traceViews, List.getElem?_append_right (by omega), hLength, Nat.add_sub_cancel_left, hCells,
    List.append_assoc, List.getElem?_append_right (Nat.le_refl _), Nat.sub_self]
  rfl

/-- The unit `v` is `u` with the graph of its runs, of which `pieces` were decoded. -/
structure TraceBuilt (u v : WorkUnit) (runs : List Run) (c : Nat)
    (pieces : List (Run × List Entry)) : Prop where
  carries : Carries u.code (Run.plan c runs) pieces
  full : ∀ x ∈ pieces, x.2 ≠ []
  views : v.Represents (traceViews u.method.linkage (runViews 0 pieces))
  decoded : u.Decoded v (pieces.flatMap fun x => x.2.map (·.placed))

section Pieces

variable {pieces : List (Run × List Entry)} {v : BlockView}

theorem map_body_runViews (i : Nat) (pieces : List (Run × List Entry)) :
    (runViews i pieces).map (·.body) = pieces.map (·.2) := by
  fun_induction runViews i pieces with
  | case1 => rfl
  | case2 => rfl
  | case3 i x y rest ih => exact congrArg (List.cons x.2) ih

@[simp] theorem length_runViews (i : Nat) (pieces : List (Run × List Entry)) :
    (runViews i pieces).length = pieces.length := by
  simpa using congrArg List.length (map_body_runViews i pieces)

theorem exists_piece_of_mem_runViews (hv : v ∈ runViews 0 pieces) :
    v.kind = .code ∧ ∃ x ∈ pieces, v.start = x.1.start ∧ v.body = x.2 := by
  obtain ⟨k, hk⟩ := List.mem_iff_getElem?.mp hv
  rw [getElem?_runViews, Option.map_eq_some_iff] at hk
  obtain ⟨x, hx, rfl⟩ := hk
  exact ⟨rfl, x, List.mem_of_getElem? hx, rfl, rfl⟩

/-- The blocks of the runs are code blocks. -/
theorem kind_of_mem_resolvedFrom {l : Linkage} {views : List BlockView} {i total : Nat}
    (hv : v ∈ resolvedFrom l views i total (runViews 0 pieces)) : v.kind = .code := by
  obtain ⟨w, hw, hEq⟩ := exists_of_mem_resolvedFrom hv
  have hKind : v.unlinked.kind = w.unlinked.kind := congrArg BlockView.kind hEq
  exact hKind.trans (exists_piece_of_mem_runViews hw).1

/-- The blocks behind them are not. -/
theorem kind_ne_of_mem_rest {l : Linkage} {views rest : List BlockView} {i : Nat}
    (hv : v ∈ cellsFrom l views i rest ++ closingViews) : v.kind ≠ .code := by
  rcases List.mem_append.mp hv with hCell | hClosing
  · exact (isCell_of_mem_cellsFrom hCell).kind_ne
  · rw [closingViews, List.mem_pair] at hClosing
    rcases hClosing with rfl | rfl
    · decide
    · decide

/-- Nor do these hold instructions. -/
theorem body_of_mem_rest {l : Linkage} {views rest : List BlockView} {i : Nat}
    (hv : v ∈ cellsFrom l views i rest ++ closingViews) : v.body = [] := by
  rcases List.mem_append.mp hv with hCell | hClosing
  · rw [(isCell_of_mem_cellsFrom hCell).bare]
  · rw [closingViews, List.mem_pair] at hClosing
    rcases hClosing with rfl | rfl
    · rfl
    · rfl

/-- Where the plan asks for something, a decoded run is not empty. -/
theorem Carries.full {code : Code} {plan : List (Run × Nat)} (h : Carries code plan pieces)
    (hPlan : ∀ x ∈ plan, 0 < x.2) : ∀ x ∈ pieces, x.2 ≠ [] := by
  intro x hx hEmpty
  have hMem : (x.1, x.2.map (·.placed)) ∈
      plan.map fun y => (y.1, code.walk y.1.start.toNat y.2) := by
    rw [← h]
    exact List.mem_map_of_mem hx
  obtain ⟨y, hy, hEq⟩ := List.mem_map.mp hMem
  have hLength := congrArg (fun z => z.2.length) hEq
  simp only [Code.length_walk, List.length_map, hEmpty, List.length_nil] at hLength
  exact absurd hLength (Nat.ne_of_gt (hPlan y hy))

end Pieces

/-- The block of a piece. -/
theorem TraceBuilt.exists_block {u v : WorkUnit} {runs : List Run} {c k : Nat}
    {pieces : List (Run × List Entry)} {x : Run × List Entry} (h : u.TraceBuilt v runs c pieces)
    (hx : pieces[k]? = some x) :
    ∃ b, v.blocks[k]? = some b ∧ b.start = x.1.start ∧
      b.next = (if k + 1 < pieces.length then ((k + 1 : Nat) : BlockId) else noBlock) ∧
      v.instructionsOf k = x.2.map (·.placed) := by
  have hRun := getElem?_runViews 0 k pieces
  rw [hx, Option.map_some, Nat.zero_add] at hRun
  obtain ⟨_, _, _, hView⟩ := exists_traceView u.method.linkage hRun
  refine ⟨_, by rw [h.views.blocks, hView, Option.map_some], rfl, rfl, ?_⟩
  rw [h.views.instructionsOf_eq, hView]
  rfl

/-- Decoding is not undone by what leaves the count and the setting alone. -/
theorem Decoded.of_setting {u w x : WorkUnit} {steps : List Placed} (h : u.Decoded w steps)
    (hSetting : x.setting = w.setting) (hCount : x.numInsts = w.numInsts) :
    u.Decoded x steps where
  numInsts := hCount.trans h.numInsts
  traceSize := (congrArg WorkUnit.traceSize hSetting).trans h.traceSize
  traced := by
    rw [← h.traced, WorkUnit.traced, hSetting, WorkUnit.traced]

section Build

variable {u : WorkUnit} {t : Trace} {c : Nat}

/-- A fresh unit enters its first run with one empty block. -/
theorem Fresh.enterRun (h : u.Fresh) (start : UInt32) :
    (u.enterRun noBlock start).Represents ([] ++ [{ kind := .code, start := start }]) := by
  rw [WorkUnit.enterRun, modifyBlock_noBlock]
  exact h.represents.newBlock .code start

/-- What is accepted has runs, none of them empty, and a positive ceiling. -/
theorem traceRefusal?_eq_none_iff {ceiling : Int} :
    u.traceRefusal? ceiling = none ↔ ∃ t, u.trace = some t ∧ t.runs ≠ [] ∧ 0 < ceiling ∧
      ∀ r ∈ t.runs, r.count ≠ 0 := by
  rw [traceRefusal?]
  cases u.trace with
  | none => simp
  | some t =>
      by_cases hRuns : t.runs = []
      · simp [hRuns]
      · by_cases hPos : ceiling ≤ 0
        · simp [hRuns, hPos, Int.not_lt.mpr hPos]
        · simp [hRuns, hPos, Int.not_le.mp hPos]

/-- What is built has been accepted. -/
theorem exists_trace_of_ok {ceiling : Int} {v : WorkUnit} (hBuild : u.buildTrace ceiling = .ok v) :
    ∃ t, u.trace = some t ∧ t.runs ≠ [] ∧ 0 < ceiling ∧ ∀ r ∈ t.runs, r.count ≠ 0 := by
  apply traceRefusal?_eq_none_iff.mp
  cases hRefusal : u.traceRefusal? ceiling with
  | none => rfl
  | some e =>
      rw [buildTrace, hRefusal] at hBuild
      cases hBuild

variable (hFresh : u.Fresh) (hTrace : u.trace = some t) (hRuns : t.runs ≠ [])
  (hCounts : ∀ r ∈ t.runs, r.count ≠ 0) (hPos : 0 < c) (hSmall : c < 2 ^ 63)

include hFresh hRuns hPos hSmall in
/-- The runs of a trace whose instructions fit up to the ceiling are decoded. -/
theorem traceRuns_fresh_ok
    (hFits : ∀ off ∈ (u.code.traceOffsets t.runs).take c, u.code.Fits off) :
    ∃ w pieces, traceRuns c 0 noBlock t.runs u = .ok w ∧ w.Represents (runViews 0 pieces) ∧
      Carries u.code (Run.plan c t.runs) pieces ∧
      u.Decoded w (pieces.flatMap fun x => x.2.map (·.placed)) := by
  obtain ⟨r, rest, hShape⟩ := List.exists_cons_of_ne_nil hRuns
  rw [← Run.planOffsets_eq, hShape] at hFits
  rw [hShape]
  exact traceRuns_ok hSmall 0 rest (hFresh.enterRun r.start) hFresh.represents.nextBlock_eq
    hFresh.numInsts hPos hFits

/-- The unit with the two closing blocks, and the report of it. -/
def closeTrace (u : WorkUnit) : WorkUnit :=
  let u := (u.newBlock .pcReconstruction 0).newBlock .exceptionHandling 0
  u.say .attempt "TRACEINFO" u.traceSummary

include hTrace hRuns hCounts hPos in
/-- A build decodes the runs, links the blocks and closes the graph. -/
theorem buildTrace_eq :
    u.buildTrace c = do
      let w ← traceRuns c 0 noBlock t.runs u
      let x ← w.linkTrace
      return x.closeTrace := by
  have hAccepted : u.traceRefusal? c = none :=
    traceRefusal?_eq_none_iff.mpr ⟨t, hTrace, hRuns, Int.natCast_pos.mpr hPos, hCounts⟩
  rw [buildTrace, hAccepted, hTrace]
  rfl

include hFresh hTrace hRuns hCounts hPos hSmall

/-- A trace whose instructions fit up to the ceiling is built. -/
theorem buildTrace_ok (hFits : ∀ off ∈ (u.code.traceOffsets t.runs).take c, u.code.Fits off) :
    ∃ v pieces, u.buildTrace c = .ok v ∧ u.TraceBuilt v t.runs c pieces := by
  obtain ⟨w, pieces, hRun, hViews, hCarries, hDecoded⟩ :=
    traceRuns_fresh_ok hFresh hRuns hPos hSmall hFits
  have hFull : ∀ x ∈ pieces, x.2 ≠ [] :=
    hCarries.full fun x hx => Run.pos_of_mem_plan hCounts hPos hx
  have hBodies : ∀ v ∈ runViews 0 pieces, v.kind = .code ∧ v.body ≠ [] := by
    intro v hv
    obtain ⟨hCode, x, hx, _, hBody⟩ := exists_piece_of_mem_runViews hv
    exact ⟨hCode, hBody ▸ hFull x hx⟩
  obtain ⟨x, hLink, hLinked, hSetting, hCount⟩ :=
    linkTrace_ok hViews (fun v hv => (hBodies v hv).1) fun v hv => (hBodies v hv).2
  refine ⟨x.closeTrace, pieces, ?_, hCarries, hFull, ?_, hDecoded.of_setting hSetting hCount⟩
  · rw [buildTrace_eq hTrace hRuns hCounts hPos, hRun]
    change (w.linkTrace >>= fun x => _) = _
    rw [hLink]
    rfl
  · have hClosed := (hLinked.newBlock .pcReconstruction 0).newBlock .exceptionHandling 0
    rw [hDecoded.method_eq, List.append_assoc, List.append_assoc] at hClosed
    exact hClosed.congr rfl rfl

/-- A trace with an instruction below the ceiling that does not fit is malformed. -/
theorem buildTrace_stuck
    (hUnfit : ∃ off ∈ (u.code.traceOffsets t.runs).take c, ¬u.code.Fits off) :
    ∃ e, (u.buildTrace c).stop? = some (.failed (.malformed e)) := by
  obtain ⟨r, rest, hShape⟩ := List.exists_cons_of_ne_nil hRuns
  rw [← Run.planOffsets_eq, hShape] at hUnfit
  obtain ⟨e, w, hRun⟩ := traceRuns_stuck hSmall 0 rest (hFresh.enterRun r.start)
    hFresh.represents.nextBlock_eq hFresh.numInsts hPos hUnfit
  rw [buildTrace_eq hTrace hRuns hCounts hPos, hShape]
  exact ⟨e, Build.stop?_bind (congrArg Build.stop? hRun) _⟩

/-- A build that succeeds gives the graph of the runs. -/
theorem traceBuilt_of_ok {v : WorkUnit} (hBuild : u.buildTrace c = .ok v) :
    ∃ pieces, u.TraceBuilt v t.runs c pieces := by
  by_cases hFits : ∀ off ∈ (u.code.traceOffsets t.runs).take c, u.code.Fits off
  · obtain ⟨w, pieces, hBuild', hBuilt⟩ :=
      buildTrace_ok hFresh hTrace hRuns hCounts hPos hSmall hFits
    obtain rfl : v = w := Except.ok.inj (hBuild.symm.trans hBuild')
    exact ⟨pieces, hBuilt⟩
  · obtain ⟨e, hStop⟩ := buildTrace_stuck hFresh hTrace hRuns hCounts hPos hSmall
      (by simpa using hFits)
    rw [hBuild] at hStop
    cases hStop

end Build

/-- Ceilings are words, so a count up to the ceiling does not wrap. -/
theorem toNat_toInt_lt (c : Int64) : c.toInt.toNat < 2 ^ 63 :=
  (Int.toNat_lt' (by decide)).mpr c.toInt_lt

theorem natCast_toNat_toInt {c : Int64} (hPos : 0 < c.toInt) :
    ((c.toInt.toNat : Nat) : Int) = c.toInt :=
  Int.toNat_of_nonneg (Int.le_of_lt hPos)

/-- The loop once, and then its first instruction again. -/
def loopTrace : Trace :=
  { name := "loop", method := (loose loopCode none).method,
    runs := [⟨0, 2, false⟩, ⟨0, 1, true⟩] }

theorem fits_loopTrace :
    ∀ off ∈ (loopCode.traceOffsets loopTrace.runs).take 3, loopCode.Fits off := by
  decide +kernel

end WorkUnit

end TraceJit
