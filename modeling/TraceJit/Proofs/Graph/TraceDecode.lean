import Mathlib.Data.UInt
import TraceJit.Graph.TraceBuild
import TraceJit.Proofs.Bytecode.Walk
import TraceJit.Proofs.Graph.Edit

/-!
Decoding the runs of a trace. The ceiling and the end of a run are met at the same time or one
after the other; in every case each run that is entered gives one block, which holds the walk from
its start up to whichever comes first. The first instruction that does not fit stops the build.
-/

namespace TraceJit

namespace Run

/-- The runs up to the first that ends the trace, this one included. -/
def active : List Run → List Run
  | [] => []
  | r :: rest => if r.ends then [r] else r :: active rest

def offsets (code : Code) (r : Run) : List Nat :=
  (List.range r.count.toNat).map (code.walkOffset r.start.toNat)

/-- The runs that are entered if `left` instructions may be decoded, each with the number of its
instructions that are. -/
def plan : Nat → List Run → List (Run × Nat)
  | _, [] => []
  | left, r :: rest =>
      (r, min r.count.toNat left) ::
        if left ≤ r.count.toNat || r.ends then [] else plan (left - r.count.toNat) rest

theorem length_offsets (code : Code) (r : Run) : (offsets code r).length = r.count.toNat := by
  simp [offsets]

end Run

/-- A run that neither ends the trace nor uses up what is left is planned as a whole. -/
theorem Run.plan_cons {left : Nat} {r : Run} (rest : List Run)
    (hStop : ¬(left ≤ r.count.toNat || r.ends) = true) :
    r.count.toNat < left ∧
      plan left (r :: rest) = (r, r.count.toNat) :: plan (left - r.count.toNat) rest := by
  have hShort : r.count.toNat < left := by
    simp only [Bool.or_eq_true, decide_eq_true_eq, not_or, Nat.not_le] at hStop
    exact hStop.1
  rw [plan, if_neg hStop, Nat.min_eq_left (Nat.le_of_lt hShort)]
  exact ⟨hShort, rfl⟩

/-- The offsets that a walk over the runs of a trace meets. -/
def Code.traceOffsets (code : Code) (runs : List Run) : List Nat :=
  (Run.active runs).flatMap (Run.offsets code)

def Code.planOffsets (code : Code) (plan : List (Run × Nat)) : List Nat :=
  plan.flatMap fun x => (List.range x.2).map (code.walkOffset x.1.start.toNat)

/-- A plan meets the first offsets of the trace, as many as it allows. -/
theorem Run.planOffsets_eq (code : Code) (left : Nat) (runs : List Run) :
    code.planOffsets (plan left runs) = (code.traceOffsets runs).take left := by
  induction runs generalizing left with
  | nil => simp [plan, Code.planOffsets, Code.traceOffsets, active]
  | cons r rest ih =>
      have hHead : (List.range (min r.count.toNat left)).map (code.walkOffset r.start.toNat) =
          (offsets code r).take left := by
        rw [offsets, ← List.map_take, List.take_range, Nat.min_comm]
      rw [plan, Code.planOffsets, List.flatMap_cons, hHead, Code.traceOffsets, active]
      by_cases hEnds : r.ends
      · simp [hEnds]
      · simp only [hEnds, Bool.or_false, decide_eq_true_eq, Bool.false_eq_true, if_false,
          List.flatMap_cons, List.take_append, length_offsets]
        congr 1
        by_cases hFull : left ≤ r.count.toNat
        · rw [if_pos hFull, Nat.sub_eq_zero_of_le hFull, List.take_zero, List.flatMap_nil]
        · rw [if_neg hFull]
          exact ih (left - r.count.toNat)

namespace WorkUnit

/-- What decoding a trace never touches. -/
def traced (u : WorkUnit) : WorkUnit := { u.setting with traceSize := 0 }

/-- The unit `w` is `u` with these instructions added. -/
structure Decoded (u w : WorkUnit) (steps : List Placed) : Prop where
  numInsts : w.numInsts = u.numInsts + steps.length
  traceSize : w.traceSize = u.traceSize + (steps.map (·.insn.width)).sum
  traced : w.traced = u.traced

namespace Decoded

variable {u w x : WorkUnit} {steps more : List Placed}

theorem code_eq (h : u.Decoded w steps) : w.code = u.code := by
  change w.traced.code = u.traced.code
  rw [h.traced]

theorem method_eq (h : u.Decoded w steps) : w.method = u.method := by
  change w.traced.method = u.traced.method
  rw [h.traced]

theorem refl (u : WorkUnit) : u.Decoded u [] := ⟨by simp, by simp, rfl⟩

theorem trans (h : u.Decoded w steps) (h' : w.Decoded x more) :
    u.Decoded x (steps ++ more) where
  numInsts := by rw [h'.numInsts, h.numInsts, List.length_append]; omega
  traceSize := by
    rw [h'.traceSize, h.traceSize, List.map_append, List.sum_append, UInt32.add_assoc]
  traced := h'.traced.trans h.traced

end Decoded

/-- The unit with one more decoded instruction in block `cur`, and the report of it. -/
def addStep (u : WorkUnit) (cur : BlockId) (p : Placed) : WorkUnit :=
  { u.append cur p.insn p.offset with
    traceSize := (u.append cur p.insn p.offset).traceSize + p.insn.width }.sayInsn p.offset p.insn

section Step

variable {u : WorkUnit} {pre : List BlockView} {v : BlockView} {p : Placed}

/-- A step makes the last block one instruction longer. -/
theorem Represents.addStep (h : u.Represents (pre ++ [v])) (p : Placed) :
    (u.addStep pre.length p).Represents (pre ++ [v.add ⟨u.nodes.size, p⟩]) :=
  (h.append p.insn p.offset).congr rfl rfl

/-- A step counts as one instruction, with its width. -/
theorem decoded_addStep {count : Nat} (h : u.Represents (pre ++ [v])) (hCode : v.kind = .code)
    (hCount : u.numInsts = count) (hSmall : count + 1 < 2 ^ 63) (p : Placed) :
    u.Decoded (u.addStep pre.length p) [p] where
  numInsts := by
    refine (append_numInsts h.getElem?_blocks hCode p.insn p.offset).trans ?_
    rw [hCount]
    exact wrapCount_natCast hSmall
  traceSize := by
    have hSame : (u.append pre.length p.insn p.offset).traceSize = u.traceSize := by
      change (u.append pre.length p.insn p.offset).setting.traceSize = u.setting.traceSize
      rw [append_setting]
    change (u.append pre.length p.insn p.offset).traceSize + p.insn.width = _
    simp [hSame]
  traced := by
    change { (u.append pre.length p.insn p.offset).setting with traceSize := 0 } = _
    rw [append_setting]
    rfl

/-- Where an instruction fits, the step adds it and goes on behind it. -/
theorem traceStep_of_fits {off : UInt32} (run : Nat) (cur : BlockId)
    (hFits : u.code.Fits off.toNat) :
    u.traceStep run cur off =
      .ok (u.addStep cur (u.code.placedAt off), (u.code.placedAt off).next) := by
  have hInside : ¬u.code.size ≤ off := by
    rw [u.code.size_le_iff]
    exact Nat.not_le_of_lt hFits.1
  have hAdvance := u.code.advance_of_fits hFits
  rw [Code.placedAt] at hAdvance
  simp only [traceStep, if_neg hInside, hAdvance]
  rfl

/-- Where it does not, the step stops and changes nothing. -/
theorem traceStep_of_not_fits {off : UInt32} (run : Nat) (cur : BlockId)
    (hUnfit : ¬u.code.Fits off.toNat) :
    ∃ e, u.traceStep run cur off = .error ⟨.failed (.malformed e), u⟩ := by
  by_cases hPast : u.code.size ≤ off
  · exact ⟨_, by rw [traceStep, if_pos hPast]⟩
  · have hInside : off.toNat < u.code.units.size := by
      rw [u.code.size_le_iff] at hPast
      exact Nat.lt_of_not_le hPast
    have hAdvance := u.code.advance_of_not_fits hInside hUnfit
    rw [Code.placedAt] at hAdvance
    simp only [traceStep, if_neg hPast, hAdvance]
    exact ⟨_, rfl⟩

end Step

section Run

variable {c : Nat} {pre : List BlockView}

/-- The walk after its first instruction, seen from the unit that has decoded it. -/
theorem fits_addStep {u w : WorkUnit} {off : UInt32} {i : Nat} (hFits : u.code.Fits off.toNat)
    (hCode : w.code = u.code) :
    w.code.Fits (w.code.walkOffset (u.code.placedAt off).next.toNat i) ↔
      u.code.Fits (u.code.walkOffset off.toNat (i + 1)) := by
  rw [hCode, u.code.placedAt_next_toNat hFits, Code.walkOffset_succ_start]

/-- One step of a run: the ceiling is compared after the instruction is added. -/
theorem traceRun_succ {u : WorkUnit} {count : Nat} {off : UInt32} (run left : Nat)
    (hFits : u.code.Fits off.toNat)
    (hCount : (u.addStep pre.length (u.code.placedAt off)).numInsts = count) :
    traceRun c run pre.length (left + 1) u off =
      if c ≤ count then .ok (u.addStep pre.length (u.code.placedAt off))
      else traceRun c run pre.length left (u.addStep pre.length (u.code.placedAt off))
        (u.code.placedAt off).next := by
  rw [traceRun, traceStep_of_fits run _ hFits]
  simp only [hCount, Int.ofNat_le]

/-- A run is decoded to its end or up to the ceiling, if all its instructions so far fit. -/
theorem traceRun_ok (hSmall : c < 2 ^ 63) (run left : Nat) {u : WorkUnit} {v : BlockView}
    {count : Nat} {off : UInt32} (h : u.Represents (pre ++ [v])) (hCode : v.kind = .code)
    (hCount : u.numInsts = count) (hLess : count < c)
    (hFits : ∀ i < min left (c - count), u.code.Fits (u.code.walkOffset off.toNat i)) :
    ∃ (w : WorkUnit) (entries : List Entry),
      traceRun c run pre.length left u off = .ok w ∧
      w.Represents (pre ++ [{ v with body := v.body ++ entries }]) ∧
      entries.map (·.placed) = u.code.walk off.toNat (min left (c - count)) ∧
      u.Decoded w (entries.map (·.placed)) := by
  induction left generalizing u v count off with
  | zero =>
      refine ⟨u, [], rfl, by rwa [List.append_nil], ?_, .refl u⟩
      rw [Nat.zero_min]
      rfl
  | succ left ih =>
      have hHere : u.code.Fits off.toNat := hFits 0 (by omega)
      have hStep := decoded_addStep h hCode hCount (by omega) (u.code.placedAt off)
      have hNext := h.addStep (u.code.placedAt off)
      have hNextCount : (u.addStep pre.length (u.code.placedAt off)).numInsts =
          (count + 1 : Nat) := by
        rw [hStep.numInsts, hCount]
        rfl
      rw [traceRun_succ run left hHere hNextCount]
      -- The ceiling is looked at behind the step, so one instruction is always taken.
      by_cases hFull : c ≤ count + 1
      · rw [if_pos hFull]
        refine ⟨_, [⟨u.nodes.size, u.code.placedAt off⟩], rfl, hNext, ?_, hStep⟩
        have hOne : min (left + 1) (c - count) = 1 := by omega
        rw [hOne, Code.walk_succ_start, Code.walked_zero]
        rfl
      · rw [if_neg hFull]
        have hMin : min (left + 1) (c - count) = min left (c - (count + 1)) + 1 := by omega
        obtain ⟨w, entries, hRun, hViews, hPlaced, hDecoded⟩ := ih hNext hCode hNextCount (by omega)
          fun i hi => (fits_addStep hHere hStep.code_eq).mpr (hFits (i + 1) (by omega))
        refine ⟨w, ⟨u.nodes.size, u.code.placedAt off⟩ :: entries, hRun, ?_, ?_,
          hStep.trans hDecoded⟩
        · rw [List.append_cons v.body]
          exact hViews
        · rw [List.map_cons, hPlaced, hMin, Code.walk_succ_start, Code.walked_zero, hStep.code_eq,
            u.code.placedAt_next_toNat hHere]

/-- An instruction that does not fit stops the run, unless the ceiling comes first. -/
theorem traceRun_stuck (hSmall : c < 2 ^ 63) (run left : Nat) {u : WorkUnit} {v : BlockView}
    {count : Nat} {off : UInt32} (h : u.Represents (pre ++ [v])) (hCode : v.kind = .code)
    (hCount : u.numInsts = count) (hLess : count < c)
    (hUnfit : ∃ i < min left (c - count), ¬u.code.Fits (u.code.walkOffset off.toNat i)) :
    ∃ e w, traceRun c run pre.length left u off = .error ⟨.failed (.malformed e), w⟩ := by
  induction left generalizing u v count off with
  | zero =>
      obtain ⟨i, hi, _⟩ := hUnfit
      omega
  | succ left ih =>
      by_cases hHere : u.code.Fits off.toNat
      · obtain ⟨i, hi, hStuck⟩ := hUnfit
        cases i with
        | zero => exact absurd hHere hStuck
        | succ i =>
            have hStep := decoded_addStep h hCode hCount (by omega) (u.code.placedAt off)
            have hNextCount : (u.addStep pre.length (u.code.placedAt off)).numInsts =
                (count + 1 : Nat) := by
              rw [hStep.numInsts, hCount]
              rfl
            rw [traceRun_succ run left hHere hNextCount, if_neg (by omega)]
            exact ih (h.addStep _) hCode hNextCount (by omega)
              ⟨i, by omega, fun hFits => hStuck ((fits_addStep hHere hStep.code_eq).mp hFits)⟩
      · obtain ⟨e, hError⟩ := traceStep_of_not_fits run pre.length hHere
        exact ⟨e, u, by rw [traceRun, hError]⟩

end Run

/-- The blocks of decoded runs, of which the first has number `i`. Each is chained to the next. -/
def runViews (i : Nat) : List (Run × List Entry) → List BlockView
  | [] => []
  | [x] => [{ kind := .code, start := x.1.start, body := x.2 }]
  | x :: y :: rest =>
      { kind := .code, start := x.1.start, body := x.2, next := (i + 1 : Nat) } ::
        runViews (i + 1) (y :: rest)

theorem runViews_cons (i : Nat) (x : Run × List Entry) {rest : List (Run × List Entry)}
    (hRest : rest ≠ []) :
    runViews i (x :: rest) =
      { kind := .code, start := x.1.start, body := x.2, next := (i + 1 : Nat) } ::
        runViews (i + 1) rest := by
  cases rest with
  | nil => exact absurd rfl hRest
  | cons y rest => rfl

theorem getElem?_runViews (i k : Nat) (pieces : List (Run × List Entry)) :
    (runViews i pieces)[k]? = (pieces[k]?).map fun x =>
      { kind := .code, start := x.1.start, body := x.2,
        next := if k + 1 < pieces.length then ((i + k + 1 : Nat) : BlockId) else noBlock } := by
  fun_induction runViews i pieces generalizing k with
  | case1 => rfl
  | case2 i x => cases k <;> simp
  | case3 i x y rest ih =>
      cases k with
      | zero => simp
      | succ k =>
          have hNumber : i + 1 + k + 1 = i + (k + 1) + 1 := by omega
          rw [List.getElem?_cons_succ, ih, List.getElem?_cons_succ, hNumber]
          simp only [List.length_cons, Nat.add_lt_add_iff_right]

/-- The decoded runs hold what the plan asks for. -/
def Carries (code : Code) (plan : List (Run × Nat)) (pieces : List (Run × List Entry)) : Prop :=
  pieces.map (fun x => (x.1, x.2.map (·.placed))) =
    plan.map fun x => (x.1, code.walk x.1.start.toNat x.2)

/-- The unit with an empty block for the next run, to which block `prior` is chained. -/
def enterRun (u : WorkUnit) (prior : BlockId) (start : UInt32) : WorkUnit :=
  (u.newBlock .code start).modifyBlock prior fun b => { b with next := u.nextBlock }

theorem numInsts_enterRun (u : WorkUnit) (prior : BlockId) (start : UInt32) :
    (u.enterRun prior start).numInsts = u.numInsts := modifyBlock_numInsts ..

theorem decoded_enterRun (u : WorkUnit) (prior : BlockId) (start : UInt32) :
    u.Decoded (u.enterRun prior start) [] := by
  have hSetting : (u.enterRun prior start).setting = u.setting := by
    rw [enterRun, modifyBlock_setting, newBlock_setting]
  refine ⟨?_, ?_, ?_⟩
  · rw [numInsts_enterRun, List.length_nil, Int.natCast_zero, Int.add_zero]
  · change (u.enterRun prior start).setting.traceSize = _
    rw [hSetting]
    simp [setting]
  · rw [traced, hSetting, traced]

section Runs

variable {c : Nat} {u : WorkUnit} {pre : List BlockView} {r : Run} {count : Nat} {prior : BlockId}

/-- A run is decoded into a block of its own, to which the block before it leads. -/
theorem traceRuns_enter (c : Int) (run : Nat) (prior : BlockId) (r : Run) (rest : List Run)
    (u : WorkUnit) :
    traceRuns c run prior (r :: rest) u =
      match traceRun c run u.nextBlock r.count.toNat (u.enterRun prior r.start) r.start with
      | .error h => .error h
      | .ok w => if c ≤ w.numInsts || r.ends then .ok w
          else traceRuns c (run + 1) u.nextBlock rest w := rfl

/-- Entering a run: its block is decoded, and then the trace ends or the next run is entered. -/
theorem traceRuns_cons (hSmall : c < 2 ^ 63) (run : Nat) (rest : List Run)
    (h : (u.enterRun prior r.start).Represents (pre ++ [{ kind := .code, start := r.start }]))
    (hNumber : u.nextBlock = pre.length) (hCount : u.numInsts = count) (hLess : count < c)
    (hFits : ∀ i < min r.count.toNat (c - count),
      u.code.Fits (u.code.walkOffset r.start.toNat i)) :
    ∃ (w : WorkUnit) (body : List Entry),
      traceRuns c run prior (r :: rest) u =
        (if c - count ≤ r.count.toNat || r.ends then .ok w
        else traceRuns c (run + 1) pre.length rest w) ∧
      w.Represents (pre ++ [{ kind := .code, start := r.start, body }]) ∧
      body.map (·.placed) = u.code.walk r.start.toNat (min r.count.toNat (c - count)) ∧
      w.numInsts = (count + min r.count.toNat (c - count) : Nat) ∧
      u.Decoded w (body.map (·.placed)) := by
  have hEnter := u.decoded_enterRun prior r.start
  have hCode := hEnter.code_eq
  have hEnterCount := (u.numInsts_enterRun prior r.start).trans hCount
  rw [← hCode] at hFits ⊢
  obtain ⟨w, body, hRun, hViews, hPlaced, hDecoded⟩ :=
    traceRun_ok hSmall run r.count.toNat h rfl hEnterCount hLess hFits
  have hDone : w.numInsts = (count + min r.count.toNat (c - count) : Nat) := by
    have hLength := congrArg List.length hPlaced
    rw [List.length_map, Code.length_walk] at hLength
    rw [hDecoded.numInsts, hEnterCount, List.length_map, hLength]
    rfl
  refine ⟨w, body, ?_, hViews, hPlaced, hDone, hEnter.trans hDecoded⟩
  have hReached : ((c : Int) ≤ w.numInsts) = (c - count ≤ r.count.toNat) := by
    rw [hDone]
    exact propext (by omega)
  simp only [traceRuns_enter, hNumber, hRun, hReached]

/-- The run after a decoded one gets the next block, to which the decoded block is chained. -/
theorem Represents.enterRun {w : WorkUnit} {body : List Entry} {start : UInt32}
    (h : w.Represents (pre ++ [{ kind := .code, start, body }])) (start' : UInt32) :
    (w.enterRun pre.length start').Represents
      ((pre ++ [{ kind := .code, start, body, next := (pre.length + 1 : Nat) }]) ++
        [{ kind := .code, start := start' }]) ∧ w.nextBlock = (pre.length + 1 : Nat) := by
  have hNumber : w.nextBlock = (pre.length + 1 : Nat) := by
    rw [h.nextBlock_eq, List.length_append]
    rfl
  have hNew := h.newBlock .code start'
  rw [List.append_assoc] at hNew ⊢
  refine ⟨?_, hNumber⟩
  rw [WorkUnit.enterRun, hNumber]
  exact hNew.modifyBlock (by simp only [BlockView.block]) rfl

theorem fits_head {code : Code} {left : Nat} {rest : List Run}
    (hFits : ∀ off ∈ code.planOffsets (Run.plan left (r :: rest)), code.Fits off) :
    ∀ i < min r.count.toNat left, code.Fits (code.walkOffset r.start.toNat i) := by
  intro i hi
  apply hFits
  rw [Run.plan, Code.planOffsets, List.flatMap_cons]
  exact List.mem_append_left _ (List.mem_map_of_mem (List.mem_range.mpr hi))

/-- A trace all of whose planned instructions fit is decoded, each run into a block. -/
theorem traceRuns_ok (hSmall : c < 2 ^ 63) (run : Nat) (rest : List Run)
    (h : (u.enterRun prior r.start).Represents (pre ++ [{ kind := .code, start := r.start }]))
    (hNumber : u.nextBlock = pre.length) (hCount : u.numInsts = count) (hLess : count < c)
    (hFits : ∀ off ∈ u.code.planOffsets (Run.plan (c - count) (r :: rest)), u.code.Fits off) :
    ∃ (w : WorkUnit) (pieces : List (Run × List Entry)),
      traceRuns c run prior (r :: rest) u = .ok w ∧
      w.Represents (pre ++ runViews pre.length pieces) ∧
      Carries u.code (Run.plan (c - count) (r :: rest)) pieces ∧
      u.Decoded w (pieces.flatMap fun x => x.2.map (·.placed)) := by
  induction rest generalizing u pre r count prior run with
  | nil =>
      obtain ⟨w, body, hRun, hViews, hPlaced, _, hDecoded⟩ :=
        traceRuns_cons hSmall run [] h hNumber hCount hLess (fits_head hFits)
      rw [traceRuns, ite_self] at hRun
      refine ⟨w, [(r, body)], hRun, hViews, ?_, by simpa using hDecoded⟩
      simp [Carries, Run.plan, hPlaced]
  | cons r' rest ih =>
      obtain ⟨w, body, hRun, hViews, hPlaced, hDone, hDecoded⟩ :=
        traceRuns_cons hSmall run (r' :: rest) h hNumber hCount hLess (fits_head hFits)
      by_cases hStop : (c - count ≤ r.count.toNat || r.ends) = true
      · rw [if_pos hStop] at hRun
        refine ⟨w, [(r, body)], hRun, hViews, ?_, by simpa using hDecoded⟩
        rw [Run.plan, if_pos hStop]
        simp [Carries, hPlaced]
      · rw [if_neg hStop] at hRun
        obtain ⟨hShort, hPlan⟩ := Run.plan_cons (r' :: rest) hStop
        rw [Nat.min_eq_left (Nat.le_of_lt hShort)] at hPlaced hDone
        rw [hPlan] at hFits ⊢
        rw [← Nat.sub_add_eq] at hFits ⊢
        -- The block stays open until the next run is entered, and is chained only then.
        obtain ⟨hEnter, hNext⟩ := hViews.enterRun r'.start
        have hRestFits : ∀ off ∈ w.code.planOffsets
            (Run.plan (c - (count + r.count.toNat)) (r' :: rest)), w.code.Fits off := by
          rw [hDecoded.code_eq]
          exact fun off hOff => hFits off (List.mem_append_right _ hOff)
        obtain ⟨w', pieces, hRest, hFinal, hCarries, hDecoded'⟩ :=
          ih (run + 1) hEnter (by simpa using hNext) hDone (by omega) hRestFits
        refine ⟨w', (r, body) :: pieces, hRun.trans hRest, ?_, ?_, hDecoded.trans hDecoded'⟩
        · have hSome : pieces ≠ [] := by
            rintro rfl
            simp [Carries, Run.plan] at hCarries
          rw [runViews_cons _ _ hSome, List.append_cons]
          simpa using hFinal
        · rw [hDecoded.code_eq] at hCarries
          simp only [Carries, List.map_cons, hPlaced] at hCarries ⊢
          rw [hCarries]

theorem traceRuns_head_stuck (hSmall : c < 2 ^ 63) (run : Nat) (rest : List Run)
    (h : (u.enterRun prior r.start).Represents (pre ++ [{ kind := .code, start := r.start }]))
    (hNumber : u.nextBlock = pre.length) (hCount : u.numInsts = count) (hLess : count < c)
    (hUnfit : ∃ i < min r.count.toNat (c - count),
      ¬u.code.Fits (u.code.walkOffset r.start.toNat i)) :
    ∃ e w, traceRuns c run prior (r :: rest) u = .error ⟨.failed (.malformed e), w⟩ := by
  have hEnter := u.decoded_enterRun prior r.start
  have hEnterCount := (u.numInsts_enterRun prior r.start).trans hCount
  rw [← hEnter.code_eq] at hUnfit
  obtain ⟨e, w, hRun⟩ := traceRun_stuck hSmall run r.count.toNat h rfl hEnterCount hLess hUnfit
  exact ⟨e, w, by rw [traceRuns_enter, hNumber, hRun]⟩

/-- An instruction of the plan that does not fit stops the build. -/
theorem traceRuns_stuck (hSmall : c < 2 ^ 63) (run : Nat) (rest : List Run)
    (h : (u.enterRun prior r.start).Represents (pre ++ [{ kind := .code, start := r.start }]))
    (hNumber : u.nextBlock = pre.length) (hCount : u.numInsts = count) (hLess : count < c)
    (hUnfit : ∃ off ∈ u.code.planOffsets (Run.plan (c - count) (r :: rest)), ¬u.code.Fits off) :
    ∃ e w, traceRuns c run prior (r :: rest) u = .error ⟨.failed (.malformed e), w⟩ := by
  induction rest generalizing u pre r count prior run with
  | nil =>
      refine traceRuns_head_stuck hSmall run [] h hNumber hCount hLess ?_
      obtain ⟨off, hOff, hStuck⟩ := hUnfit
      simp only [Run.plan, ite_self, Code.planOffsets, List.flatMap_cons, List.flatMap_nil,
        List.append_nil, List.mem_map, List.mem_range] at hOff
      obtain ⟨i, hi, rfl⟩ := hOff
      exact ⟨i, hi, hStuck⟩
  | cons r' rest ih =>
      by_cases hHead : ∃ i < min r.count.toNat (c - count),
          ¬u.code.Fits (u.code.walkOffset r.start.toNat i)
      · exact traceRuns_head_stuck hSmall run (r' :: rest) h hNumber hCount hLess hHead
      · have hFits : ∀ i < min r.count.toNat (c - count),
            u.code.Fits (u.code.walkOffset r.start.toNat i) :=
          fun i hi => Classical.byContradiction fun hNot => hHead ⟨i, hi, hNot⟩
        obtain ⟨w, body, hRun, hViews, _, hDone, hDecoded⟩ :=
          traceRuns_cons hSmall run (r' :: rest) h hNumber hCount hLess hFits
        obtain ⟨off, hOff, hStuck⟩ := hUnfit
        rw [Run.plan, Code.planOffsets, List.flatMap_cons] at hOff
        rcases List.mem_append.mp hOff with hFirst | hLater
        · obtain ⟨i, hi, rfl⟩ := List.mem_map.mp hFirst
          exact absurd (hFits i (List.mem_range.mp hi)) hStuck
        · by_cases hStop : (c - count ≤ r.count.toNat || r.ends) = true
          · rw [if_pos hStop, List.flatMap_nil] at hLater
            cases hLater
          · obtain ⟨hShort, _⟩ := Run.plan_cons (r' :: rest) hStop
            rw [if_neg hStop] at hRun hLater
            rw [Nat.min_eq_left (Nat.le_of_lt hShort)] at hDone
            rw [← Nat.sub_add_eq] at hLater
            obtain ⟨hEnter, hNext⟩ := hViews.enterRun r'.start
            rw [hRun]
            refine ih (run + 1) hEnter (by simpa using hNext) hDone (by omega) ⟨off, ?_, ?_⟩
            · rw [hDecoded.code_eq]
              exact hLater
            · rwa [hDecoded.code_eq]

end Runs

end WorkUnit

end TraceJit
