import TraceJit.Proofs.Graph.TraceGraph

/-!
What a trace compiles: the first instructions of the walk over its runs, as many as the ceiling
allows. So a lower ceiling compiles less of the same.
-/

namespace TraceJit

namespace WorkUnit

/-- The instructions of all code blocks in order. -/
def compiled (u : WorkUnit) : List Placed :=
  u.codeBlocks.flatMap fun b => (u.nodesOf b).map (·.2.placed)

/-- What makes the code of `v` the first `c` instructions of the runs of `u`, where `m` runs are
entered. -/
structure IsTraceCode (u v : WorkUnit) (runs : List Run) (c m : Nat) : Prop where
  /-- The code blocks come first. -/
  codeBlocks : v.codeBlocks = (List.range m).map fun k : Nat => (k : BlockId)
  /-- They hold what a walk over the runs meets first, each instruction at its offset. -/
  compiled : v.compiled =
    ((u.code.traceOffsets runs).take c).map fun off => u.code.placedAt off.toUInt32
  /-- Block `k` starts where run `k` does and is chained to the next. It holds instructions of this
  run, and all of them unless it is the last block. -/
  blocks : ∀ k < m, ∃ b r n, v.blocks[k]? = some b ∧ (Run.active runs)[k]? = some r ∧
    b.start = r.start ∧
    b.next = (if k + 1 < m then ((k + 1 : Nat) : BlockId) else noBlock) ∧
    v.instructionsOf k = u.code.walk r.start.toNat n ∧
    0 < n ∧ n ≤ r.count.toNat ∧ (k + 1 < m → n = r.count.toNat)
  numInsts : v.numInsts = (min c (u.code.traceOffsets runs).length : Nat)
  traceSize : v.traceSize = (v.compiled.map (·.insn.width)).sum

section Views

variable {u v : WorkUnit} {runs : List Run} {c k : Nat} {pieces : List (Run × List Entry)}

/-- The code blocks of a finished trace are those of its runs. -/
theorem TraceBuilt.codeBlocks_eq (h : u.TraceBuilt v runs c pieces) :
    v.codeBlocks = (List.range pieces.length).map fun k : Nat => (k : BlockId) := by
  have hBlocks := h.views.codeBlocks_eq (fun _ hv => kind_of_mem_resolvedFrom hv)
    fun _ hv => kind_ne_of_mem_rest hv
  rwa [length_resolvedFrom, length_runViews] at hBlocks

/-- The code blocks of a finished trace hold the decoded pieces. -/
theorem TraceBuilt.compiled_eq (h : u.TraceBuilt v runs c pieces) :
    v.compiled = pieces.flatMap fun x => x.2.map (·.placed) := by
  have hCode := h.views.flatMap_instructionsOf
  rw [length_resolvedFrom, length_runViews] at hCode
  rw [compiled, h.codeBlocks_eq, List.flatMap_map]
  refine hCode.trans ?_
  have hUnlinked := congrArg (List.flatMap BlockView.code) (map_unlinked_resolvedFrom
    u.method.linkage (runViews 0 pieces) 0 pieces.length (runViews 0 pieces))
  have hBodies := congrArg (List.flatMap (List.map Entry.placed)) (map_body_runViews 0 pieces)
  rw [List.flatMap_map, List.flatMap_map] at hUnlinked hBodies
  exact hUnlinked.trans hBodies

/-- The pieces hold the first instructions that a walk over the runs meets. -/
theorem Carries.flatMap_eq {code : Code} (h : Carries code (Run.plan c runs) pieces) :
    (pieces.flatMap fun x => x.2.map (·.placed)) =
      ((code.traceOffsets runs).take c).map fun off => code.placedAt off.toUInt32 := by
  have hLists := congrArg (List.flatMap (·.2)) h
  rw [List.flatMap_map, List.flatMap_map] at hLists
  rw [← Run.planOffsets_eq, Code.planOffsets, List.map_flatMap]
  simp only [List.map_map]
  exact hLists

/-- A piece holds the walk that was planned for it. -/
theorem Carries.getElem? {code : Code} {plan : List (Run × Nat)} (h : Carries code plan pieces)
    {x : Run × List Entry} (hx : pieces[k]? = some x) :
    ∃ n, plan[k]? = some (x.1, n) ∧ x.2.map (·.placed) = code.walk x.1.start.toNat n := by
  have hAt := congrArg (·[k]?) h
  simp only [List.getElem?_map, hx, Option.map_some] at hAt
  obtain ⟨⟨r, n⟩, hPlan, hEq⟩ := Option.map_eq_some_iff.mp hAt.symm
  simp only [Prod.mk.injEq] at hEq
  obtain ⟨rfl, hWalk⟩ := hEq
  exact ⟨n, hPlan, hWalk.symm⟩

/-- A trace that was built holds the code of its plan. -/
theorem TraceBuilt.isTraceCode (h : u.TraceBuilt v runs c pieces) (hFresh : u.Fresh)
    (hPlan : ∀ x ∈ Run.plan c runs, 0 < x.2) : u.IsTraceCode v runs c pieces.length where
  codeBlocks := h.codeBlocks_eq
  compiled := h.compiled_eq.trans h.carries.flatMap_eq
  blocks k hk := by
    obtain ⟨b, hBlock, hStart, hNext, hCode⟩ := h.exists_block (List.getElem?_eq_getElem hk)
    obtain ⟨n, hEntered, hWalk⟩ := h.carries.getElem? (List.getElem?_eq_getElem hk)
    obtain ⟨hActive, hLess, hWhole⟩ := Run.getElem?_plan hEntered
    have hLength : pieces.length = (Run.plan c runs).length := by
      simpa using congrArg List.length h.carries
    refine ⟨b, pieces[k].1, n, hBlock, hActive, hStart, hNext, hCode.trans hWalk,
      hPlan _ (List.mem_of_getElem? hEntered), hLess, ?_⟩
    rwa [hLength]
  numInsts := by
    have hLength := congrArg List.length h.carries.flatMap_eq
    rw [List.length_map, List.length_take] at hLength
    rw [h.decoded.numInsts, hFresh.numInsts, hLength, Int.zero_add]
  traceSize := by
    rw [h.decoded.traceSize, hFresh.traceSize, h.compiled_eq, UInt32.zero_add]

end Views

section Outcome

variable {u : WorkUnit} {t : Trace} {c : Int64} (hFresh : u.Fresh) (hTrace : u.trace = some t)
  (hRuns : t.runs ≠ []) (hCounts : ∀ r ∈ t.runs, r.count ≠ 0) (hPos : 0 < c)

include hFresh hTrace hRuns hCounts hPos

/-- A trace is built and compiles its first instructions, or one of them does not fit. -/
theorem buildTrace_cases :
    ((∀ off ∈ (u.code.traceOffsets t.runs).take c.toInt.toNat, u.code.Fits off) ∧
      ∃ v m, u.buildTrace c.toInt = .ok v ∧ u.IsTraceCode v t.runs c.toInt.toNat m) ∨
    (¬(∀ off ∈ (u.code.traceOffsets t.runs).take c.toInt.toNat, u.code.Fits off) ∧
      ∃ e, (u.buildTrace c.toInt).stop? = some (.failed (.malformed e))) := by
  have hPositive := Int64.lt_iff_toInt_lt.mp hPos
  have hSome : 0 < c.toInt.toNat := Int.lt_toNat.mpr hPositive
  have hSmall := toNat_toInt_lt c
  rw [← natCast_toNat_toInt hPositive, Int.toNat_natCast]
  by_cases hFits : ∀ off ∈ (u.code.traceOffsets t.runs).take c.toInt.toNat, u.code.Fits off
  · obtain ⟨v, pieces, hBuild, hBuilt⟩ :=
      buildTrace_ok hFresh hTrace hRuns hCounts hSome hSmall hFits
    exact .inl ⟨hFits, v, pieces.length, hBuild, hBuilt.isTraceCode hFresh
      fun x hx => Run.pos_of_mem_plan hCounts hSome hx⟩
  · refine .inr ⟨hFits, buildTrace_stuck hFresh hTrace hRuns hCounts hSome hSmall ?_⟩
    simpa using hFits

/-- A trace that is built fits up to the ceiling, and compiles its first instructions. -/
theorem isTraceCode_of_buildTrace {v : WorkUnit} (hBuild : u.buildTrace c.toInt = .ok v) :
    (∀ off ∈ (u.code.traceOffsets t.runs).take c.toInt.toNat, u.code.Fits off) ∧
      ∃ m, u.IsTraceCode v t.runs c.toInt.toNat m := by
  rcases buildTrace_cases hFresh hTrace hRuns hCounts hPos with
    ⟨hFits, w, m, hBuild', hCode⟩ | ⟨_, e, hStop⟩
  · obtain rfl : v = w := Except.ok.inj (hBuild.symm.trans hBuild')
    exact ⟨hFits, m, hCode⟩
  · rw [hBuild] at hStop
    cases hStop

end Outcome

/-- What a trace compiles. The runs of a fresh unit are built for a ceiling if and only if the
instructions that the walk over them meets up to the ceiling all fit; if not, the trace is
malformed. The code blocks hold exactly these instructions, one block for each run that is entered.
Hence whatever can be built for a ceiling can be built for a lower one, which compiles less of the
same. -/
theorem buildTrace_code {u : WorkUnit} {t : Trace} (hFresh : u.Fresh) (hTrace : u.trace = some t)
    (hRuns : t.runs ≠ []) (hCounts : ∀ r ∈ t.runs, r.count ≠ 0) :
    (∀ c : Int64, 0 < c →
      ((∃ v, u.buildTrace c.toInt = .ok v) ↔
        ∀ off ∈ (u.code.traceOffsets t.runs).take c.toInt.toNat, u.code.Fits off) ∧
      ((¬∃ v, u.buildTrace c.toInt = .ok v) →
        ∃ e, (u.buildTrace c.toInt).stop? = some (.failed (.malformed e))) ∧
      ∀ v, u.buildTrace c.toInt = .ok v → ∃ m, u.IsTraceCode v t.runs c.toInt.toNat m) ∧
    ∀ c c' : Int64, 1 ≤ c → c ≤ c' → ∀ v', u.buildTrace c'.toInt = .ok v' →
      ∃ v, u.buildTrace c.toInt = .ok v ∧ v.compiled <+: v'.compiled := by
  refine ⟨fun c hPos => ⟨⟨?_, ?_⟩, ?_, ?_⟩, fun c c' hOne hLe v' hBuild' => ?_⟩
  · rintro ⟨v, hBuild⟩
    exact (isTraceCode_of_buildTrace hFresh hTrace hRuns hCounts hPos hBuild).1
  · intro hFits
    rcases buildTrace_cases hFresh hTrace hRuns hCounts hPos with
      ⟨_, v, _, hBuild, _⟩ | ⟨hUnfit, _⟩
    · exact ⟨v, hBuild⟩
    · exact absurd hFits hUnfit
  · intro hFails
    rcases buildTrace_cases hFresh hTrace hRuns hCounts hPos with ⟨_, v, _, hBuild, _⟩ | ⟨_, hStop⟩
    · exact absurd ⟨v, hBuild⟩ hFails
    · exact hStop
  · intro v hBuild
    exact (isTraceCode_of_buildTrace hFresh hTrace hRuns hCounts hPos hBuild).2
  · have hPos : 0 < c := Int64.lt_of_lt_of_le (by decide) hOne
    have hPos' : 0 < c' := Int64.lt_of_lt_of_le hPos hLe
    have hTake : c.toInt.toNat ≤ c'.toInt.toNat :=
      Int.toNat_le_toNat (Int64.le_iff_toInt_le.mp hLe)
    have hPrefix := List.take_prefix_take_left (l := u.code.traceOffsets t.runs) hTake
    obtain ⟨hFits', _, hCode'⟩ :=
      isTraceCode_of_buildTrace hFresh hTrace hRuns hCounts hPos' hBuild'
    rcases buildTrace_cases hFresh hTrace hRuns hCounts hPos with
      ⟨_, v, m, hBuild, hCode⟩ | ⟨hUnfit, _⟩
    · refine ⟨v, hBuild, ?_⟩
      rw [hCode.compiled, hCode'.compiled]
      exact hPrefix.map _
    · exact absurd (fun off hOff => hFits' off (hPrefix.subset hOff)) hUnfit

/-- A trace under two ceilings. -/
theorem buildTrace_code_loop :
    (loose loopCode (some loopTrace)).Fresh ∧ loopTrace.runs ≠ [] ∧
      (∀ r ∈ loopTrace.runs, r.count ≠ 0) ∧
      ∃ v w, (loose loopCode (some loopTrace)).buildTrace 3 = .ok v ∧
        (loose loopCode (some loopTrace)).buildTrace 2 = .ok w ∧ w.compiled <+: v.compiled := by
  have hFresh := fresh_loose loopCode (some loopTrace)
  have hRuns : loopTrace.runs ≠ [] := by decide
  have hCounts : ∀ r ∈ loopTrace.runs, r.count ≠ 0 := by decide
  obtain ⟨hOutcome, hLower⟩ := buildTrace_code hFresh rfl hRuns hCounts
  obtain ⟨v, hBuild⟩ := (hOutcome 3 (by decide)).1.mpr fits_loopTrace
  obtain ⟨w, hBuild', hPrefix⟩ := hLower 2 3 (by decide) (by decide) v hBuild
  exact ⟨hFresh, hRuns, hCounts, v, w, hBuild, hBuild', hPrefix⟩

end WorkUnit

end TraceJit
