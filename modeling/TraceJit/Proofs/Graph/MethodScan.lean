import TraceJit.Graph.MethodBuild
import TraceJit.Proofs.Bytecode.Walk
import TraceJit.Proofs.Graph.Boundary
import TraceJit.Proofs.Graph.Edit
import TraceJit.Proofs.Graph.Marks

/-!
The first pass over a method. It leaves one block that holds the whole walk, and marks for the
offset after every boundary and for every branch target. It stops at the first branch past the
end of the code, or else at an instruction that does not fit.
-/

namespace TraceJit

namespace WorkUnit

/-- The marks that the first pass sets for a walk over the whole code. -/
def methodMarks (u : WorkUnit) (steps : List Placed) : StartSet :=
  (StartSet.new u.code.size).markAll (steps.flatMap u.method.linkage.marks)

def whole (body : List Entry) : BlockView := { kind := .code, start := 0, body }

/-- The unit with one more instruction in its first block, and the report of it. -/
def scanStep (u : WorkUnit) (p : Placed) : WorkUnit :=
  (u.append 0 p.insn p.offset).sayInsn p.offset p.insn

theorem scanStep_setting (u : WorkUnit) (p : Placed) : (u.scanStep p).setting = u.setting :=
  u.append_setting 0 p.insn p.offset

/-- One step of the scan, unless it branches past the end of the code. -/
theorem scanSteps_cons (u : WorkUnit) (starts : StartSet) (p : Placed) (rest : List Placed)
    (hInside : ∀ t, u.method.linkage.target? p = some t → t ≤ starts.limit) :
    scanSteps 0 (p :: rest) starts u =
      scanSteps 0 rest (starts.markAll (u.method.linkage.marks p)) (u.scanStep p) := by
  have hMethod := method_of_setting (u.scanStep_setting p)
  unfold Linkage.target? at hInside
  unfold scanStep at hMethod
  rw [scanSteps, Linkage.marks, hMethod]
  cases hClass : classify u.method.linkage p.insn p.offset with
  | none => rfl
  | some bd =>
      dsimp only
      cases hTarget : bd.target with
      | none => rfl
      | some t =>
          have hAccepted : t ≤ starts.limit := hInside t (by rw [hClass]; exact hTarget)
          simp only [StartSet.accepts, StartSet.mark_limit, hAccepted, decide_true, if_true]
          rfl

/-- A walk without branches past the end is decoded as a whole. -/
theorem scanSteps_ok {u : WorkUnit} {body : List Entry} {m : Nat} (steps : List Placed)
    (starts : StartSet) (h : u.Represents [whole body]) (hCount : u.numInsts = wrapCount m)
    (hInside : ∀ p ∈ steps, ∀ t, u.method.linkage.target? p = some t → t ≤ starts.limit) :
    ∃ (w : WorkUnit) (entries : List Entry),
      scanSteps 0 steps starts u =
        .ok { w with starts := some (starts.markAll (steps.flatMap u.method.linkage.marks)) } ∧
      w.Represents [whole (body ++ entries)] ∧ entries.map (·.placed) = steps ∧
      w.setting = u.setting ∧ w.numInsts = wrapCount (m + steps.length : Nat) := by
  induction steps generalizing u starts body m with
  | nil => exact ⟨u, [], rfl, by rwa [List.append_nil], rfl, rfl, hCount⟩
  | cons p rest ih =>
      have hSetting := u.scanStep_setting p
      have hMethod := method_of_setting hSetting
      have hWhole : u.Represents ([] ++ whole body :: []) := h
      have hNext : (u.scanStep p).Represents [whole (body ++ [⟨u.nodes.size, p⟩])] :=
        (hWhole.append p.insn p.offset).congr rfl rfl
      have hNextCount : (u.scanStep p).numInsts = wrapCount (m + 1 : Nat) := by
        refine (append_numInsts hWhole.getElem?_blocks rfl p.insn p.offset).trans ?_
        rw [hCount, wrapCount_wrapCount_add]
        rfl
      obtain ⟨w, entries, hScan, hRepresents, hPlaced, hSame, hInsts⟩ :=
        ih (starts.markAll (u.method.linkage.marks p)) hNext hNextCount (by
          intro q hq t hTarget
          rw [StartSet.markAll_limit]
          exact hInside q (List.mem_cons_of_mem _ hq) t (hMethod ▸ hTarget))
      refine ⟨w, ⟨u.nodes.size, p⟩ :: entries, ?_, ?_, ?_, hSame.trans hSetting, ?_⟩
      · rw [scanSteps_cons u starts p rest (hInside p (List.mem_cons_self ..)), hScan, hMethod,
          List.flatMap_cons, StartSet.markAll_append]
      · rw [List.append_cons]
        exact hRepresents
      · rw [List.map_cons, hPlaced]
      · rw [hInsts, List.length_cons, Nat.add_assoc, Nat.add_comm 1]

/-- The scan stops at the first branch past the end of the code. -/
theorem scanSteps_astray {p : Placed} {t : UInt32} (before rest : List Placed)
    (starts : StartSet) (u : WorkUnit)
    (hInside : ∀ q ∈ before, ∀ t, u.method.linkage.target? q = some t → t ≤ starts.limit)
    (hTarget : u.method.linkage.target? p = some t) (hPast : starts.limit < t) :
    (scanSteps 0 (before ++ p :: rest) starts u).stop? =
      some (.failed (.invariant (.mark u.name p.offset t))) := by
  induction before generalizing u starts with
  | nil =>
      have hMethod := method_of_setting (u.scanStep_setting p)
      have hRejected : ¬t ≤ starts.limit := UInt32.not_le.mpr hPast
      obtain ⟨bd, hClass, hBranch⟩ := Option.bind_eq_some_iff.mp hTarget
      unfold scanStep at hMethod
      rw [List.nil_append, scanSteps, hMethod, hClass]
      simp only [hBranch, StartSet.accepts, StartSet.mark_limit, hRejected, decide_false,
        Bool.false_eq_true, if_false]
      simp only [Build.fail, Build.stop?, name, hMethod]
  | cons q before ih =>
      have hMethod := method_of_setting (u.scanStep_setting q)
      rw [List.cons_append, scanSteps_cons u starts q _ (hInside q (List.mem_cons_self ..)), ih]
      · rw [name, name, hMethod]
      · intro x hx s hs
        rw [StartSet.markAll_limit]
        exact hInside x (List.mem_cons_of_mem _ hx) s (hMethod ▸ hs)
      · rwa [hMethod]
      · rwa [StartSet.markAll_limit]

/-- The scan gets past the first `n` instructions of the walk: each fits into the code, and none
branches past its end. -/
def ScanPasses (u : WorkUnit) (n : Nat) : Prop :=
  ∀ k < n, u.code.Fits (u.code.walkOffset 0 k) ∧
    ∀ t, u.method.linkage.target? (u.code.walked 0 k) = some t → t ≤ u.code.size

section Scan

variable {u : WorkUnit} {n : Nat}

theorem ScanPasses.fits (h : u.ScanPasses n) : ∀ k < n, u.code.Fits (u.code.walkOffset 0 k) :=
  fun k hk => (h k hk).1

theorem ScanPasses.target_le (h : u.ScanPasses n) :
    ∀ p ∈ u.code.walk 0 n, ∀ t, u.method.linkage.target? p = some t → t ≤ u.code.size := by
  intro p hp t hTarget
  obtain ⟨k, hk, rfl⟩ := Code.mem_walk.mp hp
  exact (h k hk).2 t hTarget

/-- The empty block of the scan. -/
private theorem Fresh.represents_whole (hFresh : u.Fresh) :
    (u.newBlock .code 0).Represents [whole []] := hFresh.represents.newBlock .code 0

private theorem Fresh.nextBlock_eq (hFresh : u.Fresh) : u.nextBlock = 0 := by
  rw [nextBlock, hFresh.blocks]
  rfl

/-- A walk that the scan gets past is decoded, and marked, as a whole. -/
private theorem scanSteps_walk (hFresh : u.Fresh) (hPasses : u.ScanPasses n) :
    ∃ (w : WorkUnit) (body : List Entry),
      scanSteps 0 (u.code.walk 0 n) (.new u.code.size) (u.newBlock .code 0) =
        .ok { w with starts := some (u.methodMarks (u.code.walk 0 n)) } ∧
      w.Represents [whole body] ∧ body.map (·.placed) = u.code.walk 0 n ∧
      w.setting = u.setting ∧ w.numInsts = n := by
  have hZero : (u.newBlock .code 0).numInsts = wrapCount (0 : Nat) := by
    rw [wrapCount_natCast (by omega)]
    exact hFresh.numInsts
  obtain ⟨w, body, hScan, hRepresents, hPlaced, hSetting, hCount⟩ :=
    scanSteps_ok (u.code.walk 0 n) (.new u.code.size) hFresh.represents_whole hZero
      hPasses.target_le
  refine ⟨w, body, hScan, hRepresents, hPlaced, hSetting, ?_⟩
  have hLength : (u.code.walk 0 n).length = n := by simp [Code.walk]
  have hShort : n ≤ u.code.units.size := by
    have hSteps := u.code.add_le_walkOffset hPasses.fits
    have hInside := u.code.walkOffset_le_size (Nat.zero_le _) hPasses.fits
    omega
  have hSmall := u.code.units_size_lt
  rw [hCount, hLength, Nat.zero_add, wrapCount_natCast (by omega)]

/-- The setting of a method's unit once it is scanned. -/
def scannedSetting (u : WorkUnit) (n : Nat) : WorkUnit :=
  { u.setting with
    starts := some (u.methodMarks (u.code.walk 0 n)), traceSize := u.code.size }

theorem method_of_scannedSetting {w : WorkUnit} (hSetting : w.setting = u.scannedSetting n) :
    w.method = u.method := by
  change w.setting.method = (u.scannedSetting n).method
  rw [hSetting]

/-- A walk that passes to the end of the code leaves one block with all of it. -/
theorem scan_ok (hFresh : u.Fresh) (hPasses : u.ScanPasses n)
    (hEnd : u.code.walkOffset 0 n = u.code.units.size) :
    ∃ (w : WorkUnit) (body : List Entry), u.scan = .ok w ∧ w.Represents [whole body] ∧
      body.map (·.placed) = u.code.walk 0 n ∧ w.setting = u.scannedSetting n ∧
      w.numInsts = n := by
  obtain ⟨hSteps, hStuck⟩ := u.code.sweep_of_covered hPasses.fits hEnd
  obtain ⟨w, body, hScan, hRepresents, hPlaced, hSetting, hCount⟩ := scanSteps_walk hFresh hPasses
  refine ⟨{ w with
    starts := some (u.methodMarks (u.code.walk 0 n)), traceSize := u.code.size },
    body, ?_, hRepresents.congr rfl rfl, hPlaced, ?_, hCount⟩
  · rw [scan, hSteps, hStuck, hFresh.nextBlock_eq, hScan]
    rfl
  · rw [scannedSetting, ← hSetting]
    rfl

/-- A walk that meets an instruction without room stops there, with its message. -/
theorem scan_stuck (hFresh : u.Fresh) (hPasses : u.ScanPasses n)
    (hInside : u.code.walkOffset 0 n < u.code.units.size)
    (hUnfit : ¬u.code.Fits (u.code.walkOffset 0 n)) :
    u.scan.stop? = some (.failed (.malformed (.stuck u.name (u.code.walked 0 n).insn.op
      (u.code.walked 0 n).offset
      ⟨(u.code.walked 0 n).offset, (u.code.walked 0 n).insn.width, u.code.size⟩))) := by
  obtain ⟨hSteps, hStuck⟩ := u.code.sweep_of_stuck hPasses.fits hInside hUnfit
  obtain ⟨w, body, hScan, _, _, hSetting, _⟩ := scanSteps_walk hFresh hPasses
  have hMethod := method_of_setting hSetting
  rw [scan, hSteps, hStuck, hFresh.nextBlock_eq, hScan]
  simp only [bind, Except.bind, Build.fail, Build.stop?, name, hMethod]

/-- A walk that meets a branch past the end stops there, with its message. -/
theorem scan_astray (hFresh : u.Fresh) {t : UInt32} (hPasses : u.ScanPasses n)
    (hFits : u.code.Fits (u.code.walkOffset 0 n))
    (hTarget : u.method.linkage.target? (u.code.walked 0 n) = some t) (hPast : u.code.size < t) :
    u.scan.stop? =
      some (.failed (.invariant (.mark u.name (u.code.walked 0 n).offset t))) := by
  have hAll : ∀ k < n + 1, u.code.Fits (u.code.walkOffset 0 k) := by
    intro k hk
    rcases Nat.lt_or_eq_of_le (Nat.le_of_lt_succ hk) with hLess | rfl
    · exact hPasses.fits k hLess
    · exact hFits
  obtain ⟨rest, hSteps⟩ := u.code.walk_isPrefix_sweep hAll
  rw [Code.walk_succ, List.append_assoc, List.singleton_append] at hSteps
  have hStop := scanSteps_astray (u.code.walk 0 n) rest (.new u.code.size) (u.newBlock .code 0)
    hPasses.target_le hTarget hPast
  rw [scan, hSteps, hFresh.nextBlock_eq]
  exact Build.stop?_bind hStop _

end Scan

end WorkUnit

end TraceJit
