import TraceJit.Proofs.Compiler.Call

/-!
When a call reports a broken invariant. Finished graphs pass the check, so only building a method
can lead to such a report; and then the backend has not been entered.
-/

namespace TraceJit

theorem CompileError.isInvariant_build (stop : Stop) :
    (CompileError.build stop).isInvariant = stop.isInvariant := by
  cases stop with
  | fault => rfl
  | failed e => cases e <;> rfl

/-- A build that stops on a broken invariant says so in its error. -/
theorem Stop.isInvariant_iff {stop : Stop} :
    stop.isInvariant = true ↔ ∃ e, stop = .failed (.invariant e) := by
  cases stop with
  | fault => simp [isInvariant]
  | failed e => cases e <;> simp [isInvariant]

namespace Compiler

variable {σ : Type} {c : Compiler σ} {arena : Arena} {t : Trace} {o : Compiled σ}

/-- No attempt on a trace breaks an invariant. -/
theorem AttemptEnds.not_isInvariant {canceled : Bool} {ceiling : Int} {parent : Nat}
    {a : Attempt σ} {e : CompileError} (h : c.AttemptEnds arena canceled t ceiling parent a)
    (hError : a.result = .error e) : e.isInvariant = false := by
  cases h with
  | refused _ _ _ _ hResult =>
      cases hResult.symm.trans hError
      rfl
  | unbuilt _ _ _ hStop _ _ _ _ hResult =>
      cases hResult.symm.trans hError
      rw [CompileError.isInvariant_build, hStop]
  | @replied _ v _ _ _ _ _ _ _ _ _ hResult =>
      rw [hResult] at hError
      cases hReply : (c.backend c.state canceled v.dump).result with
      | ok f =>
          rw [hReply] at hError
          cases hError
      | error reply =>
          rw [hReply] at hError
          cases hError
          rfl

/-- Attempts on a trace never abort. -/
theorem Round.Runs.abort_eq_none {canceled : Nat → Bool} {r : Round σ} {tried : List (Round σ)}
    (h : Round.Runs canceled t r tried o) (hWord : r.ceiling < 2 ^ 63) : o.abort = none := by
  induction h with
  | exhausted => rw [failed_abort, if_neg (by simp [CompileError.isInvariant])]
  | accepted => rfl
  | failed hCeiling hResult =>
      have hOther := (Round.attemptEnds canceled t hCeiling hWord).not_isInvariant hResult
      rw [failed_abort, hOther, if_neg Bool.false_ne_true]
  | again hCeiling _ _ _ ih => exact ih (Round.next_ceiling_word canceled t hCeiling hWord)

/-- No call for a trace aborts. -/
theorem TraceCall.abort_eq_none {ctx : Context} {tried : List (Round σ)}
    (h : c.TraceCall arena ctx t tried o) (hWord : c.settings.maxTraceInsns < 2 ^ 63) :
    o.abort = none := by
  cases h with
  | hit => rfl
  | miss _ hRuns => exact hRuns.abort_eq_none hWord

/-- What stops the build that a call for a method makes inside the span with number `parent`, if it
makes one. -/
def methodStop? (c : Compiler σ) (parent : Nat) (m : Method) : Option Stop :=
  match c.lookup.peek? ("method:" ++ m.ref), WorkUnit.new m with
  | none, .ok u => (c.methodUnit parent u).buildMethod.stop?
  | _, _ => none

/-- A call for a method reports what stopped its build, and nothing else. -/
theorem MethodCall.abort_isSome_iff {ctx : Context} {m : Method}
    (h : c.MethodCall arena ctx m o) :
    o.abort.isSome ↔ ∃ e, c.methodStop? ctx.span m = some (.failed (.invariant e)) := by
  unfold methodStop?
  cases h with
  | hit hFound =>
      rw [hFound]
      simp [served]
  | refused hMissing hNew =>
      rw [hMissing, hNew]
      simp [CompileError.isInvariant]
  | @unbuilt u h _ _ _ hMissing hNew hBuild =>
      rw [hMissing, hNew]
      simp only [failed_abort, CompileError.isInvariant_build, hBuild, Build.stop?,
        Option.some.injEq]
      rw [← Stop.isInvariant_iff]
      cases h.stop.isInvariant <;> simp
  | rejected hMissing hNew hBuild =>
      rw [hMissing, hNew]
      simp [CompileError.isInvariant, hBuild, Build.stop?]
  | accepted hMissing hNew hBuild =>
      rw [hMissing, hNew]
      simp [succeeded, hBuild, Build.stop?]

/-- A report of a broken invariant comes from the build, before the backend is entered. -/
theorem MethodCall.of_abort {ctx : Context} {m : Method} (h : c.MethodCall arena ctx m o)
    (hAbort : o.abort.isSome) :
    o.compiler.state = c.state ∧ o.result.phases = [⟨"build", ""⟩] := by
  cases h with
  | hit => cases hAbort
  | refused => simp [CompileError.isInvariant] at hAbort
  | unbuilt =>
      rw [failed_state, failed_result]
      exact ⟨rfl, rfl⟩
  | rejected => simp [CompileError.isInvariant] at hAbort
  | accepted => cases hAbort

/-- Builders and validator agree. What is built from a fresh unit keeps all rules. Hence no call for
a trace reports a broken invariant; and a call for a method does so exactly if this is what its
build stopped with, in which case the backend is not entered. -/
theorem abort_only_by_buildMethod :
    (∀ (u v : WorkUnit) (t : Trace) (ceiling : Int64), u.Fresh → u.trace = some t →
      u.buildTrace ceiling.toInt = .ok v → v.invalid? = none) ∧
    (∀ u v : WorkUnit, u.Fresh → u.trace = none → u.buildMethod = .ok v → v.invalid? = none) ∧
    ∀ (σ : Type) (c : Compiler σ) (arena : Arena), c.settings.maxTraceInsns < 2 ^ 63 →
      (∀ (ctx : Context) (t : Trace), (c.compileTrace arena ctx t).abort = none) ∧
      ∀ (ctx : Context) (m : Method),
        ((c.compileMethod arena ctx m).abort.isSome ↔
          ∃ e, c.methodStop? ctx.span m = some (.failed (.invariant e))) ∧
        ((c.compileMethod arena ctx m).abort.isSome →
          (c.compileMethod arena ctx m).compiler.state = c.state ∧
          (c.compileMethod arena ctx m).result.phases = [⟨"build", ""⟩]) := by
  refine ⟨?_, ?_, ?_⟩
  · intro u v t ceiling hFresh _ hBuild
    exact hFresh.valid_of_buildTrace hBuild
  · intro u v hFresh hTrace hBuild
    exact hFresh.valid_of_buildMethod hTrace hBuild
  · intro σ c arena hWord
    refine ⟨fun ctx t => ?_, fun ctx m => ?_⟩
    · obtain ⟨tried, hCall⟩ := traceCall_compileTrace arena ctx t hWord
      exact hCall.abort_eq_none hWord
    · have hCall := c.methodCall_compileMethod arena ctx m
      exact ⟨hCall.abort_isSome_iff, hCall.of_abort⟩

/-- A branch into the inside of the instruction behind it. -/
def strayMethod : Method :=
  { owner := none, name := "stray", native := false, slot := 0, addr := 0, linkage := .empty
    code := #[0x0228, 0x00d8, 0x0000, 0x000e] }

/-- A trace and a method that can be built, and a method whose branch goes astray. -/
theorem abort_only_by_buildMethod_stray :
    (∃ v, (WorkUnit.loose WorkUnit.loopCode (some WorkUnit.loopTrace)).buildTrace 3 = .ok v ∧
      v.invalid? = none) ∧
    (∃ v, (WorkUnit.loose WorkUnit.loopCode none).buildMethod = .ok v ∧ v.invalid? = none) ∧
    (idle.compileTrace {} {} WorkUnit.loopTrace).abort = none ∧
    (idle.compileMethod {} {} strayMethod).abort.isSome ∧
    (idle.compileMethod {} {} strayMethod).result.phases = [⟨"build", ""⟩] := by
  obtain ⟨hTraces, hMethods, hCalls⟩ := abort_only_by_buildMethod
  obtain ⟨hTraceCalls, hMethodCalls⟩ := hCalls Assembler idle {} (by decide)
  obtain ⟨hReported, hBuild⟩ := hMethodCalls {} strayMethod
  have hStray : ∃ e, idle.methodStop? 0 strayMethod = some (.failed (.invariant e)) :=
    ⟨.split "stray" 3 2, by decide +kernel⟩
  refine ⟨?_, ?_, hTraceCalls _ _, hReported.mpr hStray, (hBuild (hReported.mpr hStray)).2⟩
  · obtain ⟨v, _, hBuilt, _⟩ := WorkUnit.buildTrace_ok
      (WorkUnit.fresh_loose _ (some WorkUnit.loopTrace)) rfl (by decide) (by decide) (by decide)
      (by decide) WorkUnit.fits_loopTrace
    exact ⟨v, hBuilt, hTraces _ v _ 3 (WorkUnit.fresh_loose ..) rfl hBuilt⟩
  · obtain ⟨v, hBuilt⟩ := Build.stop?_eq_none_iff.mp
      ((WorkUnit.stop?_eq_iff_methodVerdict (WorkUnit.fresh_loose ..) (by decide) none).mpr
        ((WorkUnit.methodVerdict_none_iff (by decide)).mpr WorkUnit.wellFormed_loop))
    exact ⟨v, hBuilt, hMethods _ v (WorkUnit.fresh_loose ..) rfl hBuilt⟩

end Compiler

end TraceJit
