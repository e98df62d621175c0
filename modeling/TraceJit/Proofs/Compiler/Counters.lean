import Mathlib.Tactic.Simps.Basic
import TraceJit.Proofs.Compiler.History
import TraceJit.Proofs.Compiler.Retry

/-!
What a loop over ceilings adds to the counters, given how its attempts come out. A retry is counted
whenever an attempt is rejected for its size, also when no other attempt follows, so a call that
gives up counts one more than it makes.
-/

namespace TraceJit

namespace Counters

@[simps] def plus (a b : Counters) : Counters where
  units := a.units + b.units
  traces := a.traces + b.traces
  methods := a.methods + b.methods
  retries := a.retries + b.retries
  hits := a.hits + b.hits
  failures := a.failures + b.failures
  tooLarge := a.tooLarge + b.tooLarge
  aborts := a.aborts + b.aborts
  installed := a.installed + b.installed

theorem plus_assoc (a b d : Counters) : (a.plus b).plus d = a.plus (b.plus d) := by
  simp only [plus, Nat.add_assoc]

end Counters

abbrev Verdict := Except CompileError Fragment

/-- The attempt is rejected for the size of its code. -/
def Verdict.isTooLarge : Verdict → Bool
  | .error e => e.isTooLarge
  | .ok _ => false

def rejections (verdicts : List Verdict) : Nat := verdicts.countP Verdict.isTooLarge

def Compiled.GaveUp {σ : Type} (o : Compiled σ) : Prop := ∃ key, o.error = some (.traceTooLarge key)

namespace Compiler

variable {σ : Type}

/-- The end of a loop or of a call, as it is counted. -/
def endBill (o : Compiled σ) : Counters where
  failures := if o.error.isSome then 1 else 0
  aborts := if o.error.any CompileError.isInvariant then 1 else 0
  installed := if o.error.isSome then 0 else 1

/-- A failure is billed where the call ends. -/
theorem failed_counters (c : Compiler σ) (arena : Arena) (result : CompileResult)
    (e : CompileError) (detail : String) (span : Span) :
    (c.failed arena result e detail span).compiler.counters =
      c.counters.plus (endBill (c.failed arena result e detail span)) := by
  simp only [endBill, failed_error, Option.any_some]
  unfold failed
  cases e.isInvariant with
  | true => rfl
  | false => rfl

/-- So is a success. -/
theorem succeeded_counters (c : Compiler σ) (arena : Arena) (result : CompileResult)
    (span : Span) :
    (c.succeeded arena result span).compiler.counters =
      c.counters.plus (endBill (c.succeeded arena result span)) := rfl

/-- The rounds of a loop over ceilings and its end, as they are counted. -/
def loopBill (hasUnit : Bool) (verdicts : List Verdict) (o : Compiled σ) : Counters :=
  { endBill o with
    units := if hasUnit then verdicts.length else 0
    retries := rejections verdicts
    tooLarge := rejections verdicts }

/-- An attempt counts the unit it makes and nothing else. -/
theorem AttemptEnds.counters_eq {c : Compiler σ} {arena : Arena} {canceled : Bool} {t : Trace}
    {ceiling : Int} {parent : Nat} {a : Attempt σ}
    (h : c.AttemptEnds arena canceled t ceiling parent a) :
    a.compiler.counters =
      c.counters.plus { units := if (WorkUnit.new t.method).isOk then 1 else 0 } := by
  cases h with
  | refused hNew hCompiler =>
      rw [hCompiler, hNew]
      rfl
  | unbuilt hNew _ _ _ hCompiler =>
      rw [hCompiler, hNew]
      rfl
  | replied hNew _ _ _ _ hCompiler =>
      rw [hCompiler, hNew]
      rfl

namespace Round

variable (canceled : Nat → Bool) (t : Trace)

/-- How the attempts of some rounds come out. -/
def verdicts (tried : List (Round σ)) : List Verdict :=
  tried.map fun r => (r.attempt canceled t).result

/-- Whatever comes next, this attempt is counted as one to be repeated. -/
theorem next_counters (r : Round σ) :
    (r.next canceled t).compiler.counters =
      (r.attempt canceled t).compiler.counters.plus { tooLarge := 1, retries := 1 } := rfl

variable {canceled t} {r : Round σ} {tried : List (Round σ)} {o : Compiled σ}

/-- A loop counts its units, its rejected attempts twice, and its end. -/
theorem Runs.counters_eq (h : Runs canceled t r tried o) (hWord : r.ceiling < 2 ^ 63) :
    o.compiler.counters = r.compiler.counters.plus
      (loopBill (WorkUnit.new t.method).isOk (verdicts canceled t tried) o) := by
  induction h with
  | exhausted =>
      rw [failed_counters]
      simp [loopBill, verdicts, rejections, endBill, Counters.plus]
  | accepted hCeiling hResult =>
      have hAttempt := (attemptEnds canceled t hCeiling hWord).counters_eq
      rw [succeeded_counters, hAttempt, Counters.plus_assoc]
      simp [loopBill, verdicts, rejections, endBill, Counters.plus, hResult, Verdict.isTooLarge]
  | failed hCeiling hResult hOther =>
      have hAttempt := (attemptEnds canceled t hCeiling hWord).counters_eq
      rw [failed_counters, hAttempt, Counters.plus_assoc]
      simp [loopBill, verdicts, rejections, endBill, Counters.plus, hResult, Verdict.isTooLarge,
        hOther]
  | again hCeiling hResult hLarge _ ih =>
      have hAttempt := (attemptEnds canceled t hCeiling hWord).counters_eq
      rw [ih (next_ceiling_word canceled t hCeiling hWord), next_counters, hAttempt,
        Counters.plus_assoc, Counters.plus_assoc]
      simp only [loopBill, verdicts, rejections, endBill, Counters.plus, List.map_cons, hResult,
        List.countP_cons, Verdict.isTooLarge, hLarge, List.length_cons]
      cases (WorkUnit.new t.method).isOk with
      | true => simp; omega
      | false => simp; omega

/-- All attempts of a loop that gives up are rejected, and all but the last of any other. -/
theorem Runs.rejections_cases (h : Runs canceled t r tried o) (hWord : r.ceiling < 2 ^ 63) :
    (o.GaveUp ∧ rejections (verdicts canceled t tried) = tried.length) ∨
      (¬o.GaveUp ∧ rejections (verdicts canceled t tried) + 1 = tried.length) := by
  induction h with
  | exhausted => exact .inl ⟨⟨_, failed_error ..⟩, rfl⟩
  | accepted _ hResult =>
      refine .inr ⟨?_, ?_⟩
      · rintro ⟨_, hError⟩
        cases hError
      · simp [rejections, verdicts, hResult, Verdict.isTooLarge]
  | failed hCeiling hResult hOther =>
      refine .inr ⟨?_, ?_⟩
      · rintro ⟨key, hError⟩
        rw [failed_error] at hError
        exact ne_traceTooLarge hCeiling hWord hResult (Option.some.inj hError)
      · simp [rejections, verdicts, hResult, Verdict.isTooLarge, hOther]
  | @again r _ rest _ hCeiling hResult hLarge _ ih =>
      have hOneMore : rejections (verdicts canceled t (r :: rest)) =
          rejections (verdicts canceled t rest) + 1 := by
        simp [rejections, verdicts, hResult, Verdict.isTooLarge, hLarge]
      rw [hOneMore, List.length_cons]
      rcases ih (next_ceiling_word canceled t hCeiling hWord) with ⟨hUp, hAll⟩ | ⟨hNot, hButOne⟩
      · exact .inl ⟨hUp, congrArg (· + 1) hAll⟩
      · exact .inr ⟨hNot, congrArg (· + 1) hButOne⟩

end Round

/-! ### Retries -/

/-- How the count of retries goes up from `before` in a call that makes attempts. It is off by one
exactly if the call gives up. -/
structure CountsRetries (before : Nat) (o : Compiled σ) : Prop where
  attempted : o.result.ceilings ≠ []
  exact_iff : o.compiler.counters.retries = before + (o.result.ceilings.length - 1) ↔ ¬o.GaveUp
  excess : o.GaveUp → o.compiler.counters.retries = before + o.result.ceilings.length

/-- A row of attempts counts its retries, and one too many where it gives up. -/
theorem Round.Runs.countsRetries {canceled : Nat → Bool} {t : Trace} {r : Round σ}
    {tried : List (Round σ)} {o : Compiled σ} (h : Round.Runs canceled t r tried o)
    (hPos : 0 < r.ceiling) (hWord : r.ceiling < 2 ^ 63) (hFirst : r.result.ceilings = []) :
    CountsRetries r.compiler.counters.retries o := by
  have hLength : o.result.ceilings.length = tried.length := by
    rw [h.result_eq.1, hFirst, List.nil_append, List.length_map]
  have hRetries : o.compiler.counters.retries =
      r.compiler.counters.retries + rejections (verdicts canceled t tried) := by
    rw [h.counters_eq hWord]
    rfl
  have hTried : 0 < tried.length := by
    obtain ⟨rest, rfl⟩ := h.exists_cons hPos
    exact Nat.succ_pos _
  have hSome : o.result.ceilings ≠ [] := List.ne_nil_of_length_pos (by omega)
  rcases h.rejections_cases hWord with ⟨hUp, hAll⟩ | ⟨hNot, hButOne⟩
  · exact ⟨hSome, iff_of_false (by omega) (not_not_intro hUp), fun _ => by omega⟩
  · exact ⟨hSome, iff_of_true (by omega) hNot, fun hUp => absurd hUp hNot⟩

/-- A call for a trace that is not found under its key counts every attempt after the first as a
retry, and one retry more if the call gives up. -/
theorem compileTrace_retries (c : Compiler σ) (hValid : c.settings.invalid? = none)
    (hWord : c.settings.maxTraceInsns < 2 ^ 63) (arena : Arena) (ctx : Context)
    (t : Trace) (hMissing : c.lookup.peek? t.key = none) :
    CountsRetries c.counters.retries (c.compileTrace arena ctx t) := by
  obtain ⟨tried, hCall⟩ := traceCall_compileTrace arena ctx t hWord
  generalize c.compileTrace arena ctx t = o at hCall
  cases hCall with
  | hit hFound => cases hMissing.symm.trans hFound
  | miss _ hRuns => exact hRuns.countsRetries (Settings.pos_of_valid hValid).1 hWord rfl

/-- A trace whose second ceiling is good enough. -/
theorem compileTrace_retries_idle :
    (idle.compileTrace {} {} WorkUnit.loopTrace).result.ceilings = [100, 1] ∧
    (idle.compileTrace {} {} WorkUnit.loopTrace).error = none ∧
    (idle.compileTrace {} {} WorkUnit.loopTrace).compiler.counters.retries = 1 := by
  have hEnd :
      (idle.compileTrace {} {} WorkUnit.loopTrace).result.ceilings = [100, 1] ∧
      (idle.compileTrace {} {} WorkUnit.loopTrace).error = none := by
    decide +kernel
  have hCounts :=
    compileTrace_retries idle rfl (by decide) {} {} WorkUnit.loopTrace rfl
  refine ⟨hEnd.1, hEnd.2, ?_⟩
  have hExact := hCounts.exact_iff.mpr (by simp [Compiled.GaveUp, hEnd.2])
  rwa [hEnd.1] at hExact

/-- A compiler whose budget has room for the header of a fragment and no instruction. -/
def cramped : Compiler Assembler :=
  { idle with
    settings := { lookupCacheSize := 2, maxFragmentBytes := 9 }
    state := .new (.empty 0x1000 64) 9 }

/-- Two attempts are made, one of them after the first, and two retries are counted. -/
theorem retries_excess_cramped :
    Compiler.new cramped.settings (some Assembler.compile) cramped.state .nop = .ok cramped ∧
    cramped.lookup.peek? WorkUnit.loopTrace.key = none ∧
    (cramped.compileTrace {} {} WorkUnit.loopTrace).error =
      some (.traceTooLarge WorkUnit.loopTrace.key) ∧
    (cramped.compileTrace {} {} WorkUnit.loopTrace).result.ceilings = [100, 1] ∧
    (cramped.compileTrace {} {} WorkUnit.loopTrace).compiler.counters.retries = 2 ∧
    ¬(cramped.compileTrace {} {} WorkUnit.loopTrace).compiler.counters.retries =
      cramped.counters.retries + ((cramped.compileTrace {} {}
        WorkUnit.loopTrace).result.ceilings.length - 1) := by
  refine ⟨rfl, rfl, ?_⟩
  decide +kernel

end Compiler

end TraceJit
