import TraceJit.Proofs.Compiler.Abort
import TraceJit.Proofs.Compiler.Counters
import TraceJit.Proofs.Compiler.Crew

/-!
The books of a compiler into the code cache. A call is counted as served, or as a trace or a method
that is installed or fails, and its attempts are counted by how they come out. So the counters
balance after any sequence of calls.
-/

namespace TraceJit

namespace Request

def hasUnit : Request → Bool
  | .trace t => (WorkUnit.new t.method).isOk
  | .method m => (WorkUnit.new m).isOk
  | .noTrace _ => false
  | .noMethod => false

def isNative : Request → Bool
  | .trace t => t.method.native
  | .method m => m.native
  | .noTrace _ => false
  | .noMethod => false

theorem hasUnit_of_isNative {r : Request} (hNative : r.isNative = true) : r.hasUnit = false := by
  have hNone : ∀ {m : Method}, m.native = true → (WorkUnit.new m).isOk = false := by
    intro m hMethod
    rw [WorkUnit.new, if_pos hMethod]
    rfl
  cases r with
  | trace t => exact hNone hNative
  | method m => exact hNone hNative
  | noTrace => rfl
  | noMethod => rfl

end Request

namespace Compiled

variable {σ : Type}

/-- How a call came out, if it made one attempt. -/
def verdict (o : Compiled σ) : Verdict :=
  match o.error with
  | some e => .error e
  | none => .ok o.result.fragment

def adds (o : Compiled σ) : Nat := if o.error.isNone && !o.result.cached then 1 else 0

end Compiled

structure CallRecord where
  call : Call
  verdicts : List Verdict

namespace CallRecord

/-- Attempts whose unit could be made. -/
def units (e : CallRecord) : Nat := if e.call.request.hasUnit then e.verdicts.length else 0

/-- Attempts at a trace that were rejected for their size. -/
def rejected (e : CallRecord) : Nat :=
  match e.call.request with
  | .trace _ => rejections e.verdicts
  | _ => 0

end CallRecord

namespace Compiler

section Calls

variable {σ : Type} {c : Compiler σ} {k : Call} {e : CallRecord} {o : Compiled σ}

/-- How the attempts of a call come out. A trace is attempted at one ceiling after the other, a
method once, and nothing that is found under its key. -/
inductive Tries (c : Compiler σ) (k : Call) : List Verdict → Prop where
  | trace {t : Trace} {tried : List (Round σ)} (hRequest : k.request = .trace t)
      (hCall : c.TraceCall k.arena k.context t tried (c.answer k)) :
      Tries c k (Round.verdicts k.context.canceled t tried)
  | method {m : Method} (hRequest : k.request = .method m) :
      Tries c k (if (c.answer k).result.cached then [] else [(c.answer k).verdict])

/-- Every call with a key ends in some row of verdicts. -/
theorem exists_tries (hWord : c.settings.maxTraceInsns < 2 ^ 63) (hKey : k.request.key? ≠ none) :
    ∃ verdicts, c.Tries k verdicts := by
  cases hRequest : k.request with
  | trace t =>
      have hAnswer : c.compileTrace k.arena k.context t = c.answer k := by
        rw [answer, hRequest]
        rfl
      obtain ⟨tried, hCall⟩ := traceCall_compileTrace k.arena k.context t hWord
      exact ⟨_, .trace hRequest (hAnswer ▸ hCall)⟩
  | method m => exact ⟨_, .method hRequest⟩
  | noTrace => exact absurd (by rw [hRequest]; rfl) hKey
  | noMethod => exact absurd (by rw [hRequest]; rfl) hKey

/-- What a call adds to the counters. -/
inductive Paid (c : Compiler σ) (e : CallRecord) (o : Compiled σ) : Prop where
  | hit (hCached : o.result.cached = true) (hNone : e.verdicts = [])
      (hCounters : o.compiler.counters = c.counters.plus { hits := 1 })
  | worked (traces methods : Nat) (hOne : traces + methods = 1)
      (hUncached : o.result.cached = false)
      (hCounters : o.compiler.counters = c.counters.plus
        { endBill o with
          units := e.units, traces, methods, retries := e.rejected, tooLarge := e.rejected })

/-- A call for a trace is billed by its verdicts. -/
theorem TraceCall.paid {t : Trace} {tried : List (Round σ)}
    (h : c.TraceCall k.arena k.context t tried o) (hRequest : k.request = .trace t)
    (hWord : c.settings.maxTraceInsns < 2 ^ 63) :
    c.Paid ⟨k, Round.verdicts k.context.canceled t tried⟩ o := by
  cases h with
  | hit => exact .hit rfl rfl rfl
  | miss _ hRuns =>
      refine .worked 1 0 rfl hRuns.result_eq.2.2 ?_
      rw [hRuns.counters_eq hWord]
      simp [loopBill, Counters.plus, firstRound, traceOpened, beginSpan, count, CallRecord.units,
        CallRecord.rejected, hRequest, Request.hasUnit, endBill]

/-- A call for a method that is not found under its key pays for itself, for its unit and for its
end. -/
theorem paid_of_method {m : Method} (hRequest : k.request = .method m)
    (hUncached : o.result.cached = false)
    (hCounters : o.compiler.counters =
      (c.counters.plus { methods := 1, units := if (WorkUnit.new m).isOk then 1 else 0 }).plus
        (endBill o)) : c.Paid ⟨k, if o.result.cached then [] else [o.verdict]⟩ o := by
  refine .worked 0 1 rfl hUncached ?_
  rw [hCounters, Counters.plus_assoc]
  simp [Counters.plus, CallRecord.units, CallRecord.rejected, hRequest, Request.hasUnit, hUncached,
    endBill]

/-- A call for a method is billed by its verdict, unless it was served from the lookup cache. -/
theorem MethodCall.paid {m : Method} (h : c.MethodCall k.arena k.context m o)
    (hRequest : k.request = .method m) :
    c.Paid ⟨k, if o.result.cached then [] else [o.verdict]⟩ o := by
  cases h with
  | hit => exact .hit rfl rfl rfl
  | refused _ hNew =>
      refine paid_of_method hRequest (by simp [methodResult]) ?_
      rw [failed_counters, hNew]
      rfl
  | unbuilt _ hNew =>
      refine paid_of_method hRequest (by simp [methodResult]) ?_
      rw [failed_counters, hNew]
      rfl
  | rejected _ hNew =>
      refine paid_of_method hRequest (by simp [methodResult]) ?_
      rw [failed_counters, hNew]
      rfl
  | accepted _ hNew =>
      refine paid_of_method hRequest rfl ?_
      rw [succeeded_counters, hNew]
      rfl

/-- Every call is billed by its verdicts. -/
theorem Tries.paid {verdicts : List Verdict} (h : c.Tries k verdicts)
    (hWord : c.settings.maxTraceInsns < 2 ^ 63) : c.Paid ⟨k, verdicts⟩ (c.answer k) := by
  cases h with
  | trace hRequest hCall => exact hCall.paid hRequest hWord
  | @method m hRequest =>
      have hCall : c.MethodCall k.arena k.context m (c.answer k) := by
        rw [answer, hRequest]
        exact c.methodCall_compileMethod k.arena k.context m
      exact hCall.paid hRequest

/-! ### What is paid -/

/-- A call that is not served is installed or fails, and never both. -/
theorem endBill_ends (o : Compiled σ) : (endBill o).installed + (endBill o).failures = 1 := by
  cases hError : o.error <;> simp [endBill, hError]

theorem endBill_aborts_le (o : Compiled σ) : (endBill o).aborts ≤ (endBill o).failures := by
  cases hError : o.error with
  | none => simp [endBill, hError]
  | some e => cases hInvariant : e.isInvariant <;> simp [endBill, hError, hInvariant]

/-- A call counts once among the calls. -/
theorem Paid.calls_eq (h : c.Paid e o) :
    o.compiler.counters.traces + o.compiler.counters.methods + o.compiler.counters.hits =
      c.counters.traces + c.counters.methods + c.counters.hits + 1 := by
  cases h with
  | hit _ _ hCounters => simp [hCounters, Nat.add_assoc]
  | worked _ _ hOne _ hCounters =>
      simp only [hCounters, Counters.plus, endBill]
      omega

/-- Programs that were too large are counted as they come. -/
theorem Paid.tooLarge_eq (h : c.Paid e o) :
    o.compiler.counters.tooLarge = c.counters.tooLarge + e.rejected := by
  cases h with
  | hit _ hNone hCounters =>
      have hZero : e.rejected = 0 := by
        unfold CallRecord.rejected
        split <;> simp [hNone, rejections]
      simp [hCounters, hZero]
  | worked _ _ _ _ hCounters => simp [hCounters]

/-- Units are counted as they are made. -/
theorem Paid.units_eq (h : c.Paid e o) :
    o.compiler.counters.units = c.counters.units + e.units := by
  cases h with
  | hit _ hNone hCounters => simp [hCounters, CallRecord.units, hNone]
  | worked _ _ _ _ hCounters => simp [hCounters]

theorem Paid.installed_eq (h : c.Paid e o) :
    o.compiler.counters.installed = c.counters.installed + o.adds := by
  cases h with
  | hit hCached _ hCounters => simp [hCounters, Compiled.adds, hCached]
  | worked _ _ _ hUncached hCounters =>
      rw [hCounters]
      cases hError : o.error <;> simp [Compiled.adds, endBill, hError, hUncached]

end Calls

/-! ### The code cache and the lookup cache -/

section Assembled

variable {c : Compiler Assembler} {o : Compiled Assembler} {key : String}

/-- The code cache grows by what a call adds. -/
theorem Effect.count_eq (h : Effect c.state c.lookup key o) :
    o.compiler.state.cache.count = c.state.cache.count + o.adds := by
  cases h with
  | failed hError hState => simp [hState, Compiled.adds, hError]
  | installed _ hError hUncached _ hAssemble =>
      obtain ⟨_, _, hCache⟩ := CodeCache.install_ok (Assembler.assemble_ok hAssemble).1
      simp [hCache, Compiled.adds, hError, hUncached]
  | served _ _ hCached _ _ hState => simp [hState, Compiled.adds, hCached]

/-- The lookup cache grows by no more than that. -/
theorem Effect.size_le (h : Effect c.state c.lookup key o) :
    o.compiler.lookup.size ≤ c.lookup.size + o.adds := by
  cases h with
  | failed _ _ hLookup =>
      rw [hLookup]
      exact Nat.le_add_right ..
  | installed _ hError hUncached _ _ _ hLookup =>
      have hAdds : o.adds = 1 := by simp [Compiled.adds, hError, hUncached]
      rw [hLookup, hAdds]
      exact LookupCache.size_insert_le ..
  | served _ _ _ _ _ _ hLookup =>
      rw [hLookup]
      exact Nat.le_add_right_of_le (LookupCache.size_touch_le ..)

/-- What calls keep of the compiler that they begin with. -/
structure Stocked (settings : Settings) (c : Compiler Assembler) : Prop where
  backend : c.backend = Assembler.compile
  settings_eq : c.settings = settings
  sound : c.lookup.Sound
  capacity : (c.lookup.capacity : Int) = settings.lookupCacheSize

theorem stocked_new {settings : Settings} {assembler : Assembler} {tracer : Tracer}
    (hNew : Compiler.new settings (some Assembler.compile) assembler tracer = .ok c) :
    c.Stocked settings := by
  obtain ⟨hValid, rfl⟩ := new_ok hNew
  have hPos := (Settings.pos_of_valid hValid).2
  exact ⟨rfl, rfl, LookupCache.sound_new (Int.pos_iff_toNat_pos.mp hPos),
    Int.toNat_of_nonneg (Int.le_of_lt hPos)⟩

/-- No call changes any of that. -/
theorem Stocked.answer {settings : Settings} (h : c.Stocked settings) {k : Call}
    (hWord : c.settings.maxTraceInsns < 2 ^ 63)
    (hEffect : Effect c.state c.lookup key (c.answer k)) :
    (c.answer k).compiler.Stocked settings := by
  obtain ⟨hBackend, hSettings⟩ := kept_answer hWord k
  generalize c.answer k = o at hEffect hBackend hSettings
  have hLookup : o.compiler.lookup.Sound ∧ o.compiler.lookup.capacity = c.lookup.capacity := by
    cases hEffect with
    | failed _ _ hLookup =>
        rw [hLookup]
        exact ⟨h.sound, rfl⟩
    | installed _ _ _ _ _ _ hLookup =>
        rw [hLookup]
        exact ⟨h.sound.insert .., LookupCache.capacity_insert ..⟩
    | served _ _ _ _ _ _ hLookup =>
        rw [hLookup]
        exact ⟨h.sound.touch key, LookupCache.capacity_touch ..⟩
  exact ⟨hBackend.trans h.backend, hSettings.trans h.settings_eq, hLookup.1,
    hLookup.2 ▸ h.capacity⟩

/-! ### Sequences of calls -/

/-- The calls of a log are made one after the other, and their attempts come out as it says. -/
inductive Logs (c : Compiler Assembler) : List CallRecord → Prop where
  | nil : Logs c []
  | concat {log : List CallRecord} {e : CallRecord} (hLog : Logs c log)
      (hTries : (c.afterCalls (log.map (·.call))).Tries e.call e.verdicts) : Logs c (log ++ [e])

/-- The counters account for the calls of a log, for their attempts, and for what is in the two
caches. -/
structure Balanced (c : Compiler Assembler) (log : List CallRecord) : Prop where
  calls : c.counters.traces + c.counters.methods + c.counters.hits = log.length
  ends : c.counters.traces + c.counters.methods = c.counters.installed + c.counters.failures
  installed : c.counters.installed = c.state.cache.count
  tooLarge : c.counters.tooLarge = (log.map CallRecord.rejected).sum
  units : c.counters.units = (log.map CallRecord.units).sum
  native : ∀ e ∈ log, e.call.request.isNative = true → e.units = 0
  aborts : c.counters.aborts ≤ c.counters.failures
  cached : (c.lookup.size : Int) ≤ min (c.counters.installed : Int) c.settings.lookupCacheSize

/-- A call keeps the balance, with one record more in the log. -/
theorem Balanced.concat {log : List CallRecord} (h : c.Balanced log) {e : CallRecord}
    {settings : Settings} (hPaid : c.Paid e o) (hEffect : Effect c.state c.lookup key o)
    (hStocked : o.compiler.Stocked settings) : o.compiler.Balanced (log ++ [e]) := by
  have hInstalled := hPaid.installed_eq
  refine ⟨?_, ?_, ?_, ?_, ?_, ?_, ?_, ?_⟩
  · rw [hPaid.calls_eq, h.calls, List.length_append, List.length_singleton]
  · have hEnds := h.ends
    cases hPaid with
    | hit _ _ hCounters => simpa [hCounters] using hEnds
    | worked _ _ hOne _ hCounters =>
        have hEnd := endBill_ends o
        simp only [hCounters, Counters.plus]
        omega
  · rw [hInstalled, hEffect.count_eq, h.installed]
  · rw [hPaid.tooLarge_eq, h.tooLarge, List.map_append, List.sum_append, List.map_singleton,
      List.sum_singleton]
  · rw [hPaid.units_eq, h.units, List.map_append, List.sum_append, List.map_singleton,
      List.sum_singleton]
  · intro x _ hNative
    simp [CallRecord.units, Request.hasUnit_of_isNative hNative]
  · have hAborts := h.aborts
    cases hPaid with
    | hit _ _ hCounters => simpa [hCounters] using hAborts
    | worked _ _ _ _ hCounters =>
        have hEnd := endBill_aborts_le o
        simp only [hCounters, Counters.plus]
        omega
  · -- One entry at most for one more fragment, and never more entries than there is room for.
    have hCached := h.cached
    have hSize := hEffect.size_le
    have hFits : o.compiler.lookup.size ≤ o.compiler.lookup.capacity := hStocked.sound.fits
    have hRoom := hStocked.capacity
    rw [hStocked.settings_eq]
    omega

/-- The books balance after any calls, given that they did before. -/
theorem exists_balanced {settings : Settings} (hWord : settings.maxTraceInsns < 2 ^ 63)
    (hStocked : c.Stocked settings) (hBalanced : c.Balanced []) (calls : List Call)
    (hKeys : ∀ k ∈ calls, k.request.key? ≠ none) :
    (c.afterCalls calls).Stocked settings ∧
      ∃ log, log.map (·.call) = calls ∧ c.Logs log ∧ (c.afterCalls calls).Balanced log := by
  induction calls using List.reverseRecOn with
  | nil => exact ⟨hStocked, [], rfl, .nil, hBalanced⟩
  | append_singleton calls k ih =>
      obtain ⟨hBefore, log, hLog, hLogs, hBooks⟩ := ih fun i hi => hKeys i (by simp [hi])
      have hKey : k.request.key? ≠ none := hKeys k (by simp)
      have hWord' : (c.afterCalls calls).settings.maxTraceInsns < 2 ^ 63 := by
        rwa [hBefore.settings_eq]
      obtain ⟨key, hKey'⟩ := Option.ne_none_iff_exists'.mp hKey
      obtain ⟨verdicts, hTries⟩ := exists_tries hWord' hKey
      have hEffect := effect_compile hBefore.backend hWord' k.arena k.context hKey'
      have hAfter := hBefore.answer hWord' hEffect
      rw [afterCalls_concat]
      refine ⟨hAfter, log ++ [⟨k, verdicts⟩], by simp [hLog], .concat hLogs ?_, ?_⟩
      · rwa [hLog]
      · exact hBooks.concat (hTries.paid hWord') hEffect hAfter

/-- The counters account for every call. A compiler into an empty code cache is given any calls,
each for a trace or for a method; then the calls can be written down with their attempts so that the
books balance. -/
theorem afterCalls_balanced {settings : Settings} (hWord : settings.maxTraceInsns < 2 ^ 63)
    {assembler : Assembler} (hEmpty : assembler.cache.count = 0) {tracer : Tracer}
    (hNew : Compiler.new settings (some Assembler.compile) assembler tracer = .ok c)
    (calls : List Call) (hKeys : ∀ k ∈ calls, k.request.key? ≠ none) :
    ∃ log, log.map (·.call) = calls ∧ c.Logs log ∧ (c.afterCalls calls).Balanced log := by
  have hStocked := stocked_new hNew
  refine (exists_balanced hWord hStocked ?_ calls hKeys).2
  have hRoom := hStocked.capacity
  obtain ⟨_, rfl⟩ := new_ok hNew
  refine ⟨rfl, rfl, hEmpty.symm, rfl, rfl, by simp, Nat.le_refl _, ?_⟩
  simp only [LookupCache.size, LookupCache.new, List.length_nil] at hRoom ⊢
  omega

end Assembled

/-- A trace that is accepted at the second attempt, the same again, a method that breaks an
invariant, and a native method. -/
def mixedCalls : List Call :=
  [{ request := .trace WorkUnit.loopTrace }, { request := .trace WorkUnit.loopTrace },
    { request := .method strayMethod }, { request := .method { strayMethod with native := true } }]

/-- The books of such calls. -/
theorem afterCalls_balanced_lone :
    (Crew.lone.compiler.afterCalls mixedCalls).counters =
      { units := 3, traces := 1, methods := 2, retries := 1, hits := 1, failures := 2,
        tooLarge := 1, aborts := 1, installed := 1 } ∧
    ∃ log, log.map (·.call) = mixedCalls ∧ Crew.lone.compiler.Logs log ∧
      (Crew.lone.compiler.afterCalls mixedCalls).Balanced log := by
  have hKeys : ∀ k ∈ mixedCalls, k.request.key? ≠ none := by simp [mixedCalls, Request.key?]
  exact ⟨by decide +kernel, afterCalls_balanced (by decide) rfl Crew.new_lone mixedCalls hKeys⟩

end Compiler

end TraceJit
