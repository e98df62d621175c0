import TraceJit.Proofs.Compiler.Atomic

/-!
Calls one after the other, with any backend. A call files a fragment under its key if it installs
one, and only then; so whatever is found under a key was installed by an earlier call under the same
key.
-/

namespace TraceJit

/-- A call by some worker: what it asks for, the worker's arena, and what the caller hands down. -/
structure Call where
  request : Request
  arena : Arena := {}
  context : Context := {}

namespace Compiler

variable {σ : Type}

def answer (c : Compiler σ) (k : Call) : Compiled σ := c.compile k.arena k.context k.request

def afterCalls (c : Compiler σ) (calls : List Call) : Compiler σ :=
  calls.foldl (fun c k => (c.answer k).compiler) c

@[simp] theorem afterCalls_nil (c : Compiler σ) : c.afterCalls [] = c := by
  simp [afterCalls]

@[simp] theorem afterCalls_concat (c : Compiler σ) (calls : List Call) (k : Call) :
    c.afterCalls (calls ++ [k]) = ((c.afterCalls calls).answer k).compiler := by
  simp [afterCalls]

/-! ### What a call files -/

/-- The three ends of a call under a key, by what becomes of the lookup cache. -/
inductive Files (lookup : LookupCache) (key : String) (o : Compiled σ) : Prop where
  | nothing (hUncached : o.result.cached = false) (hLookup : o.compiler.lookup = lookup)
  | installed (hMissing : lookup.peek? key = none) (hError : o.error = none)
      (hUncached : o.result.cached = false)
      (hLookup : o.compiler.lookup = lookup.insert key o.result.fragment)
  | served {f : Fragment} (hFound : lookup.peek? key = some f) (hCached : o.result.cached = true)
      (hFragment : o.result.fragment = f) (hLookup : o.compiler.lookup = lookup.touch key)

/-- What a row of attempts files in the lookup cache. -/
theorem Round.Runs.files {canceled : Nat → Bool} {t : Trace} {r : Round σ}
    {tried : List (Round σ)} {o : Compiled σ} (h : Round.Runs canceled t r tried o)
    (hWord : r.ceiling < 2 ^ 63) (hMissing : r.compiler.lookup.peek? r.result.key = none)
    (hUncached : r.result.cached = false) : Files r.compiler.lookup r.result.key o := by
  induction h with
  | exhausted => exact .nothing (by simpa using hUncached) (failed_lookup ..)
  | accepted hCeiling =>
      have hKept := (Round.attemptEnds canceled t hCeiling hWord).kept.1
      refine .installed hMissing rfl hUncached ?_
      change LookupCache.insert (Compiler.lookup _) _ _ = _
      rw [hKept]
      rfl
  | failed hCeiling =>
      have hKept := (Round.attemptEnds canceled t hCeiling hWord).kept.1
      exact .nothing (by simpa [Round.noted] using hUncached) (by rw [failed_lookup, hKept])
  | @again r _ _ _ hCeiling _ _ _ ih =>
      have hLookup : (r.next canceled t).compiler.lookup = r.compiler.lookup :=
        (Round.attemptEnds canceled t hCeiling hWord).kept.1
      rw [← hLookup] at hMissing ⊢
      exact ih (Round.next_ceiling_word canceled t hCeiling hWord) hMissing hUncached

variable {c : Compiler σ} (hWord : c.settings.maxTraceInsns < 2 ^ 63) (arena : Arena)

include hWord in
/-- What a call for a trace files. -/
theorem files_compileTrace (ctx : Context) (t : Trace) :
    Files c.lookup t.key (c.compileTrace arena ctx t) := by
  obtain ⟨tried, hCall⟩ := traceCall_compileTrace arena ctx t hWord
  generalize c.compileTrace arena ctx t = o at hCall
  cases hCall with
  | hit hFound => exact .served hFound rfl rfl rfl
  | miss hMissing hRuns => exact hRuns.files hWord hMissing rfl

/-- What a call for a method files. -/
theorem files_compileMethod (ctx : Context) (m : Method) :
    Files c.lookup ("method:" ++ m.ref) (c.compileMethod arena ctx m) := by
  have hCall := c.methodCall_compileMethod arena ctx m
  generalize c.compileMethod arena ctx m = o at hCall
  cases hCall with
  | hit hFound => exact .served hFound rfl rfl rfl
  | refused => exact .nothing (by simp [methodResult]) (failed_lookup ..)
  | unbuilt => exact .nothing (by simp [methodResult]) (failed_lookup ..)
  | rejected => exact .nothing (by simp [methodResult]) (failed_lookup ..)
  | accepted hMissing => exact .installed hMissing rfl rfl rfl

include hWord in
theorem kept_answer (k : Call) :
    (c.answer k).compiler.backend = c.backend ∧ (c.answer k).compiler.settings = c.settings := by
  unfold answer
  cases k.request with
  | trace t => exact kept_compileTrace hWord k.arena k.context t
  | method m => exact kept_compileMethod c k.arena k.context m
  | noTrace => exact ⟨rfl, rfl⟩
  | noMethod => exact ⟨rfl, rfl⟩

include hWord in
/-- A call under a key files something or not; one without a key never does. -/
theorem files_answer (k : Call) :
    ((c.answer k).result.cached = false ∧ (c.answer k).compiler.lookup = c.lookup) ∨
      ∃ key, k.request.key? = some key ∧ Files c.lookup key (c.answer k) := by
  unfold answer
  cases k.request with
  | trace t => exact .inr ⟨_, rfl, files_compileTrace hWord k.arena k.context t⟩
  | method m => exact .inr ⟨_, rfl, files_compileMethod k.arena k.context m⟩
  | noTrace => exact .inl ⟨rfl, rfl⟩
  | noMethod => exact .inl ⟨rfl, rfl⟩

include hWord in
theorem afterCalls_settings (calls : List Call) : (c.afterCalls calls).settings = c.settings := by
  induction calls using List.reverseRecOn with
  | nil => rfl
  | append_singleton calls k ih =>
      rw [afterCalls_concat, (kept_answer (ih ▸ hWord) k).2, ih]

/-! ### Where filed fragments come from -/

/-- The fragment under a key is what one of the calls under this key installed. -/
def InstalledIn (c : Compiler σ) (calls : List Call) (x : String × Fragment) : Prop :=
  ∃ before k after, calls = before ++ k :: after ∧ k.request.key? = some x.1 ∧
    ((c.afterCalls before).answer k).error = none ∧
    ((c.afterCalls before).answer k).result.cached = false ∧
    ((c.afterCalls before).answer k).result.fragment = x.2

/-- What was installed during some calls was so during more of them. -/
theorem InstalledIn.concat {calls : List Call} {x : String × Fragment} (h : c.InstalledIn calls x)
    (k : Call) : c.InstalledIn (calls ++ [k]) x := by
  obtain ⟨before, i, after, rfl, hRest⟩ := h
  exact ⟨before, i, after ++ [k], by simp, hRest⟩

variable (hEmpty : c.lookup.entries = [])

include hWord hEmpty in
/-- All that is filed after some calls was installed by one of them. -/
theorem installedIn_of_mem (calls : List Call) :
    ∀ x ∈ (c.afterCalls calls).lookup.entries, c.InstalledIn calls x := by
  induction calls using List.reverseRecOn with
  | nil => simp [hEmpty]
  | append_singleton calls k ih =>
      intro x hx
      rw [afterCalls_concat] at hx
      have hWord' : (c.afterCalls calls).settings.maxTraceInsns < 2 ^ 63 := by
        rwa [afterCalls_settings hWord]
      rcases files_answer hWord' k with ⟨_, hLookup⟩ | ⟨key, hKey, hFiles⟩
      · rw [hLookup] at hx
        exact (ih x hx).concat k
      · cases hFiles with
        | nothing _ hLookup =>
            rw [hLookup] at hx
            exact (ih x hx).concat k
        | installed hMissing hError hUncached hLookup =>
            rw [hLookup] at hx
            rcases LookupCache.mem_insert hMissing hx with rfl | ⟨hOld, _⟩
            · exact ⟨calls, k, [], rfl, hKey, hError, hUncached, rfl⟩
            · exact (ih x hOld).concat k
        | served _ _ _ hLookup =>
            rw [hLookup] at hx
            exact (ih x (LookupCache.mem_touch hx)).concat k

include hWord hEmpty in
/-- What a call is served was installed by an earlier call under the same key. -/
theorem installedIn_of_cached (calls : List Call) (k : Call)
    (hCached : ((c.afterCalls calls).answer k).result.cached = true) :
    ∃ key, k.request.key? = some key ∧
      c.InstalledIn calls (key, ((c.afterCalls calls).answer k).result.fragment) := by
  have hWord' : (c.afterCalls calls).settings.maxTraceInsns < 2 ^ 63 := by
    rwa [afterCalls_settings hWord]
  rcases files_answer hWord' k with ⟨hUncached, _⟩ | ⟨key, hKey, hFiles⟩
  · cases hUncached.symm.trans hCached
  · cases hFiles with
    | nothing hUncached => cases hUncached.symm.trans hCached
    | installed _ _ hUncached => cases hUncached.symm.trans hCached
    | served hFound _ hFragment =>
        refine ⟨key, hKey, ?_⟩
        rw [hFragment]
        exact installedIn_of_mem hWord hEmpty calls _ (LookupCache.mem_of_peek? hFound)

end Compiler

end TraceJit
