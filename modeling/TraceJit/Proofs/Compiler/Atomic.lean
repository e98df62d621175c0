import TraceJit.Proofs.Codegen.Assembler
import TraceJit.Proofs.Compiler.Call
import TraceJit.Proofs.Compiler.LookupCache
import TraceJit.Proofs.Graph.Verbosity

/-!
Calls are atomic. Attempts that are rejected leave no trace, so a call as a whole fails and changes
nothing that is shared, or installs one fragment, or serves one. The fragments in the lookup cache
are therefore those of earlier calls.
-/

namespace TraceJit

namespace Compiler

variable {σ : Type}

/-! ### What attempts change -/

namespace AttemptEnds

variable {c : Compiler σ} {arena : Arena} {canceled : Bool} {t : Trace} {ceiling : Int}
  {parent : Nat} {a : Attempt σ}

/-- An attempt leaves lookup, backend and settings alone. -/
theorem kept (h : c.AttemptEnds arena canceled t ceiling parent a) :
    a.compiler.lookup = c.lookup ∧ a.compiler.backend = c.backend ∧
      a.compiler.settings = c.settings := by
  cases h with
  | refused _ hCompiler =>
      rw [hCompiler]
      exact ⟨rfl, rfl, rfl⟩
  | unbuilt _ _ _ _ hCompiler =>
      rw [hCompiler]
      exact ⟨rfl, rfl, rfl⟩
  | replied _ _ _ _ _ hCompiler =>
      rw [hCompiler]
      exact ⟨rfl, rfl, rfl⟩

/-- An attempt gives all its memory back. -/
theorem arena_eq (h : c.AttemptEnds arena canceled t ceiling parent a) :
    a.arena.charged = 0 ∧ a.arena.resets = arena.resets + 1 := by
  cases h with
  | refused _ _ hArena =>
      rw [hArena]
      exact ⟨rfl, rfl⟩
  | unbuilt _ _ _ _ _ hArena =>
      rw [hArena]
      exact ⟨rfl, rfl⟩
  | replied _ _ _ _ _ _ hArena =>
      rw [hArena]
      exact ⟨rfl, rfl⟩

end AttemptEnds

section Assembled

variable {c : Compiler Assembler} {arena : Arena} {canceled : Bool} {t : Trace} {ceiling : Int}
  {parent : Nat} {a : Attempt Assembler}

/-- An attempt that fails leaves the assembler as it was. -/
theorem AttemptEnds.of_error (h : c.AttemptEnds arena canceled t ceiling parent a)
    (hBackend : c.backend = Assembler.compile) {e : CompileError}
    (hError : a.result = .error e) : a.compiler.state = c.state := by
  cases h with
  | refused _ hCompiler => rw [hCompiler]
  | unbuilt _ _ _ _ hCompiler =>
      rw [hCompiler]
      rfl
  | @replied _ v _ _ _ _ _ _ hCompiler _ _ hResult =>
      rw [hBackend] at hCompiler hResult
      rw [hCompiler]
      cases hReply : (Assembler.compile c.state canceled v.dump).result with
      | error e => exact Assembler.compile_error hReply
      | ok f =>
          rw [hReply] at hResult
          cases hResult.symm.trans hError

/-- An attempt that succeeds has assembled one program. -/
theorem AttemptEnds.of_ok (h : c.AttemptEnds arena canceled t ceiling parent a)
    (hBackend : c.backend = Assembler.compile) {f : Fragment} (hOk : a.result = .ok f) :
    ∃ p, c.state.assemble p = .ok (f, a.compiler.state) ∧ a.compiled = f.insts := by
  cases h with
  | refused _ _ _ _ hResult => cases hResult.symm.trans hOk
  | unbuilt _ _ _ _ _ _ _ _ hResult => cases hResult.symm.trans hOk
  | @replied _ v _ _ _ _ hValid _ hCompiler _ hCompiled hResult =>
      rw [hBackend] at hCompiler hResult
      rw [hCompiler, hCompiled]
      cases hReply : (Assembler.compile c.state canceled v.dump).result with
      | error e =>
          rw [hReply] at hResult
          cases hResult.symm.trans hOk
      | ok g =>
          rw [hReply] at hResult
          obtain rfl : g = f := Except.ok.inj (hResult.symm.trans hOk)
          obtain ⟨p, hAssemble, hInsts⟩ :=
            Assembler.compile_ok (v.invalid?_dump.trans hValid) hReply
          exact ⟨p, hAssemble, hInsts.symm⟩

end Assembled

/-! ### What calls change -/

/-- The three ends of a call under a key, by what becomes of installed code and of the lookup
cache. -/
inductive Effect (state : Assembler) (lookup : LookupCache) (key : String)
    (o : Compiled Assembler) : Prop where
  | failed {e : CompileError} (hError : o.error = some e) (hState : o.compiler.state = state)
      (hLookup : o.compiler.lookup = lookup)
  | installed {p : Lowered} (hMissing : lookup.peek? key = none) (hError : o.error = none)
      (hUncached : o.result.cached = false) (hKey : o.result.key = key)
      (hAssemble : state.assemble p = .ok (o.result.fragment, o.compiler.state))
      (hInsts : o.result.insts = o.result.fragment.insts)
      (hLookup : o.compiler.lookup = lookup.insert key o.result.fragment)
  | served {f : Fragment} (hFound : lookup.peek? key = some f) (hError : o.error = none)
      (hCached : o.result.cached = true) (hFragment : o.result.fragment = f)
      (hInsts : o.result.insts = f.insts) (hState : o.compiler.state = state)
      (hLookup : o.compiler.lookup = lookup.touch key)

namespace Round.Runs

variable {canceled : Nat → Bool} {t : Trace}

/-- A row of attempts keeps backend and settings. -/
theorem kept {r : Round σ} {tried : List (Round σ)} {o : Compiled σ}
    (h : Round.Runs canceled t r tried o) (hWord : r.ceiling < 2 ^ 63) :
    o.compiler.backend = r.compiler.backend ∧ o.compiler.settings = r.compiler.settings := by
  induction h with
  | exhausted => simp
  | accepted hCeiling => exact (Round.attemptEnds canceled t hCeiling hWord).kept.2
  | failed hCeiling => simpa using (Round.attemptEnds canceled t hCeiling hWord).kept.2
  | again hCeiling _ _ _ ih =>
      obtain ⟨hBackend, hSettings⟩ := (Round.attemptEnds canceled t hCeiling hWord).kept.2
      obtain ⟨hBackend', hSettings'⟩ :=
        ih (Round.next_ceiling_word canceled t hCeiling hWord)
      exact ⟨hBackend'.trans hBackend, hSettings'.trans hSettings⟩

/-- The arena is reset once for every attempt. -/
theorem arena_eq {r : Round σ} {tried : List (Round σ)} {o : Compiled σ}
    (h : Round.Runs canceled t r tried o) (hWord : r.ceiling < 2 ^ 63)
    (hCharged : r.arena.charged = 0) :
    o.arena.charged = 0 ∧ o.arena.resets = r.arena.resets + tried.length := by
  induction h with
  | exhausted => simpa using hCharged
  | accepted hCeiling => exact (Round.attemptEnds canceled t hCeiling hWord).arena_eq
  | failed hCeiling => simpa using (Round.attemptEnds canceled t hCeiling hWord).arena_eq
  | again hCeiling _ _ _ ih =>
      obtain ⟨hEmpty, hResets⟩ := (Round.attemptEnds canceled t hCeiling hWord).arena_eq
      obtain ⟨hCharged', hResets'⟩ :=
        ih (Round.next_ceiling_word canceled t hCeiling hWord) hEmpty
      refine ⟨hCharged', hResets'.trans ?_⟩
      rw [List.length_cons]
      change (Attempt.arena _).resets + _ = _
      omega

/-- What a row of attempts does to code cache and lookup. -/
theorem effect {r : Round Assembler} {tried : List (Round Assembler)} {o : Compiled Assembler}
    (h : Round.Runs canceled t r tried o) (hWord : r.ceiling < 2 ^ 63)
    (hBackend : r.compiler.backend = Assembler.compile)
    (hMissing : r.compiler.lookup.peek? r.result.key = none) (hUncached : r.result.cached = false) :
    Effect r.compiler.state r.compiler.lookup r.result.key o := by
  induction h with
  | exhausted => exact .failed (failed_error ..) (failed_state ..) (failed_lookup ..)
  | accepted hCeiling hResult =>
      have hEnds := Round.attemptEnds canceled t hCeiling hWord
      obtain ⟨p, hAssemble, hInsts⟩ := hEnds.of_ok hBackend hResult
      refine .installed hMissing rfl hUncached rfl hAssemble hInsts ?_
      change LookupCache.insert (Compiler.lookup _) _ _ = _
      rw [hEnds.kept.1]
      rfl
  | failed hCeiling hResult =>
      have hEnds := Round.attemptEnds canceled t hCeiling hWord
      refine .failed (failed_error ..) ?_ ?_
      · rw [failed_state, hEnds.of_error hBackend hResult]
      · rw [failed_lookup, hEnds.kept.1]
  | @again r e rest o hCeiling hResult _ _ ih =>
      have hEnds := Round.attemptEnds canceled t hCeiling hWord
      have hState : (r.next canceled t).compiler.state = r.compiler.state :=
        hEnds.of_error hBackend hResult
      have hLookup : (r.next canceled t).compiler.lookup = r.compiler.lookup := hEnds.kept.1
      rw [← hLookup] at hMissing
      have hEffect := ih (Round.next_ceiling_word canceled t hCeiling hWord)
        (hEnds.kept.2.1.trans hBackend) hMissing hUncached
      rwa [hState, hLookup] at hEffect

end Round.Runs

end Compiler

/-- The key under which a request is looked up; one without a trace or a method has none. -/
def Request.key? : Request → Option String
  | .trace t => some t.key
  | .method m => some ("method:" ++ m.ref)
  | .noTrace _ => none
  | .noMethod => none

/-- How many units a request was worked on with: one for every attempt at a trace, one for a method,
and none if the fragment was found under its key. -/
def Request.rounds (r : Request) (result : CompileResult) : Nat :=
  if result.cached then 0
  else
    match r with
    | .trace _ => result.attempts
    | _ => 1

namespace Compiler

/-- A call for a trace keeps backend and settings. -/
theorem kept_compileTrace {c : Compiler σ} (hWord : c.settings.maxTraceInsns < 2 ^ 63)
    (arena : Arena) (ctx : Context) (t : Trace) :
    (c.compileTrace arena ctx t).compiler.backend = c.backend ∧
      (c.compileTrace arena ctx t).compiler.settings = c.settings := by
  obtain ⟨tried, hCall⟩ := traceCall_compileTrace arena ctx t hWord
  generalize c.compileTrace arena ctx t = o at hCall
  cases hCall with
  | hit => exact ⟨rfl, rfl⟩
  | miss _ hRuns => exact hRuns.kept hWord

/-- A call for a method keeps backend and settings. -/
theorem kept_compileMethod (c : Compiler σ) (arena : Arena) (ctx : Context) (m : Method) :
    (c.compileMethod arena ctx m).compiler.backend = c.backend ∧
      (c.compileMethod arena ctx m).compiler.settings = c.settings := by
  have hCall := c.methodCall_compileMethod arena ctx m
  generalize c.compileMethod arena ctx m = o at hCall
  cases hCall with
  | hit => exact ⟨rfl, rfl⟩
  | refused => exact ⟨failed_backend .., failed_settings ..⟩
  | unbuilt => exact ⟨failed_backend .., failed_settings ..⟩
  | rejected => exact ⟨failed_backend .., failed_settings ..⟩
  | accepted => exact ⟨rfl, rfl⟩

section Calls

variable {c : Compiler Assembler} {arena : Arena} {r : Request} {key : String}

/-- What a call for a trace does to code cache and lookup. -/
theorem effect_compileTrace (hBackend : c.backend = Assembler.compile)
    (hWord : c.settings.maxTraceInsns < 2 ^ 63) (arena : Arena) (ctx : Context)
    (t : Trace) : Effect c.state c.lookup t.key (c.compileTrace arena ctx t) := by
  obtain ⟨tried, hCall⟩ := traceCall_compileTrace arena ctx t hWord
  generalize c.compileTrace arena ctx t = o at hCall
  cases hCall with
  | hit hFound => exact .served hFound rfl rfl rfl rfl rfl rfl
  | miss hMissing hRuns => exact hRuns.effect hWord hBackend hMissing rfl

/-- What a call for a method does to code cache and lookup. -/
theorem effect_compileMethod (hBackend : c.backend = Assembler.compile) (arena : Arena)
    (ctx : Context) (m : Method) :
    Effect c.state c.lookup ("method:" ++ m.ref) (c.compileMethod arena ctx m) := by
  have hCall := c.methodCall_compileMethod arena ctx m
  generalize c.compileMethod arena ctx m = o at hCall
  cases hCall with
  | hit hFound => exact .served hFound rfl rfl rfl rfl rfl rfl
  | refused => exact .failed (failed_error ..) (failed_state ..) (failed_lookup ..)
  | unbuilt => exact .failed (failed_error ..) (failed_state ..) (failed_lookup ..)
  | rejected _ _ _ _ hReply =>
      rw [hBackend] at hReply
      refine .failed (failed_error ..) ?_ (failed_lookup ..)
      rw [failed_state, hBackend]
      exact Assembler.compile_error hReply
  | @accepted _ v _ _ _ hMissing _ _ hValid hReply =>
      rw [hBackend] at hReply
      obtain ⟨p, hAssemble, hInsts⟩ := Assembler.compile_ok (v.invalid?_dump.trans hValid) hReply
      rw [← hBackend] at hAssemble
      exact .installed hMissing rfl rfl rfl hAssemble hInsts.symm rfl

/-- What any call with a key does to code cache and lookup. -/
theorem effect_compile (hBackend : c.backend = Assembler.compile)
    (hWord : c.settings.maxTraceInsns < 2 ^ 63) (arena : Arena) (ctx : Context)
    (hKey : r.key? = some key) : Effect c.state c.lookup key (c.compile arena ctx r) := by
  cases r with
  | trace t =>
      obtain rfl : t.key = key := Option.some.inj hKey
      exact effect_compileTrace hBackend hWord arena ctx t
  | method m =>
      obtain rfl : "method:" ++ m.ref = key := Option.some.inj hKey
      exact effect_compileMethod hBackend arena ctx m
  | noTrace => cases hKey
  | noMethod => cases hKey

structure Leaves (c : Compiler Assembler) (arena : Arena) (r : Request) (key : String)
    (o : Compiled Assembler) : Prop where
  effect : Effect c.state c.lookup key o
  kept : o.compiler.backend = c.backend ∧ o.compiler.settings = c.settings
  arena_eq : o.arena.charged = 0 ∧ o.arena.resets = arena.resets + r.rounds o.result

theorem leaves_compileTrace (hBackend : c.backend = Assembler.compile)
    (hWord : c.settings.maxTraceInsns < 2 ^ 63) (hCharged : arena.charged = 0)
    (ctx : Context) (t : Trace) :
    c.Leaves arena (.trace t) t.key (c.compileTrace arena ctx t) := by
  refine ⟨effect_compileTrace hBackend hWord arena ctx t,
    kept_compileTrace hWord arena ctx t, ?_⟩
  obtain ⟨tried, hCall⟩ := traceCall_compileTrace arena ctx t hWord
  generalize c.compileTrace arena ctx t = o at hCall
  cases hCall with
  | hit => exact ⟨hCharged, rfl⟩
  | miss hMissing hRuns =>
      obtain ⟨hCeilings, hMode, hUncached⟩ := hRuns.result_eq
      have hRounds : Request.rounds (.trace t) o.result = tried.length := by
        simp [Request.rounds, CompileResult.attempts, hCeilings, hMode, hUncached, firstRound,
          traceResult]
      exact hRounds ▸ hRuns.arena_eq hWord hCharged

theorem leaves_compileMethod (hBackend : c.backend = Assembler.compile)
    (hCharged : arena.charged = 0) (ctx : Context) (m : Method) :
    c.Leaves arena (.method m) ("method:" ++ m.ref) (c.compileMethod arena ctx m) := by
  refine ⟨effect_compileMethod hBackend arena ctx m,
    kept_compileMethod c arena ctx m, ?_⟩
  have hCall := c.methodCall_compileMethod arena ctx m
  generalize c.compileMethod arena ctx m = o at hCall
  -- All ends but the first reset the arena once.
  cases hCall with
  | hit => exact ⟨hCharged, rfl⟩
  | refused =>
      rw [failed_arena, failed_result]
      exact ⟨rfl, rfl⟩
  | unbuilt =>
      rw [failed_arena, failed_result]
      exact ⟨rfl, rfl⟩
  | rejected =>
      rw [failed_arena, failed_result]
      exact ⟨rfl, rfl⟩
  | accepted => exact ⟨rfl, rfl⟩

/-- A request for nothing fails and touches nothing. -/
theorem compile_nothing (c : Compiler Assembler) (arena : Arena) (ctx : Context)
    (hKey : r.key? = none) :
    ∃ e, c.compile arena ctx r =
      { compiler := c, arena, result := {}, error := some e } := by
  cases r with
  | trace t => cases hKey
  | method m => cases hKey
  | noTrace => exact ⟨_, rfl⟩
  | noMethod => exact ⟨_, rfl⟩

/-- A call with a key is all or nothing. -/
theorem leaves_compile (hBackend : c.backend = Assembler.compile)
    (hWord : c.settings.maxTraceInsns < 2 ^ 63) (hCharged : arena.charged = 0)
    (ctx : Context) (hKey : r.key? = some key) :
    c.Leaves arena r key (c.compile arena ctx r) := by
  cases r with
  | trace t =>
      obtain rfl : t.key = key := Option.some.inj hKey
      exact leaves_compileTrace hBackend hWord hCharged ctx t
  | method m =>
      obtain rfl : "method:" ++ m.ref = key := Option.some.inj hKey
      exact leaves_compileMethod hBackend hCharged ctx m
  | noTrace => cases hKey
  | noMethod => cases hKey

end Calls

end Compiler

end TraceJit
