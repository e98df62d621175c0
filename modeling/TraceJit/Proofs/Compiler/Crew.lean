import TraceJit.Proofs.Codegen.CodeCache
import TraceJit.Proofs.Compiler.Atomic

/-!
Workers that share a compiler. Between any two of their calls the lookup cache holds, under each of
its keys, what the latest call that installed code under the key gave back. So in every state that a
compiler can come to, a call either changes nothing that is shared, or adds one fragment, or serves
the fragment of an earlier call.
-/

namespace TraceJit

def Compiled.installs (o : Compiled Assembler) (key : String) : Bool :=
  o.error.isNone && !o.result.cached && o.result.key == key

/-- A compiler with the arenas of its workers and with the calls that were made, the last one
first. -/
structure Crew where
  compiler : Compiler Assembler
  arenas : List Arena := []
  calls : List (Compiled Assembler) := []

inductive Duty where
  /-- A worker joins, with an arena of its own. -/
  | hire
  | call (worker : Nat) (ctx : Context) (r : Request)
  | find (key : String)
  /-- Others than the compiler work on the code cache. -/
  | recode (cache : CodeCache)

namespace Crew

/-- The state after a call of a worker has ended. -/
def after (s : Crew) (worker : Nat) (o : Compiled Assembler) : Crew where
  compiler := o.compiler
  arenas := s.arenas.set worker o.arena
  calls := o :: s.calls

def step (s : Crew) : Duty → Crew
  | .hire => { s with arenas := s.arenas ++ [{}] }
  | .call worker ctx r =>
      match s.arenas[worker]? with
      | none => s
      | some arena => s.after worker (s.compiler.compile arena ctx r)
  | .find key => { s with compiler := (s.compiler.find key).2 }
  | .recode cache =>
      { s with compiler := { s.compiler with state := { s.compiler.state with cache } } }

/-- The states that a compiler into the code cache can come to. -/
inductive Reachable : Crew → Prop where
  | opened {settings : Settings} {assembler : Assembler} {tracer : Tracer} {c : Compiler Assembler}
      (hWord : settings.maxTraceInsns < 2 ^ 63)
      (hNew : Compiler.new settings (some Assembler.compile) assembler tracer = .ok c) :
      Reachable { compiler := c }
  | step {s : Crew} (hReach : s.Reachable) (duty : Duty) : Reachable (s.step duty)

/-- The latest call that installed code under a key. -/
def installer? (s : Crew) (key : String) : Option (Compiled Assembler) :=
  s.calls.find? (·.installs key)

/-- An entry of the lookup cache is what the call that installed it gave back. -/
def Installed (s : Crew) (x : String × Fragment) : Prop :=
  ∃ i, s.installer? x.1 = some i ∧ i.result.fragment = x.2 ∧ i.result.insts = x.2.insts

/-- What every duty keeps up. -/
structure Sound (s : Crew) : Prop where
  backend : s.compiler.backend = Assembler.compile
  word : s.compiler.settings.maxTraceInsns < 2 ^ 63
  lookup : s.compiler.lookup.Sound
  charged : ∀ arena ∈ s.arenas, arena.charged = 0
  installed : ∀ x ∈ s.compiler.lookup.entries, s.Installed x

/-- A crew that begins with an empty lookup cache is sound. -/
theorem sound_opened {settings : Settings} {assembler : Assembler} {tracer : Tracer}
    {c : Compiler Assembler} (hWord : settings.maxTraceInsns < 2 ^ 63)
    (hNew : Compiler.new settings (some Assembler.compile) assembler tracer = .ok c) :
    Sound { compiler := c } := by
  obtain ⟨hValid, rfl⟩ := Compiler.new_ok hNew
  have hPos := (Settings.pos_of_valid hValid).2
  exact ⟨rfl, hWord, LookupCache.sound_new (Int.pos_iff_toNat_pos.mp hPos), by simp,
    by simp [LookupCache.new]⟩

section Calls

variable {s : Crew} {worker : Nat} {o : Compiled Assembler} {key : String}

/-- A duty that calls for a compilation is a call of the compiler with the worker's memory. -/
theorem step_call {arena : Arena} (hWorker : s.arenas[worker]? = some arena)
    (ctx : Context) (r : Request) :
    s.step (.call worker ctx r) = s.after worker (s.compiler.compile arena ctx r) := by
  rw [step, hWorker]

/-- What is installed under one key stays so while another is installed. -/
theorem Installed.after {x : String × Fragment} (h : s.Installed x)
    (hOther : o.installs x.1 = false) : (s.after worker o).Installed x := by
  obtain ⟨i, hInstaller, hSame⟩ := h
  refine ⟨i, ?_, hSame⟩
  rw [installer?, Crew.after, List.find?_cons, hOther]
  exact hInstaller

theorem Sound.charged_after (h : s.Sound) (hEmpty : o.arena.charged = 0) :
    ∀ arena ∈ (s.after worker o).arenas, arena.charged = 0 := by
  intro arena hMem
  rcases List.mem_or_eq_of_mem_set hMem with hOld | rfl
  · exact h.charged arena hOld
  · exact hEmpty

/-- A call keeps the books of the lookup cache. -/
theorem Sound.lookup_after (h : s.Sound)
    (hEffect : Compiler.Effect s.compiler.state s.compiler.lookup key o) :
    o.compiler.lookup.Sound ∧
      ∀ x ∈ o.compiler.lookup.entries, (s.after worker o).Installed x := by
  cases hEffect with
  | failed hError _ hLookup =>
      rw [hLookup]
      refine ⟨h.lookup, fun x hx => (h.installed x hx).after ?_⟩
      simp [Compiled.installs, hError]
  | installed hMissing hError hUncached hKey _ hInsts hLookup =>
      rw [hLookup]
      refine ⟨h.lookup.insert .., fun x hx => ?_⟩
      rcases LookupCache.mem_insert hMissing hx with rfl | ⟨hOld, hOther⟩
      · refine ⟨o, ?_, rfl, hInsts⟩
        simp [installer?, Crew.after, Compiled.installs, hError, hUncached, hKey]
      · refine (h.installed x hOld).after ?_
        simp [Compiled.installs, hKey, hOther.symm]
  | served _ _ hCached _ _ _ hLookup =>
      rw [hLookup]
      refine ⟨h.lookup.touch key, fun x hx => ?_⟩
      refine (h.installed x (LookupCache.mem_touch hx)).after ?_
      simp [Compiled.installs, hCached]

/-- Every call keeps a crew sound. -/
theorem Sound.after (h : s.Sound) {arena : Arena} (hArena : arena ∈ s.arenas)
    (ctx : Context) (r : Request) :
    (s.after worker (s.compiler.compile arena ctx r)).Sound := by
  have hCharged := h.charged arena hArena
  cases hKey : r.key? with
  | some key =>
      obtain ⟨hEffect, ⟨hBackend, hSettings⟩, hEmpty, _⟩ :=
        Compiler.leaves_compile h.backend h.word hCharged ctx hKey
      obtain ⟨hLookup, hInstalled⟩ := h.lookup_after hEffect
      exact ⟨hBackend.trans h.backend, hSettings ▸ h.word, hLookup, h.charged_after hEmpty,
        hInstalled⟩
  | none =>
      obtain ⟨e, hEnd⟩ := s.compiler.compile_nothing arena ctx hKey
      rw [hEnd]
      exact ⟨h.backend, h.word, h.lookup, h.charged_after hCharged,
        fun x hx => (h.installed x hx).after (by simp [Compiled.installs])⟩

/-- So does every duty. -/
theorem Sound.step (h : s.Sound) (duty : Duty) : (s.step duty).Sound := by
  cases duty with
  | hire =>
      refine ⟨h.backend, h.word, h.lookup, fun arena hMem => ?_, h.installed⟩
      rcases List.mem_append.mp hMem with hOld | hNew
      · exact h.charged arena hOld
      · rw [List.mem_singleton.mp hNew]
  | call worker ctx r =>
      cases hWorker : s.arenas[worker]? with
      | none =>
          rw [Crew.step, hWorker]
          exact h
      | some arena =>
          rw [step_call hWorker]
          exact h.after (List.mem_of_getElem? hWorker) ctx r
  | find key =>
      exact ⟨h.backend, h.word, h.lookup.touch key, h.charged,
        fun x hx => h.installed x (LookupCache.mem_touch hx)⟩
  | recode => exact ⟨h.backend, h.word, h.lookup, h.charged, h.installed⟩

/-- A crew that can be reached is sound. -/
theorem Reachable.sound (h : s.Reachable) : s.Sound := by
  induction h with
  | opened hWord hNew => exact sound_opened hWord hNew
  | step _ duty ih => exact ih.step duty

/-- A call under a key leaves what is shared as it was, or adds one fragment to it, or serves one;
and it leaves nothing in the arena of its worker. -/
structure Atomic (s : Crew) (arena : Arena) (r : Request) (key : String)
    (o : Compiled Assembler) : Prop where
  failed : o.error.isSome → o.compiler.state = s.compiler.state ∧
    o.compiler.lookup = s.compiler.lookup
  installed : o.error = none → o.result.cached = false →
    o.result.key = key ∧
    (∃ p, s.compiler.state.assemble p = .ok (o.result.fragment, o.compiler.state) ∧
      s.compiler.state.cache.install (Assembler.encode p) =
        .ok (o.result.fragment.base, o.compiler.state.cache)) ∧
    o.compiler.state.cache.count = s.compiler.state.cache.count + 1 ∧
    o.compiler.lookup.peek? key = some o.result.fragment ∧
    o.compiler.lookup.entries = (key, o.result.fragment) ::
      if s.compiler.lookup.entries.length < s.compiler.lookup.capacity then
        s.compiler.lookup.entries
      else s.compiler.lookup.entries.dropLast
  served : o.error = none → o.result.cached = true →
    o.compiler.state = s.compiler.state ∧ o.compiler.lookup = s.compiler.lookup.touch key ∧
    ∃ i, s.installer? key = some i ∧ o.result.fragment = i.result.fragment ∧
      o.result.insts = i.result.insts
  charged : o.arena.charged = 0
  resets : o.arena.resets = arena.resets + r.rounds o.result

/-- Calls are atomic in every state that a compiler can come to, whatever becomes of them. -/
theorem call_atomic (hReach : s.Reachable) {arena : Arena} (hArena : arena ∈ s.arenas)
    (ctx : Context) {r : Request} (hKey : r.key? = some key) :
    s.Atomic arena r key (s.compiler.compile arena ctx r) := by
  have hSound := hReach.sound
  obtain ⟨hEffect, _, hCharged, hResets⟩ :=
    Compiler.leaves_compile hSound.backend hSound.word (hSound.charged arena hArena) ctx hKey
  generalize s.compiler.compile arena ctx r = o at hEffect hCharged hResets
  cases hEffect with
  | failed hError hState hLookup =>
      refine ⟨fun _ => ⟨hState, hLookup⟩, fun hNone => ?_, fun hNone => ?_, hCharged, hResets⟩
      · cases hNone.symm.trans hError
      · cases hNone.symm.trans hError
  | installed hMissing hError hUncached hOwnKey hAssemble _ hLookup =>
      refine ⟨fun hSome => ?_, fun _ _ => ?_, fun _ hCached => ?_, hCharged, hResets⟩
      · rw [hError] at hSome
        cases hSome
      · have hInstall := (Assembler.assemble_ok hAssemble).1
        obtain ⟨_, _, hCache⟩ := CodeCache.install_ok hInstall
        rw [hLookup, hSound.lookup.insert_eq hMissing]
        refine ⟨hOwnKey, ⟨_, hAssemble, hInstall⟩, by rw [hCache], ?_, rfl⟩
        exact List.lookup_cons_self
      · cases hUncached.symm.trans hCached
  | served hFound hError hCached hFragment hInsts hState hLookup =>
      refine ⟨fun hSome => ?_, fun _ hUncached => ?_, fun _ _ => ⟨hState, hLookup, ?_⟩, hCharged,
        hResets⟩
      · rw [hError] at hSome
        cases hSome
      · cases hUncached.symm.trans hCached
      · obtain ⟨i, hInstaller, hSame, hSameInsts⟩ :=
          hSound.installed _ (LookupCache.mem_of_peek? hFound)
        exact ⟨i, hInstaller, hFragment.trans hSame.symm, hInsts.trans hSameInsts.symm⟩

end Calls

/-- A crew of one worker, whose compiler remembers one fragment of little size. -/
def lone : Crew where
  compiler :=
    { settings := { lookupCacheSize := 1 }, backend := Assembler.compile
      state := .new (.empty 0x1000 256) 56, filter := none, lookup := .new 1, counters := {}
      tracer := .nop }
  arenas := [{}]

theorem new_lone :
    Compiler.new lone.compiler.settings (some Assembler.compile) lone.compiler.state .nop =
      .ok lone.compiler := rfl

theorem reachable_lone : lone.Reachable := .step (.opened (by decide) new_lone) .hire

/-- A trace that is accepted at the second attempt. -/
def loneCall : Compiled Assembler :=
  lone.compiler.compile {} {} (.trace WorkUnit.loopTrace)

def loneAgain : Compiled Assembler :=
  (lone.after 0 loneCall).compiler.compile loneCall.arena {}
    (.trace WorkUnit.loopTrace)

/-- A trace that is accepted at the second attempt and then served from the lookup cache. -/
theorem call_atomic_lone :
    (loneCall.error = none ∧ loneCall.result.cached = false ∧
      loneCall.result.ceilings = [100, 1] ∧ loneAgain.error = none ∧
      loneAgain.result.cached = true) ∧
    lone.Atomic {} (.trace WorkUnit.loopTrace) WorkUnit.loopTrace.key loneCall ∧
    (lone.after 0 loneCall).Atomic loneCall.arena (.trace WorkUnit.loopTrace)
      WorkUnit.loopTrace.key loneAgain := by
  have hWorker : lone.arenas[0]? = some ({} : Arena) := rfl
  have hReach : (lone.after 0 loneCall).Reachable := by
    rw [loneCall, ← step_call hWorker]
    exact reachable_lone.step _
  refine ⟨by decide +kernel, ?_, ?_⟩
  · exact call_atomic reachable_lone (List.mem_singleton_self _) _ rfl
  · exact call_atomic hReach (List.mem_singleton_self _) _ rfl

end Crew

end TraceJit
