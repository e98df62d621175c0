import Mathlib.Data.List.Nodup
import TraceJit.Program.ImageFile

/-!
What loading an image makes sure of: no two methods have the same reference, and every trace goes
through a method of the image and has runs. Nothing is asked of the names themselves.
-/

namespace TraceJit

theorem flatten_mapIdx_eq_nil_iff {α β : Type} {f : Nat → α → List β} {P : α → Prop}
    (hOwn : ∀ i x, f i x = [] ↔ P x) (l : List α) :
    (l.mapIdx f).flatten = [] ↔ ∀ x ∈ l, P x := by
  simp only [List.flatten_eq_nil_iff, List.mem_mapIdx, forall_exists_index,
    List.forall_mem_iff_getElem]
  constructor
  · intro h i hi
    exact (hOwn i _).mp (h _ i hi rfl)
  · rintro h _ i hi rfl
    exact (hOwn i _).mpr (h i hi)

namespace ImageText

/-! ### References -/

/-- The methods of a class are accepted one by one, and under references of their own. -/
theorem methodProblems_eq_nil_iff {descriptor : String} {seen : List String}
    {ms : List MethodText} :
    methodProblems descriptor seen ms = [] ↔
      (∀ m ∈ ms, m.problems descriptor = []) ∧ (ms.map (·.ref descriptor)).Nodup ∧
        ∀ m ∈ ms, m.ref descriptor ∉ seen := by
  induction ms generalizing seen with
  | nil => simp [methodProblems]
  | cons m ms ih =>
      have hTwice : (if seen.contains (m.ref descriptor) then
          [ImageProblem.methodTwice (m.ref descriptor)] else []) = [] ↔
          m.ref descriptor ∉ seen := by simp
      have hOther : (∀ n ∈ ms, n.ref descriptor ∉ m.ref descriptor :: seen) ↔
          m.ref descriptor ∉ ms.map (·.ref descriptor) ∧ ∀ n ∈ ms, n.ref descriptor ∉ seen := by
        simp only [List.mem_cons, not_or, List.mem_map, not_exists, not_and, ← forall_and]
      rw [methodProblems, List.append_eq_nil_iff, List.append_eq_nil_iff, ih, hTwice, hOther,
        List.forall_mem_cons, List.forall_mem_cons, List.map_cons, List.nodup_cons]
      tauto

/-- Classes are accepted under names of their own, with methods that are accepted and whose
references no other has. -/
theorem declarationProblems_eq_nil_iff {index : Nat} {seen taken : List String}
    {cs : List ClassText} :
    declarationProblems index seen taken cs = [] ↔
      (∀ c ∈ cs, Text.allBlank c.descriptor = false ∧ c.descriptor ∉ seen) ∧
      (cs.map (·.descriptor)).Nodup ∧ (∀ c ∈ cs, ∀ m ∈ c.methods, m.problems c.descriptor = []) ∧
      (cs.flatMap refs).Nodup ∧ ∀ ref ∈ cs.flatMap refs, ref ∉ taken := by
  induction cs generalizing index seen taken with
  | nil => simp [declarationProblems]
  | cons c cs ih =>
      have hOwn : (∀ m ∈ c.methods, m.ref c.descriptor ∉ taken) ↔ ∀ ref ∈ refs c, ref ∉ taken := by
        simp [refs]
      have hFresh : (∀ x ∈ cs, Text.allBlank x.descriptor = false ∧
            x.descriptor ∉ c.descriptor :: seen) ↔
          c.descriptor ∉ cs.map (·.descriptor) ∧
            ∀ x ∈ cs, Text.allBlank x.descriptor = false ∧ x.descriptor ∉ seen := by
        simp only [List.mem_cons, not_or, List.mem_map, not_exists, not_and, ← forall_and]
        exact forall₂_congr fun x _ => and_left_comm
      have hApart : (∀ ref ∈ cs.flatMap refs, ref ∉ refs c ++ taken) ↔
          (∀ ref ∈ refs c, ref ∉ cs.flatMap refs) ∧ ∀ ref ∈ cs.flatMap refs, ref ∉ taken := by
        simp only [List.mem_append, not_or]
        exact ⟨fun h => ⟨fun ref hOwn hLater => (h ref hLater).1 hOwn, fun ref hLater =>
          (h ref hLater).2⟩, fun h ref hLater => ⟨fun hOwn => h.1 ref hOwn hLater, h.2 ref hLater⟩⟩
      rw [declarationProblems, List.forall_mem_cons, List.map_cons, List.nodup_cons,
        List.forall_mem_cons, List.flatMap_cons, List.nodup_append', List.forall_mem_append]
      by_cases hBlank : Text.allBlank c.descriptor = true
      · simp [hBlank]
      · by_cases hSeen : c.descriptor ∈ seen
        · simp [hBlank, hSeen]
        · rw [if_neg hBlank, if_neg (by simpa using hSeen), List.append_eq_nil_iff,
            methodProblems_eq_nil_iff, ih, hOwn, hFresh, hApart]
          have hName : Text.allBlank c.descriptor = false := by simpa using hBlank
          simp only [hName, hSeen, not_false_eq_true, and_self, true_and, List.Disjoint, refs]
          tauto

/-- Placing methods keeps their names. -/
theorem placeMethods_names (free : UInt64) (ms : List MethodText) :
    (placeMethods free ms).1.map (·.name) = ms.map (·.name) := by
  induction ms generalizing free with
  | nil => rfl
  | cons m ms ih =>
      have hName : (m.place free).1.name = m.name := by
        unfold MethodText.place
        split <;> rfl
      simp [placeMethods, ih, hName]

/-- Linking keeps the references and their order. -/
theorem methods_link_refs (free : UInt64) (cs : List ClassText) (resolved : List String) :
    (World.link (placeClasses free cs) [] resolved).methods.map (·.ref) = cs.flatMap refs := by
  have hPlaced : ∀ free, (placeClasses free cs).flatMap (fun c =>
      (c.methods.map (·.name)).map fun name => c.descriptor ++ "->" ++ name) = cs.flatMap refs := by
    induction cs with
    | nil => simp [placeClasses]
    | cons c cs ih =>
        intro free
        rw [placeClasses, List.flatMap_cons, List.flatMap_cons, ih, placeMethods_names,
          List.map_map]
        rfl
  rw [← hPlaced free]
  simp only [World.methods, World.link, List.map_nil, List.append_nil, List.map_flatMap,
    List.flatMap_map, List.map_map]
  rfl

/-! ### Traces -/

theorem runs_ne_nil {rs : List RunText} (h : rs ≠ []) : runs rs ≠ [] := by
  match rs with
  | [] => exact absurd rfl h
  | [_] => simp [runs]
  | _ :: _ :: _ => simp [runs]

theorem runs_of_traceProblem? {d : ImageText} {t : TraceText} (h : d.traceProblem? t = none) :
    t.runs ≠ [] := by
  intro hNone
  unfold traceProblem? at h
  split at h
  next => cases h
  next =>
      split at h
      next => cases h
      next => simp [hNone] at h

theorem traceProblems_eq_nil_iff {d : ImageText} :
    d.traceProblems = [] ↔ ∀ t ∈ d.traces, d.traceProblem? t = none := by
  apply flatten_mapIdx_eq_nil_iff
  simp

/-- A trace of the image belongs to one of its methods and has the runs that were described. -/
theorem mem_linkTraces {d : ImageText} {w : World} {t : Trace} (h : t ∈ d.linkTraces w) :
    t.method ∈ w.methods ∧ ∃ x ∈ d.traces, t.runs = runs x.runs := by
  obtain ⟨linked, hLinked, ht⟩ := List.mem_flatten.mp h
  obtain ⟨i, hi, rfl⟩ := List.mem_mapIdx.mp hLinked
  obtain ⟨m, hm, rfl⟩ := Option.map_eq_some_iff.mp (Option.mem_toList.mp ht)
  exact ⟨List.mem_of_find?_eq_some hm, _, List.getElem_mem hi, rfl⟩

end ImageText

namespace Image

/-- What loading makes sure of. -/
structure Linked (i : Image) : Prop where
  refs : (i.world.methods.map (·.ref)).Nodup
  traces : ∀ t ∈ i.traces, t.method ∈ i.world.methods ∧ t.runs ≠ []

/-- An image that is linked has traces of its own methods only. -/
theorem linked_of_link {d : ImageText} {i : Image} (h : d.link = .ok i) : i.Linked := by
  unfold ImageText.link at h
  split at h
  next hNone =>
      obtain rfl := Except.ok.inj h
      simp only [ImageText.problems, List.append_eq_nil_iff] at hNone
      obtain ⟨⟨⟨hDeclared, _⟩, _⟩, hTraces⟩ := hNone
      constructor
      · rw [ImageText.methods_link_refs]
        exact (ImageText.declarationProblems_eq_nil_iff.mp hDeclared).2.2.2.1
      · intro t ht
        obtain ⟨hMethod, x, hx, hRuns⟩ := ImageText.mem_linkTraces ht
        rw [hRuns]
        refine ⟨hMethod, ImageText.runs_ne_nil ?_⟩
        exact ImageText.runs_of_traceProblem? (ImageText.traceProblems_eq_nil_iff.mp hTraces x hx)
  next => cases h

/-- An image that is loaded is linked from a description. -/
theorem load_eq_ok {bytes : List UInt8} {i : Image} (h : Image.load bytes = .ok i) :
    ∃ d, ImageText.read bytes = .ok d ∧ d.link = .ok i := by
  unfold Image.load at h
  split at h
  next => cases h
  next d hRead =>
      refine ⟨d, hRead, ?_⟩
      cases hLink : d.link with
      | error ps =>
          rw [hLink] at h
          cases h
      | ok j =>
          rw [hLink] at h
          exact congrArg Except.ok (Except.ok.inj h)

/-- An image that is loaded has traces of its own methods only. -/
theorem linked_of_load {bytes : List UInt8} {i : Image} (h : Image.load bytes = .ok i) :
    i.Linked := by
  obtain ⟨d, _, hLink⟩ := load_eq_ok h
  exact linked_of_link hLink

/-- A method of an image is known by its reference. -/
theorem Linked.method_inj {i : Image} (h : i.Linked) {m n : Method} (hm : m ∈ i.world.methods)
    (hn : n ∈ i.world.methods) (hRef : m.ref = n.ref) : m = n :=
  List.inj_on_of_nodup_map h.refs hm hn hRef

end Image

end TraceJit
