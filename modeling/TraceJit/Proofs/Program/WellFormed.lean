import Mathlib.Data.List.Forall2
import TraceJit.Proofs.Graph.TraceEnds
import TraceJit.Proofs.Program.Image

/-!
Which descriptions become images, and what such an image holds. A description is linked exactly if
its declarations are well formed and everything that is referred to is declared. The image then has
what the description lists, in the same order, and no trace of it is ever turned down for want of
instructions.
-/

namespace TraceJit

theorem forall₂_flatten_map {α β : Type} {f : α → List β} {R : α → β → Prop} {l : List α}
    (h : ∀ x ∈ l, ∃ y, f x = [y] ∧ R x y) : List.Forall₂ R l (l.map f).flatten := by
  induction l with
  | nil => exact .nil
  | cons x l ih =>
      rw [List.forall_mem_cons] at h
      obtain ⟨⟨y, hOne, hy⟩, hRest⟩ := h
      rw [List.map_cons, List.flatten_cons, hOne]
      exact .cons hy (ih hRest)

/-! ### Well-formed descriptions -/

/-- A native method has no code, and the code of any other can be read. -/
def MethodText.Readable (m : MethodText) : Prop :=
  if m.native then Text.allBlank m.code = true else ∃ units, CodeText.parse m.code = .ok units

/-- A method is accepted exactly if its code can be read. -/
theorem MethodText.problems_eq_nil_iff {m : MethodText} {descriptor : String} :
    m.problems descriptor = [] ↔ m.Readable := by
  unfold problems Readable
  cases m.native with
  | true => simp
  | false => cases CodeText.parse m.code <;> simp

theorem MethodText.parse_eq_ok_iff {m : MethodText} {units : List UInt16} (h : m.Readable)
    (hNative : m.native = false) : CodeText.parse m.code = .ok units ↔ m.units = units := by
  rw [Readable, hNative] at h
  obtain ⟨us, hParse⟩ := h
  simp [MethodText.units, hNative, hParse]

namespace ImageText

/-- Some class of the description has the method `m`, under this reference. -/
def Describes (d : ImageText) (ref : String) (m : MethodText) : Prop :=
  ∃ c ∈ d.classes, m ∈ c.methods ∧ m.ref c.descriptor = ref

/-- Classes and methods are well formed by themselves, and none is declared twice. -/
structure Declared (d : ImageText) : Prop where
  named : ∀ c ∈ d.classes, Text.allBlank c.descriptor = false
  classesOnce : (d.classes.map (·.descriptor)).Nodup
  readable : ∀ c ∈ d.classes, ∀ m ∈ c.methods, m.Readable
  methodsOnce : (d.classes.flatMap refs).Nodup

/-- The trace goes through a method that has code, and each of its runs starts in that code and
goes somewhere. -/
structure Follows (d : ImageText) (t : TraceText) (m : MethodText) (units : List UInt16) : Prop
    where
  described : d.Describes t.method m
  native : m.native = false
  code : CodeText.parse m.code = .ok units
  runs : t.runs ≠ []
  counts : ∀ r ∈ t.runs, r.count ≠ 0
  starts : ∀ r ∈ t.runs, r.start.toNat < units.length

/-- Everything that is referred to is described. -/
structure Closed (d : ImageText) : Prop where
  supers : ∀ c ∈ d.classes, c.super ≠ "" → ∃ s ∈ d.classes, s.descriptor = c.super
  vtables : ∀ c ∈ d.classes, ∀ ref ∈ c.vtable, ∃ m, d.Describes ref m
  resolved : ∀ ref ∈ d.resolved, ref ≠ "" → ∃ m, d.Describes ref m
  traces : ∀ t ∈ d.traces, ∃ m units, d.Follows t m units

/-- Classes are accepted exactly if they are declared well. -/
theorem declarationProblems_eq_nil_iff_declared {d : ImageText} :
    declarationProblems 0 [] [] d.classes = [] ↔ d.Declared := by
  rw [declarationProblems_eq_nil_iff]
  simp only [List.not_mem_nil, not_false_eq_true, and_true, implies_true,
    MethodText.problems_eq_nil_iff]
  exact ⟨fun ⟨h₁, h₂, h₃, h₄⟩ => ⟨h₁, h₂, h₃, h₄⟩, fun h => ⟨h.1, h.2, h.3, h.4⟩⟩

/-- Where names are good and different, all classes count. -/
theorem countedClasses_eq {seen : List String} {cs : List ClassText}
    (hNamed : ∀ c ∈ cs, Text.allBlank c.descriptor = false ∧ c.descriptor ∉ seen)
    (hOnce : (cs.map (·.descriptor)).Nodup) : countedClasses seen cs = cs := by
  induction cs generalizing seen with
  | nil => rfl
  | cons c cs ih =>
      rw [List.forall_mem_cons] at hNamed
      rw [List.map_cons, List.nodup_cons] at hOnce
      obtain ⟨⟨hBlank, hSeen⟩, hLater⟩ := hNamed
      have hRest : ∀ x ∈ cs, Text.allBlank x.descriptor = false ∧
          x.descriptor ∉ c.descriptor :: seen := by
        intro x hx
        refine ⟨(hLater x hx).1, ?_⟩
        rw [List.mem_cons, not_or]
        exact ⟨fun hEq => hOnce.1 (hEq ▸ List.mem_map_of_mem hx), (hLater x hx).2⟩
      simp [countedClasses, hBlank, hSeen, ih hRest hOnce.2]

section Lookup

variable {d : ImageText} (h : d.Declared)
include h

theorem Declared.counted_eq : d.counted = d.classes :=
  countedClasses_eq (fun c hc => ⟨h.named c hc, List.not_mem_nil⟩) h.classesOnce

theorem Declared.mem_descriptors {name : String} :
    name ∈ d.descriptors ↔ ∃ c ∈ d.classes, c.descriptor = name := by
  rw [descriptors, h.counted_eq, List.mem_map]

/-- The methods of an image are those described. -/
theorem Declared.mem_methods {ref : String} {m : MethodText} :
    (ref, m) ∈ d.methods ↔ d.Describes ref m := by
  simp only [methods, h.counted_eq, List.mem_flatMap, List.mem_map, Prod.mk.injEq, Describes]
  constructor
  · rintro ⟨c, hc, m, hm, rfl, rfl⟩
    exact ⟨c, hc, hm, rfl⟩
  · rintro ⟨c, hc, hm, rfl⟩
    exact ⟨c, hc, m, hm, rfl, rfl⟩

theorem Declared.declares_iff {ref : String} : d.declares ref = true ↔ ∃ m, d.Describes ref m := by
  rw [declares, List.lookup_isSome_iff]
  constructor
  · rintro ⟨⟨ref', m⟩, hm, hRef⟩
    obtain rfl : ref = ref' := by simpa using hRef
    exact ⟨m, h.mem_methods.mp hm⟩
  · rintro ⟨m, hm⟩
    exact ⟨(ref, m), h.mem_methods.mpr hm, beq_self_eq_true ref⟩

/-- A reference describes one method. -/
theorem Declared.describes_inj {ref : String} {m n : MethodText} (hm : d.Describes ref m)
    (hn : d.Describes ref n) : m = n := by
  have hKeys : (d.methods.map (·.1)).Nodup := by
    simp only [methods, h.counted_eq, List.map_flatMap, List.map_map]
    exact h.methodsOnce
  have hEq := List.inj_on_of_nodup_map hKeys (h.mem_methods.mpr hm) (h.mem_methods.mpr hn) rfl
  exact congrArg Prod.snd hEq

/-- A reference is looked up to the one method that has it. -/
theorem Declared.lookup_eq_some_iff {ref : String} {m : MethodText} :
    d.methods.lookup ref = some m ↔ d.Describes ref m := by
  constructor
  · intro hLookup
    obtain ⟨before, after, hSplit, _⟩ := List.lookup_eq_some_iff.mp hLookup
    apply h.mem_methods.mp
    simp [hSplit]
  · intro hm
    obtain ⟨n, hn⟩ := Option.isSome_iff_exists.mp (h.declares_iff.mpr ⟨m, hm⟩)
    obtain ⟨before, after, hSplit, _⟩ := List.lookup_eq_some_iff.mp hn
    have hOther : d.Describes ref n := h.mem_methods.mp (by simp [hSplit])
    rw [hn, h.describes_inj hOther hm]

/-- Supers and vtables are accepted exactly if what they name is described. -/
theorem Declared.linkProblems_eq_nil_iff :
    d.linkProblems = [] ↔
      ∀ c ∈ d.classes, (c.super ≠ "" → ∃ s ∈ d.classes, s.descriptor = c.super) ∧
        ∀ ref ∈ c.vtable, ∃ m, d.Describes ref m := by
  rw [linkProblems, List.flatMap_eq_nil_iff]
  apply forall₂_congr
  intro c hc
  have hOwn : d.descriptors.contains c.descriptor = true := by
    simpa using h.mem_descriptors.mpr ⟨c, hc, rfl⟩
  rw [if_pos hOwn, List.append_eq_nil_iff]
  apply and_congr
  · rw [← h.mem_descriptors]
    by_cases hNone : c.super = ""
    · simp [hNone]
    · simp [hNone]
  · apply flatten_mapIdx_eq_nil_iff
    intro i ref
    rw [← h.declares_iff]
    cases d.declares ref <;> simp

/-- A table of methods is accepted exactly if every entry is empty or described. -/
theorem Declared.resolvedProblems_eq_nil_iff :
    d.resolvedProblems = [] ↔ ∀ ref ∈ d.resolved, ref ≠ "" → ∃ m, d.Describes ref m := by
  apply flatten_mapIdx_eq_nil_iff
  intro i ref
  rw [← h.declares_iff]
  by_cases hNone : ref = ""
  · simp [hNone]
  · cases hDeclares : d.declares ref <;> simp [hNone]

end Lookup

/-- Runs are accepted if none is empty and each begins inside of the code. -/
theorem runProblem?_eq_none_iff {size index : Nat} {rs : List RunText} :
    runProblem? size index rs = none ↔
      (∀ r ∈ rs, r.count ≠ 0) ∧ ∀ r ∈ rs, r.start.toNat < size := by
  induction rs generalizing index with
  | nil => simp [runProblem?]
  | cons r rs ih =>
      rw [runProblem?, List.forall_mem_cons, List.forall_mem_cons]
      by_cases hEmpty : r.count = 0
      · simp [hEmpty]
      · by_cases hBeyond : size ≤ r.start.toNat
        · simp [hEmpty, hBeyond, Nat.not_lt.mpr hBeyond]
        · simp [hEmpty, hBeyond, Nat.not_le.mp hBeyond, ih]

/-- A trace is accepted exactly if it follows the code of a described method. -/
theorem Declared.traceProblem?_eq_none_iff {d : ImageText} (h : d.Declared) {t : TraceText} :
    d.traceProblem? t = none ↔ ∃ m units, d.Follows t m units := by
  have hReadable : ∀ {ref m}, d.Describes ref m → m.Readable := by
    rintro ref m ⟨c, hc, hm, _⟩
    exact h.readable c hc m hm
  constructor
  · intro hNone
    unfold traceProblem? at hNone
    split at hNone
    next => cases hNone
    next m hLookup =>
        have hm := h.lookup_eq_some_iff.mp hLookup
        simp only [ite_eq_iff, reduceCtorEq, and_false, false_or, Bool.not_eq_true,
          List.isEmpty_iff] at hNone
        obtain ⟨hNative, hRuns, hEach⟩ := hNone
        obtain ⟨hCounts, hStarts⟩ := runProblem?_eq_none_iff.mp hEach
        exact ⟨m, m.units, hm, hNative,
          (MethodText.parse_eq_ok_iff (hReadable hm) hNative).mpr rfl, hRuns, hCounts, hStarts⟩
  · rintro ⟨m, units, hFollows⟩
    have hUnits := (MethodText.parse_eq_ok_iff (hReadable hFollows.described)
      hFollows.native).mp hFollows.code
    have hRuns : t.runs.isEmpty = false := by simpa using hFollows.runs
    rw [traceProblem?, h.lookup_eq_some_iff.mpr hFollows.described]
    simp only [hFollows.native, hRuns, hUnits, Bool.false_eq_true, if_false]
    exact runProblem?_eq_none_iff.mpr ⟨hFollows.counts, hFollows.starts⟩

/-- Nothing is wrong with a description that is well formed and closed, and with no other. -/
theorem problems_eq_nil_iff {d : ImageText} : d.problems = [] ↔ d.Declared ∧ d.Closed := by
  simp only [problems, List.append_eq_nil_iff, declarationProblems_eq_nil_iff_declared, and_assoc]
  apply and_congr_right
  intro h
  rw [h.linkProblems_eq_nil_iff, h.resolvedProblems_eq_nil_iff, traceProblems_eq_nil_iff]
  simp only [h.traceProblem?_eq_none_iff]
  constructor
  · rintro ⟨hClasses, hResolved, hTraces⟩
    exact ⟨fun c hc => (hClasses c hc).1, fun c hc => (hClasses c hc).2, hResolved, hTraces⟩
  · intro hClosed
    exact ⟨fun c hc => ⟨hClosed.supers c hc, hClosed.vtables c hc⟩, hClosed.resolved,
      hClosed.traces⟩

def world (d : ImageText) : World := World.link (placeClasses d.base d.classes) [] d.resolved

/-- An image is what the description says, if nothing is wrong with it. -/
theorem link_eq_ok_iff {d : ImageText} {i : Image} :
    d.link = .ok i ↔ d.problems = [] ∧ i = ⟨d.world, d.linkTraces d.world⟩ := by
  rw [link]
  cases d.problems with
  | nil => simp [world, eq_comm]
  | cons p ps => simp

end ImageText

/-! ### What an image holds -/

/-- The slot holds what call sites see of the method with this reference. -/
def World.Holds (w : World) (ref : String) (slot : Option MethodInfo) : Prop :=
  ∃ m ∈ w.methods, m.ref = ref ∧ slot = some m.toMethodInfo

/-- The method is the described one, and its call sites are resolved through the tables of the
image. -/
structure Method.Realizes (m : Method) (w : World) (c : ClassText) (x : MethodText) : Prop where
  owner : m.owner = some c.descriptor
  name : m.name = x.name
  native : m.native = x.native
  slot : m.slot = x.slot
  addr : x.addr ≠ 0 → m.addr = x.addr
  code : if x.native then m.code = #[] else CodeText.parse x.code = .ok m.code.toList
  resolved : m.linkage.resolved = w.resolved
  noSuper : c.super = "" → m.linkage.superTable = []
  super : c.super ≠ "" → ∃ s ∈ w.classes, s.descriptor = c.super ∧ m.linkage.superTable = s.vtable

structure Class.Realizes (k : Class) (w : World) (c : ClassText) : Prop where
  descriptor : k.descriptor = c.descriptor
  super : k.super = if c.super = "" then none else some c.super
  vtable : List.Forall₂ w.Holds c.vtable k.vtable
  methods : List.Forall₂ (fun x m => Method.Realizes m w c x) c.methods k.methods

/-- The trace is the described one with this position. Of its runs, the last alone ends it. -/
structure Trace.Realizes (t : Trace) (w : World) (x : TraceText × Nat) : Prop where
  name : t.name = ImageText.traceName x.2 x.1
  method : t.method ∈ w.methods ∧ t.method.ref = x.1.method
  runs : t.runs = x.1.runs.mapIdx fun k r => ⟨r.start, r.count, k + 1 = x.1.runs.length⟩

/-- The image has what is described, in the same order, and nothing else. -/
structure Image.Realizes (i : Image) (d : ImageText) : Prop where
  classes : List.Forall₂ (fun c k => Class.Realizes k i.world c) d.classes i.world.classes
  loose : i.world.loose = []
  resolved : List.Forall₂ (fun ref slot => if ref = "" then slot = none else i.world.Holds ref slot)
    d.resolved i.world.resolved
  traces : List.Forall₂ (fun x t => Trace.Realizes t i.world x) d.traces.zipIdx i.traces

/-! ### Placing and linking -/

/-- The declaration is that of the described method, wherever it was placed. -/
structure MethodDecl.Declares (m : MethodDecl) (x : MethodText) : Prop where
  name : m.name = x.name
  code : m.code = x.units
  native : m.native = x.native
  slot : m.slot = x.slot
  addr : x.addr ≠ 0 → m.addr = x.addr

/-- The declaration is that of the described class. -/
structure ClassDecl.Declares (k : ClassDecl) (c : ClassText) : Prop where
  descriptor : k.descriptor = c.descriptor
  super : k.super = c.super
  vtable : k.vtable = c.vtable
  methods : List.Forall₂ (fun x m => MethodDecl.Declares m x) c.methods k.methods
  resolves : k.resolves = true

theorem MethodText.declares_place (x : MethodText) (free : UInt64) :
    (x.place free).1.Declares x := by
  unfold place
  split
  next hAddr => exact ⟨rfl, rfl, rfl, rfl, fun _ => rfl⟩
  next hAddr => exact ⟨rfl, rfl, rfl, rfl, fun h => absurd h hAddr⟩

theorem ImageText.declares_placeMethods (free : UInt64) (xs : List MethodText) :
    List.Forall₂ (fun x m => MethodDecl.Declares m x) xs (placeMethods free xs).1 := by
  induction xs generalizing free with
  | nil => exact .nil
  | cons x xs ih => exact .cons (x.declares_place free) (ih _)

/-- Placing classes keeps what they declare. -/
theorem ImageText.declares_placeClasses (free : UInt64) (cs : List ClassText) :
    List.Forall₂ (fun c k => ClassDecl.Declares k c) cs (placeClasses free cs) := by
  induction cs generalizing free with
  | nil => exact .nil
  | cons c cs ih =>
      exact .cons ⟨rfl, rfl, rfl, declares_placeMethods free c.methods, rfl⟩ (ih _)

namespace World

section Link

variable {classes : List ClassDecl} {resolved : List String}

theorem map_info_methods_link (classes : List ClassDecl) (resolved : List String) :
    (link classes [] resolved).methods.map (·.toMethodInfo) = infos classes [] := by
  simp only [methods, link, infos, List.map_append, List.map_flatMap, List.flatMap_map,
    List.map_map, List.map_nil]
  rfl

/-- A reference that some method has is found. -/
theorem holds_find? {ref : String} (hSome : ref ≠ "")
    (hRef : ref ∈ (link classes [] resolved).methods.map (·.ref)) :
    (link classes [] resolved).Holds ref (find? (infos classes []) ref) := by
  obtain ⟨m, hm, hEq⟩ := List.mem_map.mp hRef
  rw [find?, if_neg hSome, ← map_info_methods_link classes resolved, List.find?_map]
  cases hFind : (link classes [] resolved).methods.find? (fun m => m.ref == ref) with
  | none => exact absurd hEq (by simpa using List.find?_eq_none.mp hFind m hm)
  | some n =>
      have hn : n.ref = ref := by simpa using List.find?_some hFind
      exact ⟨n, List.mem_of_find?_eq_some hFind, hn, congrArg (Option.map _) hFind⟩

/-- A class that names a super class is linked to the first class of that name. -/
theorem exists_super {k : ClassDecl} (hSome : k.super ≠ "")
    (hSuper : k.super ∈ classes.map (·.descriptor)) :
    ∃ s ∈ classes, s.descriptor = k.super ∧
      (if k.super = "" then none else classes.find? (·.descriptor == k.super)) = some s := by
  obtain ⟨x, hx, hEq⟩ := List.mem_map.mp hSuper
  rw [if_neg hSome]
  cases hFind : classes.find? (·.descriptor == k.super) with
  | none => exact absurd hEq (by simpa using List.find?_eq_none.mp hFind x hx)
  | some s =>
      exact ⟨s, List.mem_of_find?_eq_some hFind, by simpa using List.find?_some hFind, rfl⟩

end Link

end World

namespace ImageText

theorem Describes.mem_refs {d : ImageText} {ref : String} {m : MethodText}
    (h : d.Describes ref m) : ref ∈ d.classes.flatMap refs := by
  obtain ⟨c, hc, hm, rfl⟩ := h
  exact List.mem_flatMap.mpr ⟨c, hc, List.mem_map_of_mem hm⟩

theorem Describes.ref_ne {d : ImageText} {ref : String} {m : MethodText}
    (h : d.Describes ref m) : ref ≠ "" := by
  obtain ⟨c, hc, hm, rfl⟩ := h
  simp [MethodText.ref]

section Realize

variable {d : ImageText}

/-- A described method is held under its reference. -/
theorem holds_of_describes {ref : String} {m : MethodText} (h : d.Describes ref m) :
    d.world.Holds ref (World.find? (World.infos (placeClasses d.base d.classes) []) ref) := by
  apply World.holds_find? h.ref_ne
  rw [methods_link_refs]
  exact h.mem_refs

theorem descriptors_placeClasses (free : UInt64) (cs : List ClassText) :
    (placeClasses free cs).map (·.descriptor) = cs.map (·.descriptor) := by
  induction cs generalizing free with
  | nil => rfl
  | cons c cs ih => exact congrArg (List.cons c.descriptor) (ih _)

/-- A method of the image is the one described. -/
theorem realizes_method {c : ClassText} {x : MethodText} {m : MethodDecl} {linkage : Linkage}
    (hReadable : x.Readable) (hPlaced : m.Declares x)
    (hResolved : linkage.resolved = d.world.resolved)
    (hNoSuper : c.super = "" → linkage.superTable = [])
    (hSuper : c.super ≠ "" →
      ∃ s ∈ d.world.classes, s.descriptor = c.super ∧ linkage.superTable = s.vtable) :
    (m.link (some c.descriptor) linkage).Realizes d.world c x where
  owner := rfl
  name := hPlaced.name
  native := hPlaced.native
  slot := hPlaced.slot
  addr := hPlaced.addr
  code := by
    change if x.native then m.code.toArray = #[] else CodeText.parse x.code = .ok m.code
    rw [hPlaced.code]
    cases hNative : x.native with
    | true => simp [MethodText.units, hNative]
    | false => exact (MethodText.parse_eq_ok_iff hReadable hNative).mpr rfl
  resolved := hResolved
  noSuper := hNoSuper
  super := hSuper

/-- The classes of the linked program are the described ones. -/
theorem realizes_classes (hDeclared : d.Declared) (hClosed : d.Closed) :
    List.Forall₂ (fun c k => Class.Realizes k d.world c) d.classes d.world.classes := by
  have hPlaced := (List.forall₂_and_left _ _).mpr
    ⟨fun c hc => hc, declares_placeClasses d.base d.classes⟩
  rw [world, World.link, List.forall₂_map_right_iff]
  refine hPlaced.imp ?_
  rintro c k ⟨hc, hk⟩
  have hSuper (hSome : c.super ≠ "") : ∃ s ∈ placeClasses d.base d.classes,
      s.descriptor = k.super ∧ (if k.super = "" then none else
        (placeClasses d.base d.classes).find? (·.descriptor == k.super)) = some s := by
    apply World.exists_super (hk.super ▸ hSome)
    rw [descriptors_placeClasses, hk.super]
    exact List.mem_map.mpr (hClosed.supers c hc hSome)
  refine ⟨hk.descriptor, ?_, ?_, ?_⟩
  · by_cases hNone : c.super = ""
    · simp [hk.super, hNone]
    · obtain ⟨s, _, hName, hFind⟩ := hSuper hNone
      simp only [hFind, Option.map_some, if_neg hNone]
      rw [hName, hk.super]
  · rw [hk.vtable, List.forall₂_map_right_iff, List.forall₂_same]
    intro ref hRef
    obtain ⟨m, hm⟩ := hClosed.vtables c hc ref hRef
    exact holds_of_describes hm
  · have hMethods := (List.forall₂_and_left _ _).mpr ⟨hDeclared.readable c hc, hk.methods⟩
    rw [List.forall₂_map_right_iff, hk.descriptor]
    refine hMethods.imp ?_
    rintro x m ⟨hReadable, hm⟩
    apply realizes_method hReadable hm
    · simp [hk.resolves, world, World.link]
    · intro hNone
      simp [hk.super, hNone]
    · intro hSome
      obtain ⟨s, hs, hName, hFind⟩ := hSuper hSome
      refine ⟨_, List.mem_map_of_mem hs, hName.trans hk.super, ?_⟩
      simp only [hFind, Option.map_some, Option.getD_some]

/-- The table of the image is the one described. -/
theorem realizes_resolved (hClosed : d.Closed) :
    List.Forall₂ (fun ref slot => if ref = "" then slot = none else d.world.Holds ref slot)
      d.resolved d.world.resolved := by
  rw [world, World.link, List.forall₂_map_right_iff, List.forall₂_same]
  intro ref hRef
  by_cases hNone : ref = ""
  · rw [if_pos hNone, World.find?, if_pos hNone]
  · obtain ⟨m, hm⟩ := hClosed.resolved ref hRef hNone
    rw [if_neg hNone]
    exact holds_of_describes hm

/-- Runs are kept as they are, and the last of them ends the trace. -/
theorem runs_eq_mapIdx (rs : List RunText) :
    runs rs = rs.mapIdx fun k r => ⟨r.start, r.count, k + 1 = rs.length⟩ := by
  fun_induction runs rs with
  | case1 => rfl
  | case2 r => rfl
  | case3 r rest hRest ih =>
      rw [ih, List.mapIdx_cons]
      have hMore : rest ≠ [] := hRest
      simp [hMore]

/-- The traces of the image are those described. -/
theorem realizes_traces (hClosed : d.Closed) :
    List.Forall₂ (fun x t => Trace.Realizes t d.world x) d.traces.zipIdx
      (d.linkTraces d.world) := by
  rw [linkTraces, List.mapIdx_eq_zipIdx_map]
  apply forall₂_flatten_map
  rintro ⟨t, k⟩ hMem
  obtain ⟨m, units, hFollows⟩ := hClosed.traces t (List.fst_mem_of_mem_zipIdx hMem)
  have hRef : t.method ∈ d.world.methods.map (·.ref) := by
    rw [world, methods_link_refs]
    exact hFollows.described.mem_refs
  obtain ⟨x, hx, hEq⟩ := List.mem_map.mp hRef
  cases hFind : d.world.method? t.method with
  | none => exact absurd hEq (by simpa using List.find?_eq_none.mp hFind x hx)
  | some n =>
      have hn : n ∈ d.world.methods := List.mem_of_find?_eq_some hFind
      have hName : n.ref = t.method := by simpa using List.find?_some hFind
      refine ⟨⟨traceName k t, n, runs t.runs⟩, ?_, rfl, ⟨hn, hName⟩, runs_eq_mapIdx t.runs⟩
      simp only [hFind, Option.map_some, Option.toList_some]

/-- No trace of the image is empty, and none of its runs is. -/
theorem accepted_of_mem_linkTraces (hClosed : d.Closed) {w : World} {t : Trace}
    (ht : t ∈ d.linkTraces w) : t.runs ≠ [] ∧ ∀ r ∈ t.runs, r.count ≠ 0 := by
  obtain ⟨_, x, hx, hRuns⟩ := mem_linkTraces ht
  obtain ⟨m, units, hFollows⟩ := hClosed.traces x hx
  rw [hRuns]
  refine ⟨runs_ne_nil hFollows.runs, ?_⟩
  rw [runs_eq_mapIdx]
  intro r hr
  obtain ⟨k, hk, rfl⟩ := List.mem_mapIdx.mp hr
  exact hFollows.counts _ (List.getElem_mem hk)

end Realize

end ImageText

/-- A description becomes an image exactly if its declarations are well formed and everything it
refers to is declared. The image is what was described, and none of its traces is turned down for
want of instructions, whatever the unit and the ceiling. -/
theorem ImageText.link_iff_declared_closed (d : ImageText) :
    ((∃ i, d.link = .ok i) ↔ d.Declared ∧ d.Closed) ∧
      ∀ i, d.link = .ok i → i.Realizes d ∧
        ∀ t ∈ i.traces, ∀ (u : WorkUnit) (ceiling : Int), u.trace = some t →
          ∀ stop, (u.buildTrace ceiling).stop? = some stop → stop.forNoInstructions = false := by
  constructor
  · rw [← problems_eq_nil_iff]
    constructor
    · rintro ⟨i, hLink⟩
      exact (link_eq_ok_iff.mp hLink).1
    · intro hNone
      exact ⟨_, link_eq_ok_iff.mpr ⟨hNone, rfl⟩⟩
  · intro i hLink
    obtain ⟨hNone, rfl⟩ := link_eq_ok_iff.mp hLink
    obtain ⟨hDeclared, hClosed⟩ := problems_eq_nil_iff.mp hNone
    refine ⟨⟨realizes_classes hDeclared hClosed, rfl, realizes_resolved hClosed,
      realizes_traces hClosed⟩, ?_⟩
    intro t ht u ceiling hTrace stop hStop
    obtain ⟨hRuns, hCounts⟩ := accepted_of_mem_linkTraces hClosed ht
    exact WorkUnit.buildTrace_stop hTrace hRuns hCounts hStop

/-- Two classes, the second of which extends the first and comes before it in the tables. -/
def ImageText.pair : ImageText :=
  { resolved := ["", "LSub;->run"],
    classes :=
      [{ descriptor := "LBase;", vtable := ["LSub;->run"],
         methods := [{ name := "hash", native := true }] },
       { descriptor := "LSub;", super := "LBase;", vtable := ["LBase;->hash"],
         methods := [{ name := "run", code := "0012 0x000e", addr := 0x100 }] }],
    traces := [{ method := "LSub;->run", runs := [⟨0, 2⟩, ⟨1, 1⟩] }] }

/-- References may go forward and backward, and the first entry of the table is left empty. -/
theorem ImageText.link_iff_declared_closed_pair :
    ∃ i, pair.link = .ok i ∧ i.Realizes pair ∧ pair.Declared ∧ pair.Closed := by
  have hNone : pair.problems = [] := by decide +kernel
  have hLink := link_eq_ok_iff.mpr ⟨hNone, rfl⟩
  have h := link_iff_declared_closed pair
  exact ⟨_, hLink, (h.2 _ hLink).1, h.1.mp ⟨_, hLink⟩⟩

end TraceJit
