import TraceJit.Compiler.SettingsFile
import TraceJit.Proofs.Toml.Document

/-!
What becomes of the keys of a settings file. Every key of a file that is accepted is that of a
section or gives a setting, and every setting that no key gives has its default. A setting that is
given holds a value from the file, unless it has a default of its own and its key is spelled in
another case: then the value is read and dropped.
-/

namespace TraceJit

open Toml

namespace Toml

/-- The entries whose names are the given one up to case. -/
def Table.spelled (t : Table) (name : String) : Table := t.filter fun e => sameFolded name e.1

/-- The entries of a table; none of any other value. -/
def Value.entries : Value → Table
  | .table t => t
  | _ => []

end Toml

namespace Setting

def path (k : Setting) : Path := [k.section_, k.name]

/-- The setting has a default that is not zero, which gives way only to the exact key. -/
def guarded : Setting → Bool
  | maxTraceInsns | lookupCacheSize | codeCacheBase | codeCacheBytes | maxFragmentBytes => true
  | print | include_ | methods | jobs => false

instance : (k : Setting) → DecidableEq k.Kind
  | print | include_ => inferInstanceAs (DecidableEq Bool)
  | methods => inferInstanceAs (DecidableEq (List String))
  | codeCacheBase => inferInstanceAs (DecidableEq UInt64)
  | maxTraceInsns | lookupCacheSize | codeCacheBytes | maxFragmentBytes | jobs =>
    inferInstanceAs (DecidableEq Int)

/-- What the value of a key says about a setting. -/
def reads (k : Setting) (v : Value) : Option k.Kind := (k.shape k.path v).map (·.1)

end Setting

def Settings.get (s : Settings) : (k : Setting) → k.Kind
  | .maxTraceInsns => s.maxTraceInsns
  | .print => s.print
  | .lookupCacheSize => s.lookupCacheSize
  | .include_ => s.filter.include_
  | .methods => s.filter.methods
  | .codeCacheBase => s.codeCacheBase
  | .codeCacheBytes => s.codeCacheBytes
  | .maxFragmentBytes => s.maxFragmentBytes
  | .jobs => s.jobs

/-- The keys that stand for a setting, with their values. -/
def Toml.Document.given (d : Document) (k : Setting) : List (Path × Value) :=
  (d.root.spelled k.section_).flatMap fun s =>
    (s.2.entries.spelled k.name).map fun e => ([s.1, e.1], e.2)

/-! ### Reading a setting -/

namespace Toml.Shape

theorem text_apply (p q : Path) : Shape.text p = Shape.text q := by
  funext v
  cases v <;> rfl

/-- Texts use no paths below their own. -/
theorem flatten_used_texts {p : Path} {vs : List Value} {read : List (String × List Path)}
    (h : vs.mapM (Shape.text p) = some read) : (read.map (·.2)).flatten = [] := by
  induction vs generalizing read with
  | nil =>
      cases h
      rfl
  | cons v vs ih =>
      rw [List.mapM_cons] at h
      obtain ⟨⟨s, used⟩, hFirst, h⟩ := Option.bind_eq_some_iff.mp h
      obtain ⟨more, hRest, hEnd⟩ := Option.bind_eq_some_iff.mp h
      cases hEnd
      cases v with
      | text =>
          cases hFirst
          simpa using ih hRest
      | _ => cases hFirst

theorem used_list_text {p : Path} {v : Value} {xs : List String} {used : List Path}
    (h : Shape.list .text p v = some (xs, used)) : used = [] := by
  have hItems : ∀ vs : List Value, (vs.mapM (Shape.text p)).bind (fun read =>
      some (read.map (·.1), (read.map (·.2)).flatten)) = some (xs, used) → used = [] := by
    intro vs hRead
    obtain ⟨read, hTexts, hEnd⟩ := Option.bind_eq_some_iff.mp hRead
    cases hEnd
    exact flatten_used_texts hTexts
  cases v with
  | array vs => exact hItems vs h
  | series ts => exact hItems (ts.map .table) h
  | _ => cases h

/-- Texts are read alike at every path, and no path inside of them is used. -/
theorem list_text_apply (p q : Path) (v : Value) :
    Shape.list .text p v = ((Shape.list .text q v).map (·.1)).map (·, []) := by
  have hSame : Shape.list .text p v = Shape.list .text q v := by
    unfold Shape.list
    rw [text_apply p q]
  rw [hSame]
  cases hRead : Shape.list .text q v with
  | none => rfl
  | some r =>
      obtain ⟨xs, used⟩ := r
      rw [used_list_text hRead]
      rfl

end Toml.Shape

namespace SettingsText

def get (s : SettingsText) : (k : Setting) → k.Kind
  | .maxTraceInsns => s.maxTraceInsns
  | .print => s.print
  | .lookupCacheSize => s.lookupCacheSize
  | .include_ => s.include_
  | .methods => s.methods
  | .codeCacheBase => s.codeCacheBase
  | .codeCacheBytes => s.codeCacheBytes
  | .maxFragmentBytes => s.maxFragmentBytes
  | .jobs => s.jobs

theorem get_set (s : SettingsText) (k : Setting) (x : k.Kind) : (s.set k x).get k = x := by
  cases k <;> rfl

theorem get_set_other (s : SettingsText) {k k' : Setting} (x : k'.Kind) (h : k' ≠ k) :
    (s.set k' x).get k = s.get k := by
  cases k' <;> cases k <;> trivial

theorem shape_eq :
    shape = Shape.record {} (sections.map fun e => section_ e.1 (e.2.map fieldOf)) := rfl

/-- A setting with a default of its own gives way only to its exact key. -/
theorem get_settings (s : SettingsText) (d : Document) (k : Setting) :
    (s.settings d).get k =
      if k.guarded = true then
        if d.defines k.path = true then s.get k else ({} : Settings).get k
      else s.get k := by
  cases k <;> rfl

/-- The other settings have zero for their default. -/
theorem get_zero {k : Setting} (h : k.guarded = false) :
    ({} : SettingsText).get k = ({} : Settings).get k := by
  cases k with
  | print | include_ | methods | jobs => rfl
  | maxTraceInsns | lookupCacheSize | codeCacheBase | codeCacheBytes | maxFragmentBytes => cases h

/-- No two settings share a name. -/
theorem name_inj {k k' : Setting} (h : k'.name = k.name) : k' = k := by
  cases k' <;> cases k <;> simp_all [Setting.name]

theorem mem_iff_of_mem_sections {e : String × List Setting} (h : e ∈ sections) {k : Setting} :
    k ∈ e.2 ↔ k.section_ = e.1 := by
  simp only [sections, List.mem_cons, List.not_mem_nil, or_false] at h
  obtain rfl | rfl | rfl | rfl := h <;> cases k <;> simp [Setting.section_]

theorem exists_section_eq {e : String × List Setting} (h : e ∈ sections) :
    ∃ k : Setting, k.section_ = e.1 := by
  simp only [sections, List.mem_cons, List.not_mem_nil, or_false] at h
  obtain rfl | rfl | rfl | rfl := h
  · exact ⟨.print, rfl⟩
  · exact ⟨.methods, rfl⟩
  · exact ⟨.codeCacheBase, rfl⟩
  · exact ⟨.jobs, rfl⟩

theorem exists_mem_sections (k : Setting) : ∃ ks, (k.section_, ks) ∈ sections := by
  cases k <;> simp [sections, Setting.section_]

/-- No two sections share a name, whatever the case. -/
theorem fieldsApart_sections :
    FieldsApart (sections.map fun e => section_ e.1 (e.2.map fieldOf)) := by
  unfold FieldsApart
  decide +kernel

/-- Nor do two settings of one section. -/
theorem fieldsApart_of_mem_sections :
    ∀ e ∈ sections, FieldsApart (e.2.map fieldOf) := by
  unfold FieldsApart
  decide +kernel

/-- A setting is read alike at every path, and no path inside of it is used. -/
theorem shape_apply (k : Setting) (p : Path) (v : Value) :
    k.shape p v = (k.reads v).map (·, []) := by
  cases k with
  | methods => exact Shape.list_text_apply p _ v
  | _ => cases v <;> rfl

/-- Reading a setting changes that setting alone. -/
theorem read_fieldOf {k : Setting} {p : Path} {v : Value} {a b : SettingsText} {more : List Path}
    (h : (fieldOf k).read p v a = some (b, more)) :
    ∃ x, k.reads v = some x ∧ b = a.set k x ∧ more = [] := by
  obtain ⟨x, hx, rfl⟩ := read_field_eq_some h
  rw [shape_apply, Option.map_eq_some_iff] at hx
  obtain ⟨y, hy, hPair⟩ := hx
  cases hPair
  exact ⟨x, hy, rfl, rfl⟩

/-- Values of a setting one after the other, on top of what there is. -/
def readAll (k : Setting) (x : k.Kind) (entries : Table) : k.Kind :=
  (entries.spelled k.name).foldl (fun x e => (k.reads e.2).getD x) x

/-- What a setting holds once a key was read. -/
theorem get_of_read_fieldOf {k k' : Setting} {p : Path} {v : Value} {a b : SettingsText}
    {more : List Path} (h : (fieldOf k').read p v a = some (b, more)) :
    b.get k = if k'.name = k.name then (k.reads v).getD (a.get k) else a.get k := by
  obtain ⟨x, hx, rfl, _⟩ := read_fieldOf h
  split
  next hName =>
      obtain rfl := name_inj hName
      rw [get_set, hx, Option.getD_some]
  next hName => exact get_set_other a x fun hSame => hName (congrArg _ hSame)

/-- A section changes its own settings, each by the entries that stand for it, and no others. -/
theorem get_of_section {e : String × List Setting} (he : e ∈ sections) (k : Setting)
    {s a : SettingsText} {p : Path} {v : Value} {used : List Path}
    (h : Shape.record s (e.2.map fieldOf) p v = some (a, used)) :
    a.get k = if e.1 = k.section_ then readAll k (s.get k) v.entries else s.get k := by
  have hFields : ∀ f ∈ e.2.map fieldOf, ∃ k' ∈ e.2, fieldOf k' = f :=
    fun f hf => List.mem_map.mp hf
  cases v with
  | table t =>
      split
      next hSection =>
          have hOwn : k.name ∈ (e.2.map fieldOf).map (·.name) :=
            List.mem_map.mpr ⟨_, List.mem_map_of_mem
              ((mem_iff_of_mem_sections he).mpr hSection.symm), rfl⟩
          refine record_get (·.get k) (fun v x => (k.reads v).getD x)
            (fieldsApart_of_mem_sections e he) hOwn (fun f hf p v a b more hRead => ?_) h
          obtain ⟨k', _, rfl⟩ := hFields f hf
          exact get_of_read_fieldOf hRead
      next hSection =>
          -- No field of another section touches the setting.
          refine record_induct (P := fun _ (b : SettingsText) _ => b.get k = s.get k) rfl
            (fun _ _ _ _ _ hDone _ => hDone) (fun _ name v b _ f c more hDone hFind hRead => ?_) h
          obtain ⟨hf, _⟩ := (fieldsApart_of_mem_sections e he).findField_eq_some_iff.mp hFind
          obtain ⟨k', hk', rfl⟩ := hFields f hf
          obtain ⟨x, _, rfl, _⟩ := read_fieldOf hRead
          rw [get_set_other b x, hDone]
          rintro rfl
          exact hSection ((mem_iff_of_mem_sections he).mp hk').symm
  | _ => cases h

/-! ### Reading a document -/

section Document

variable {d : Document} {s : SettingsText} {used : List Path}

/-- What is read about a setting is what the values of its keys make of zero, in order. -/
theorem get_of_read (h : d.read? shape = some (s, used)) (k : Setting) :
    s.get k = (d.given k).foldl (fun x e => (k.reads e.2).getD x) (({} : SettingsText).get k) := by
  obtain ⟨ks, hks⟩ := exists_mem_sections k
  have hOwn : k.section_ ∈ (sections.map fun e => section_ e.1 (e.2.map fieldOf)).map (·.name) :=
    List.mem_map.mpr ⟨_, List.mem_map_of_mem hks, rfl⟩
  rw [shape_eq] at h
  rw [record_get (·.get k) (fun v x => readAll k x v.entries) fieldsApart_sections hOwn
    (fun f hf p v a b more hRead => ?_) h, Document.given, List.foldl_flatMap]
  · simp only [List.foldl_map]
    rfl
  · obtain ⟨e, he, rfl⟩ := List.mem_map.mp hf
    exact get_of_section he k hRead

/-- The keys that stand for a setting: those of its section and name, up to case. -/
theorem mem_given {k : Setting} {p : Path} {v : Value} :
    (p, v) ∈ d.given k ↔ ∃ outer t inner, (outer, Value.table t) ∈ d.root ∧
      sameFolded k.section_ outer = true ∧ (inner, v) ∈ t ∧ sameFolded k.name inner = true ∧
        p = [outer, inner] := by
  simp only [Document.given, Table.spelled, List.mem_flatMap, List.mem_map, List.mem_filter]
  constructor
  · rintro ⟨⟨outer, w⟩, ⟨hOuter, hSection⟩, ⟨inner, _⟩, ⟨hInner, hName⟩, hEnd⟩
    cases hEnd
    cases w with
    | table t => exact ⟨outer, t, inner, hOuter, hSection, hInner, hName, rfl⟩
    | _ => cases hInner
  · rintro ⟨outer, t, inner, hOuter, hSection, hInner, hName, rfl⟩
    exact ⟨(outer, .table t), ⟨hOuter, hSection⟩, (inner, v), ⟨hInner, hName⟩, rfl⟩

/-- In a document that is read every key of a setting has a value for it. -/
theorem reads_of_given (h : d.read? shape = some (s, used)) {k : Setting} {e : Path × Value}
    (he : e ∈ d.given k) : ∃ x, k.reads e.2 = some x := by
  obtain ⟨outer, t, inner, hOuter, hSection, hInner, hName, _⟩ := mem_given.mp he
  obtain ⟨ks, hks⟩ := exists_mem_sections k
  rw [shape_eq] at h
  obtain ⟨a, b, more, hTable⟩ := exists_read_of_record fieldsApart_sections h hOuter
    (List.mem_map_of_mem hks) hSection
  obtain ⟨a', b', more', hValue⟩ := exists_read_of_record (fieldsApart_of_mem_sections _ hks) hTable
    hInner (List.mem_map_of_mem ((mem_iff_of_mem_sections hks).mpr rfl)) hName
  obtain ⟨x, hx, _⟩ := read_fieldOf hValue
  exact ⟨x, hx⟩

/-- A path that was used is that of a section or gives a setting. -/
theorem given_of_used (h : d.read? shape = some (s, used)) {p : Path} (hp : p ∈ used) :
    (∃ k : Setting, ∃ name, p = [name] ∧ sameFolded k.section_ name = true) ∨
      ∃ k v, (p, v) ∈ d.given k := by
  rw [shape_eq] at h
  obtain ⟨outer, v, hOuter, f, hf, hSection, hp⟩ := mem_used_record fieldsApart_sections h hp
  obtain ⟨e, he, rfl⟩ := List.mem_map.mp hf
  rcases hp with rfl | ⟨a, b, more, hTable, hp⟩
  · obtain ⟨k, hk⟩ := exists_section_eq he
    exact .inl ⟨k, outer, rfl, hk ▸ hSection⟩
  · cases v with
    | table t =>
        obtain ⟨inner, w, hInner, g, hg, hName, hp⟩ :=
          mem_used_record (fieldsApart_of_mem_sections _ he) hTable hp
        obtain ⟨k, hk, rfl⟩ := List.mem_map.mp hg
        have hk := (mem_iff_of_mem_sections he).mp hk
        rcases hp with rfl | ⟨a', b', more', hValue, hp⟩
        · exact .inr ⟨k, w, mem_given.mpr
            ⟨outer, t, inner, hOuter, hk ▸ hSection, hInner, hName, rfl⟩⟩
        · obtain ⟨_, _, _, rfl⟩ := read_fieldOf hValue
          cases hp
    | _ => cases hTable

/-- What was read about a setting is one of its values, if it has any. -/
theorem reads_get (h : d.read? shape = some (s, used)) {k : Setting} (hGiven : d.given k ≠ []) :
    ∃ e ∈ d.given k, k.reads e.2 = some (s.get k) := by
  rw [get_of_read h]
  exact exists_mem_foldl_getD (fun e he => reads_of_given h he) hGiven _

end Document

end SettingsText

/-! ### Accepted files -/

namespace Toml.Document

variable {bytes : List UInt8} {d : Document}

/-- Every key is that of a section or gives a setting. -/
def Accounted (d : Document) : Prop :=
  ∀ p ∈ d.keys, (∃ k : Setting, ∃ name, p = [name] ∧ sameFolded k.section_ name = true) ∨
    ∃ k v, (p, v) ∈ d.given k

/-- No key of an accepted document has more than two parts. -/
theorem Accounted.length_le (h : d.Accounted) {p : Path} (hp : p ∈ d.keys) : p.length ≤ 2 := by
  rcases h p hp with ⟨_, name, rfl, _⟩ | ⟨k, v, hGiven⟩
  · simp
  · obtain ⟨outer, t, inner, _, _, _, _, rfl⟩ := SettingsText.mem_given.mp hGiven
    simp

/-- What gives a setting is a key: the keys that cover its path have no room for other names. -/
theorem Accounted.mem_keys_of_given (h : d.Accounted) (hParse : parse? bytes = some d)
    {k : Setting} {e : Path × Value} (he : e ∈ d.given k) : e.1 ∈ d.keys := by
  obtain ⟨outer, t, inner, hOuter, _, hInner, _, hPath⟩ := SettingsText.mem_given.mp he
  obtain ⟨more, hMore, hSub⟩ := (kept_of_parse hParse).1 [outer, inner]
    ⟨_, hOuter, _, hInner, trivial⟩
  have hLength : more.length ≤ [inner].length := by simpa using h.length_le hMore
  rwa [hPath, hSub.eq_of_length_le hLength]

theorem mem_given_path {k : Setting} {v : Value} : (k.path, v) ∈ d.given k ↔
    ∃ t, (k.section_, Value.table t) ∈ d.root ∧ (k.name, v) ∈ t := by
  rw [SettingsText.mem_given]
  constructor
  · rintro ⟨outer, t, inner, hOuter, _, hInner, _, hPath⟩
    cases hPath
    exact ⟨t, hOuter, hInner⟩
  · rintro ⟨t, hOuter, hInner⟩
    exact ⟨_, t, _, hOuter, sameFolded_iff.mpr rfl, hInner, sameFolded_iff.mpr rfl, rfl⟩

theorem Accounted.exists_given (h : d.Accounted) {k : Setting} (hKey : k.path ∈ d.keys) :
    ∃ v, (k.path, v) ∈ d.given k := by
  rcases h _ hKey with ⟨_, _, hName, _⟩ | ⟨k', v, hGiven⟩
  · cases hName
  · obtain ⟨outer, t, inner, hOuter, _, hInner, _, hPath⟩ := SettingsText.mem_given.mp hGiven
    cases hPath
    exact ⟨v, mem_given_path.mpr ⟨t, hOuter, hInner⟩⟩

/-- The exact path of a setting leads to a value just where it is a key. -/
theorem Accounted.defines_path_iff (h : d.Accounted) (hParse : parse? bytes = some d)
    {k : Setting} : d.defines k.path = true ↔ k.path ∈ d.keys := by
  rw [defines, Setting.path, Table.defines_pair_iff]
  constructor
  · rintro ⟨t, v, hOuter, hInner⟩
    have hGiven : (k.path, v) ∈ d.given k :=
      mem_given_path.mpr ⟨t, Table.mem_of_lookup hOuter, Table.mem_of_lookup hInner⟩
    exact h.mem_keys_of_given hParse hGiven
  · intro hKey
    obtain ⟨v, hGiven⟩ := h.exists_given hKey
    obtain ⟨t, hOuter, hInner⟩ := mem_given_path.mp hGiven
    obtain ⟨w, hw⟩ := Option.isSome_iff_exists.mp (Table.isSome_lookup_of_mem hInner)
    exact ⟨t, w, Table.lookup_of_mem (kept_of_parse hParse).2 hOuter, hw⟩

end Toml.Document

/-- The value of a file counts for the setting: a default that is not zero gives way only to the
exact key. -/
def Setting.Heeded (k : Setting) (d : Document) : Prop := k.guarded = true → k.path ∈ d.keys

namespace Settings

variable {bytes : List UInt8} {s : Settings}

/-- What it takes to load settings. -/
theorem load_eq_ok (h : load bytes = .ok s) : ∃ d t used, Document.parse? bytes = some d ∧
    d.read? SettingsText.shape = some (t, used) ∧ d.unused used = [] ∧ t.settings d = s := by
  unfold load at h
  split at h
  next => cases h
  next t d hText =>
      dsimp only at h
      split at h
      next =>
          obtain ⟨used, hParse, hRead, hUnused⟩ := read_eq_ok hText
          exact ⟨d, t, used, hParse, hRead, hUnused, Except.ok.inj h⟩
      next => cases h

/-- Where nothing is left over, every key is a section or gives a setting. -/
theorem accounted_of_unused {d : Document} {t : SettingsText} {used : List Path}
    (hRead : d.read? SettingsText.shape = some (t, used)) (hUnused : d.unused used = []) :
    d.Accounted := by
  intro p hp
  have hUsed : p ∈ used := by
    simpa using List.filter_eq_nil_iff.mp hUnused p hp
  exact SettingsText.given_of_used hRead hUsed

/-- Every key of an accepted file is that of a section or gives a setting. A setting without a key
has its default. One that is given holds a value from the file, or its default where that gives way
to the exact key only and this key is missing. -/
theorem load_accounts (h : load bytes = .ok s) : ∃ d, Document.parse? bytes = some d ∧
    d.Accounted ∧
    ∀ k : Setting, (∀ e ∈ d.given k, e.1 ∈ d.keys) ∧
      (d.given k = [] → s.get k = ({} : Settings).get k) ∧
      (d.given k ≠ [] → k.Heeded d → ∃ e ∈ d.given k, k.reads e.2 = some (s.get k)) ∧
      (¬k.Heeded d → s.get k = ({} : Settings).get k) := by
  obtain ⟨d, t, used, hParse, hRead, hUnused, rfl⟩ := load_eq_ok h
  have hAccounted := accounted_of_unused hRead hUnused
  have hDropped : ∀ k : Setting, ¬k.Heeded d → (t.settings d).get k = ({} : Settings).get k := by
    intro k hHeeded
    obtain ⟨hGuarded, hMissing⟩ := Classical.not_imp.mp hHeeded
    rw [← hAccounted.defines_path_iff hParse] at hMissing
    rw [SettingsText.get_settings, if_pos hGuarded, if_neg hMissing]
  have hTaken : ∀ k : Setting, k.Heeded d → (t.settings d).get k = t.get k := by
    intro k hHeeded
    rw [SettingsText.get_settings]
    split
    next hGuarded =>
        rw [if_pos ((hAccounted.defines_path_iff hParse).mpr (hHeeded hGuarded))]
    next => rfl
  refine ⟨d, hParse, hAccounted, fun k => ⟨fun e he => hAccounted.mem_keys_of_given hParse he,
    fun hNone => ?_, fun hGiven hHeeded => ?_, hDropped k⟩⟩
  · by_cases hHeeded : k.Heeded d
    · -- A setting with a default of its own would be given by its exact key.
      have hPlain : k.guarded = false := by
        rw [← Bool.not_eq_true]
        intro hGuarded
        obtain ⟨v, hGiven⟩ := hAccounted.exists_given (hHeeded hGuarded)
        rw [hNone] at hGiven
        cases hGiven
      rw [hTaken k hHeeded, SettingsText.get_of_read hRead, hNone]
      exact SettingsText.get_zero hPlain
    · exact hDropped k hHeeded
  · rw [hTaken k hHeeded]
    exact SettingsText.reads_get hRead hGiven

/-- A file with keys in several spellings. -/
def mixedBytes : List UInt8 :=
  "[JIT]\nPrint = true\n[jit]\nmax_trace_insns = 7\nLOOKUP_CACHE_SIZE = 9\n".toUTF8.data.toList

/-- A key in another case is heeded where its setting has no default of its own. -/
theorem load_accounts_mixed :
    load mixedBytes = .ok { print := true, maxTraceInsns := 7 } ∧
      ∃ d, Document.parse? mixedBytes = some d ∧ d.Accounted ∧
        (∃ e ∈ d.given .print, e.1 ∈ d.keys ∧ Setting.print.reads e.2 = some true) := by
  have hLoad : load mixedBytes = .ok { print := true, maxTraceInsns := 7 } := by decide +kernel
  obtain ⟨d, hParse, hAccounted, hAll⟩ := load_accounts hLoad
  obtain ⟨hKeys, hDefault, hTaken, _⟩ := hAll .print
  have hGiven : d.given .print ≠ [] := by
    intro hNone
    cases hDefault hNone
  obtain ⟨e, he, hReads⟩ := hTaken hGiven nofun
  exact ⟨hLoad, d, hParse, hAccounted, e, he, hKeys e he, hReads⟩

/-- A file with a key in capitals. -/
def capitalBytes : List UInt8 := "[jit]\nMAX_TRACE_INSNS = 5\n".toUTF8.data.toList

/-- The value under a key in capitals is read and then dropped. -/
theorem load_drops_capitals :
    load capitalBytes = .ok {} ∧
      ∃ d, Document.parse? capitalBytes = some d ∧
        ∃ e ∈ d.given .maxTraceInsns, e.1 ∈ d.keys ∧
          Setting.maxTraceInsns.reads e.2 = some (get { maxTraceInsns := 5 } .maxTraceInsns) ∧
            Setting.maxTraceInsns.reads e.2 ≠ some (get {} .maxTraceInsns) := by
  have hGiven : (Document.parse? capitalBytes).any (fun d => (d.given .maxTraceInsns).any fun e =>
      d.keys.contains e.1 && decide (Setting.maxTraceInsns.reads e.2 =
        some (get { maxTraceInsns := 5 } .maxTraceInsns))) = true := by
    decide +kernel
  obtain ⟨d, hParse, hGiven⟩ := (Option.any_eq_true _ _).mp hGiven
  obtain ⟨e, he, hRead⟩ := List.any_eq_true.mp hGiven
  rw [Bool.and_eq_true, List.contains_iff_mem, decide_eq_true_iff] at hRead
  refine ⟨by decide +kernel, d, hParse, e, he, hRead.1, hRead.2, ?_⟩
  rw [hRead.2]
  decide

end Settings

end TraceJit
