import Mathlib.Data.List.Nodup
import TraceJit.Toml.Shape

/-!
Reading records from tables. Entries are taken in order, each by the field that its name stands for.
Where no two fields have names that differ in case only, a field takes exactly the entries whose
names are its own up to case, and what a part of the record holds in the end is told by the entries
of one field.
-/

namespace TraceJit.Toml

variable {α γ : Type} {fields : List (TableField α)} {path : Path} {zero a : α} {used : List Path}
  {entries : Table}

/-- What holds at the start of a fold and is kept by each of its steps holds at its end. -/
theorem foldlM_induct {β ε : Type} {step : β → ε → Option β} {P : List ε → β → Prop} {start b : β}
    {list : List ε} (hStart : P [] start)
    (hStep : ∀ done e b c, P done b → step b e = some c → P (done ++ [e]) c)
    (h : list.foldlM step start = some b) : P list b := by
  suffices hFrom : ∀ rest done c, P done c → rest.foldlM step c = some b → P (done ++ rest) b from
    hFrom list [] start hStart h
  intro rest
  induction rest with
  | nil =>
      intro done c hDone hEnd
      cases hEnd
      simpa using hDone
  | cons e rest ih =>
      intro done c hDone hEnd
      rw [List.foldlM_cons, Option.bind_eq_bind, Option.bind_eq_some_iff] at hEnd
      obtain ⟨d, hNext, hRest⟩ := hEnd
      simpa using ih (done ++ [e]) d (hStep done e c d hDone hNext) hRest

/-- Where every value can be read, the last one counts. -/
theorem exists_mem_foldl_getD {ε : Type} {list : List ε} {read : ε → Option γ}
    (hRead : ∀ e ∈ list, ∃ x, read e = some x) (hSome : list ≠ []) (start : γ) :
    ∃ e ∈ list, read e = some (list.foldl (fun x e => (read e).getD x) start) := by
  obtain ⟨before, e, rfl⟩ := list.eq_nil_or_concat.resolve_left hSome
  have he : e ∈ before.concat e := by simp
  obtain ⟨x, hx⟩ := hRead e he
  refine ⟨e, he, ?_⟩
  rw [List.concat_eq_append, List.foldl_append]
  simp [hx]

/-! ### The field of a name -/

/-- Names are the same if their folded characters are. -/
theorem sameFolded_iff {a b : String} :
    sameFolded a b = true ↔ a.toList.map foldChar = b.toList.map foldChar := by
  simp [sameFolded]

/-- No two fields have names that differ in case only. -/
def FieldsApart (fields : List (TableField α)) : Prop :=
  (fields.map fun f => f.name.toList.map foldChar).Nodup

/-- At most one field has a name. -/
theorem FieldsApart.eq (h : FieldsApart fields) {f g : TableField α} (hf : f ∈ fields)
    (hg : g ∈ fields) {name : String} (hfName : sameFolded f.name name = true)
    (hgName : sameFolded g.name name = true) : f = g := by
  rw [sameFolded_iff] at hfName hgName
  exact List.inj_on_of_nodup_map h hf hg (hfName.trans hgName.symm)

/-- A name stands for the field whose name it is up to case. -/
theorem FieldsApart.findField_eq_some_iff (h : FieldsApart fields) {name : String}
    {f : TableField α} :
    findField fields name = some f ↔ f ∈ fields ∧ sameFolded f.name name = true := by
  have hFound : ∀ {g}, findField fields name = some g →
      g ∈ fields ∧ sameFolded g.name name = true := by
    intro g hg
    rw [findField, Option.or_eq_some_iff] at hg
    rcases hg with hExact | ⟨_, hFolded⟩
    · have hName : g.name = name := by simpa using List.find?_some hExact
      exact ⟨List.mem_of_find?_eq_some hExact, hName ▸ sameFolded_iff.mpr rfl⟩
    · exact ⟨List.mem_of_find?_eq_some hFolded, by simpa using List.find?_some hFolded⟩
  refine ⟨hFound, fun ⟨hf, hName⟩ => ?_⟩
  cases hg : findField fields name with
  | none =>
      rw [findField, Option.or_eq_none_iff] at hg
      exact absurd hName (List.find?_eq_none.mp hg.2 f hf)
  | some g =>
      obtain ⟨hMem, hFolded⟩ := hFound hg
      rw [h.eq hMem hf hFolded hName]

theorem read_field_eq_some {β : Type} {name : String} {shape : Shape β} {put : α → β → α}
    {v : Value} {b : α} {more : List Path}
    (h : (field name shape put).read path v a = some (b, more)) :
    ∃ x, shape path v = some (x, more) ∧ b = put a x := by
  obtain ⟨⟨x, used⟩, hx, hEnd⟩ := Option.map_eq_some_iff.mp h
  cases hEnd
  exact ⟨x, hx, rfl⟩

/-! ### Entry by entry -/

/-- What holds of no entries and is kept by every entry holds of the whole record. An entry whose
name stands for no field is passed over. -/
theorem record_induct {P : Table → α → List Path → Prop} (hNone : P [] zero [])
    (hSkip : ∀ done name v a used, P done a used → findField fields name = none →
      P (done ++ [(name, v)]) a used)
    (hField : ∀ done name v a used f b more, P done a used → findField fields name = some f →
      f.read (path ++ [name]) v a = some (b, more) →
      P (done ++ [(name, v)]) b (used ++ (path ++ [name]) :: more))
    (h : Shape.record zero fields path (.table entries) = some (a, used)) : P entries a used := by
  refine foldlM_induct (P := fun done r => P done r.1 r.2) hNone ?_ h
  rintro done ⟨name, v⟩ ⟨b, taken⟩ ⟨c, more⟩ hDone hStep
  dsimp only at hStep
  cases hFind : findField fields name with
  | none =>
      rw [hFind] at hStep
      cases hStep
      exact hSkip done name v b taken hDone hFind
  | some f =>
      simp only [hFind, Option.bind_eq_bind, Option.bind_eq_some_iff] at hStep
      obtain ⟨⟨d, inner⟩, hRead, hEnd⟩ := hStep
      cases hEnd
      exact hField done name v b taken f d inner hDone hFind hRead

/-- A part of a record that one field changes holds what the entries of that field make of it, one
after the other. -/
theorem record_get (get : α → γ) (update : Value → γ → γ) {own : String}
    (hApart : FieldsApart fields) (hOwn : own ∈ fields.map (·.name))
    (hRead : ∀ f ∈ fields, ∀ p v a b more, f.read p v a = some (b, more) →
      get b = if f.name = own then update v (get a) else get a)
    (h : Shape.record zero fields path (.table entries) = some (a, used)) :
    get a = (entries.filter fun e => sameFolded own e.1).foldl (fun g e => update e.2 g)
      (get zero) := by
  obtain ⟨f₀, hf₀, rfl⟩ := List.mem_map.mp hOwn
  refine record_induct (P := fun done a _ => get a = (done.filter fun e =>
    sameFolded f₀.name e.1).foldl (fun g e => update e.2 g) (get zero)) rfl ?_ ?_ h
  · intro done name v a used hDone hNone
    have hOther : sameFolded f₀.name name = false := by
      rw [← Bool.not_eq_true]
      intro hName
      rw [hApart.findField_eq_some_iff.mpr ⟨hf₀, hName⟩] at hNone
      cases hNone
    simpa [List.filter_append, hOther] using hDone
  · intro done name v a used f b more hDone hFind hStep
    obtain ⟨hf, hName⟩ := hApart.findField_eq_some_iff.mp hFind
    rw [hRead f hf _ v a b more hStep, List.filter_append, List.foldl_append, ← hDone]
    by_cases hSame : f.name = f₀.name
    · rw [if_pos hSame]
      simp [← hSame, hName]
    · have hOther : sameFolded f₀.name name = false := by
        rw [← Bool.not_eq_true]
        intro hName₀
        exact hSame (congrArg TableField.name (hApart.eq hf hf₀ hName hName₀))
      simp [hSame, hOther]

/-- Every entry whose name stands for a field was read by that field. -/
theorem exists_read_of_record (hApart : FieldsApart fields)
    (h : Shape.record zero fields path (.table entries) = some (a, used)) {name : String}
    {v : Value} (hMem : (name, v) ∈ entries) {f : TableField α} (hf : f ∈ fields)
    (hName : sameFolded f.name name = true) :
    ∃ b c more, f.read (path ++ [name]) v b = some (c, more) := by
  refine record_induct (P := fun done _ _ => ∀ e ∈ done, sameFolded f.name e.1 = true →
    ∃ b c more, f.read (path ++ [e.1]) e.2 b = some (c, more)) (by simp) ?_ ?_ h _ hMem hName
  · intro done name v a used hDone hNone
    rw [List.forall_mem_append, List.forall_mem_singleton]
    refine ⟨hDone, fun hName => ?_⟩
    rw [hApart.findField_eq_some_iff.mpr ⟨hf, hName⟩] at hNone
    cases hNone
  · intro done name v a used g b more hDone hFind hStep
    rw [List.forall_mem_append, List.forall_mem_singleton]
    refine ⟨hDone, fun hName => ?_⟩
    obtain ⟨hg, hgName⟩ := hApart.findField_eq_some_iff.mp hFind
    rw [hApart.eq hf hg hName hgName]
    exact ⟨a, b, more, hStep⟩

/-- A path that was used is that of an entry whose name stands for a field, or lies in one. -/
theorem mem_used_record (hApart : FieldsApart fields)
    (h : Shape.record zero fields path (.table entries) = some (a, used)) {p : Path}
    (hp : p ∈ used) :
    ∃ name v, (name, v) ∈ entries ∧ ∃ f ∈ fields, sameFolded f.name name = true ∧
      (p = path ++ [name] ∨
        ∃ b c more, f.read (path ++ [name]) v b = some (c, more) ∧ p ∈ more) := by
  refine record_induct (P := fun done _ used => ∀ p ∈ used, ∃ name v, (name, v) ∈ done ∧
    ∃ f ∈ fields, sameFolded f.name name = true ∧ (p = path ++ [name] ∨
      ∃ b c more, f.read (path ++ [name]) v b = some (c, more) ∧ p ∈ more)) (by simp) ?_ ?_ h p hp
  · intro done name v a used hDone _ p hp
    obtain ⟨name', v', hMem, hRest⟩ := hDone p hp
    exact ⟨name', v', List.mem_append_left _ hMem, hRest⟩
  · intro done name v a used f b more hDone hFind hStep p hp
    rcases List.mem_append.mp hp with hp | hp
    · obtain ⟨name', v', hMem, hRest⟩ := hDone p hp
      exact ⟨name', v', List.mem_append_left _ hMem, hRest⟩
    · obtain ⟨hf, hName⟩ := hApart.findField_eq_some_iff.mp hFind
      refine ⟨name, v, by simp, f, hf, hName, ?_⟩
      rcases List.mem_cons.mp hp with rfl | hp
      · exact .inl rfl
      · exact .inr ⟨a, b, more, hStep, hp⟩

/-- What is read from octets is read from their document, which has no other keys. -/
theorem read_eq_ok {shape : Shape α} {bytes : List UInt8} {d : Document}
    (h : read shape bytes = .ok (a, d)) :
    ∃ used, Document.parse? bytes = some d ∧ d.read? shape = some (a, used) ∧
      d.unused used = [] := by
  unfold read at h
  split at h
  next => cases h
  next d' hParse =>
      split at h
      next => cases h
      next a' used hRead =>
          split at h
          next hUnused =>
              cases h
              exact ⟨used, hParse, hRead, hUnused⟩
          next => cases h

end TraceJit.Toml
