import Mathlib.Data.List.Infix
import TraceJit.Proofs.Toml.Record
import TraceJit.Proofs.Toml.Statement

/-!
What a document has was written in it. Every path into the table of a document is the path of some
key, of which inner names may be left out: a table on one line that takes the place of a list keeps
of each path only its last name. The first name is always kept, and no name stands twice in the
outermost table.
-/

namespace TraceJit.Toml

/-! ### Paths into tables -/

/-- The path leads to something inside the value, through tables of its own or of a series. -/
def Value.Has : Value → Path → Prop
  | _, [] => True
  | .table t, name :: rest => ∃ v, (name, v) ∈ t ∧ v.Has rest
  | .series ts, name :: rest => ∃ t ∈ ts, ∃ v, (name, v) ∈ t ∧ v.Has rest
  | _, _ :: _ => False

namespace Table

def names (t : Table) : List String := t.map (·.1)

theorem mem_of_lookup {t : Table} {name : String} {v : Value} (h : t.lookup name = some v) :
    (name, v) ∈ t := by
  obtain ⟨before, after, rfl, _⟩ := List.lookup_eq_some_iff.mp h
  simp

theorem isSome_lookup_of_mem {t : Table} {name : String} {v : Value} (h : (name, v) ∈ t) :
    (t.lookup name).isSome = true := by
  by_contra hNone
  rw [Bool.not_eq_true, Option.isSome_eq_false_iff, Option.isNone_iff_eq_none,
    List.lookup_eq_none_iff] at hNone
  simpa using hNone _ h

/-- Where names are used once, every entry is found under its name. -/
theorem lookup_of_mem {t : Table} (hOnce : t.names.Nodup) {name : String} {v : Value}
    (h : (name, v) ∈ t) : t.lookup name = some v := by
  obtain ⟨w, hw⟩ := Option.isSome_iff_exists.mp (isSome_lookup_of_mem h)
  have hSame := List.inj_on_of_nodup_map hOnce h (mem_of_lookup hw) rfl
  cases hSame
  exact hw

/-- A key of two parts is there if its table is and has it. -/
theorem defines_pair_iff {t : Table} {outer inner : String} :
    defines [outer, inner] t = true ↔
      ∃ s v, t.lookup outer = some (.table s) ∧ s.lookup inner = some v := by
  simp only [defines]
  split
  next s hOuter => simp [hOuter, Option.isSome_iff_exists]
  next hOther =>
      refine ⟨nofun, ?_⟩
      rintro ⟨s, v, hOuter, _⟩
      exact absurd hOuter (hOther s)

/-- What is there behind an insertion. -/
theorem mem_insert {t : Table} {name : String} {v : Value} {e : String × Value}
    (h : e ∈ insert t name v) : e ∈ t ∨ e = (name, v) := by
  unfold insert at h
  split at h
  next =>
      obtain ⟨x, hx, rfl⟩ := List.mem_map.mp h
      split
      next => exact .inr rfl
      next => exact .inl hx
  next => simpa using h

/-- An insertion uses no name twice. -/
theorem nodup_names_insert {t : Table} (name : String) (v : Value) (h : t.names.Nodup) :
    (insert t name v).names.Nodup := by
  unfold insert
  split
  next =>
      have hNames : names (t.map fun e => if e.1 == name then (name, v) else e) = t.names := by
        rw [names, names, List.map_map]
        apply List.map_congr_left
        intro e _
        by_cases hName : e.1 = name <;> simp [hName]
      rw [hNames]
      exact h
  next hNew =>
      have hOther : name ∉ t.names := by
        simpa [names] using hNew
      have hNames : names (t ++ [(name, v)]) = t.names ++ [name] := by simp [names]
      rw [hNames, List.nodup_append']
      exact ⟨h, List.nodup_singleton name, List.disjoint_singleton.mpr hOther⟩

/-- What an insertion adds lies under the name. -/
theorem has_insert {t : Table} {name : String} {v : Value} {p : Path}
    (h : (Value.table (insert t name v)).Has p) :
    (Value.table t).Has p ∨ ∃ q, p = name :: q ∧ v.Has q := by
  cases p with
  | nil => exact .inl trivial
  | cons first rest =>
      obtain ⟨w, hw, hRest⟩ := h
      rcases mem_insert hw with hOld | hNew
      · exact .inl ⟨w, hOld, hRest⟩
      · cases hNew
        exact .inr ⟨rest, rfl, hRest⟩

section Update

variable {f : Table → Option Table} {context : Path} {t t' : Table}

/-- A change inside of a table uses no name twice. -/
theorem nodup_names_update
    (hf : ∀ s s', f s = some s' → s.names.Nodup → s'.names.Nodup)
    (h : update? f context t = some t') (hOnce : t.names.Nodup) : t'.names.Nodup := by
  cases context with
  | nil => exact hf t t' h hOnce
  | cons name rest =>
      rw [update?] at h
      split at h
      next =>
          obtain ⟨s, _, rfl⟩ := Option.map_eq_some_iff.mp h
          exact nodup_names_insert _ _ hOnce
      next =>
          split at h
          next =>
              obtain ⟨s, _, rfl⟩ := Option.map_eq_some_iff.mp h
              exact nodup_names_insert _ _ hOnce
          next => cases h
      next => cases h

/-- A change deep in a table adds what it adds there, under the path to the place. -/
theorem has_update {P : Path → Prop}
    (hf : ∀ s s', f s = some s' → ∀ p, (Value.table s').Has p → (Value.table s).Has p ∨ P p)
    (h : update? f context t = some t') {p : Path} (hp : (Value.table t').Has p) :
    (Value.table t).Has p ∨ ∃ q, p = context ++ q ∧ P q := by
  induction context generalizing t t' p with
  | nil =>
      rcases hf t t' h p hp with hOld | hNew
      · exact .inl hOld
      · exact .inr ⟨p, rfl, hNew⟩
  | cons name rest ih =>
      rw [update?] at h
      split at h
      next s hLookup =>
          obtain ⟨s', hUpdate, rfl⟩ := Option.map_eq_some_iff.mp h
          rcases has_insert hp with hOld | ⟨q, rfl, hq⟩
          · exact .inl hOld
          · rcases ih hUpdate hq with hOld | ⟨r, rfl, hr⟩
            · exact .inl ⟨_, mem_of_lookup hLookup, hOld⟩
            · exact .inr ⟨r, rfl, hr⟩
      next ss hLookup =>
          split at h
          next s hLast =>
              obtain ⟨s', hUpdate, rfl⟩ := Option.map_eq_some_iff.mp h
              rcases has_insert hp with hOld | ⟨q, rfl, hq⟩
              · exact .inl hOld
              · -- Only the last table of the series has changed.
                cases q with
                | nil => exact .inl ⟨_, mem_of_lookup hLookup, trivial⟩
                | cons first q =>
                    obtain ⟨u, hu, hInside⟩ := hq
                    rcases List.mem_append.mp hu with hu | hu
                    · exact .inl ⟨_, mem_of_lookup hLookup, u, List.mem_of_mem_dropLast hu, hInside⟩
                    · obtain rfl := List.mem_singleton.mp hu
                      rcases ih hUpdate (p := first :: q) hInside with hOld | ⟨r, hr, hP⟩
                      · exact .inl ⟨_, mem_of_lookup hLookup, s, List.mem_of_getLast? hLast, hOld⟩
                      · exact .inr ⟨r, by rw [hr]; rfl, hP⟩
          next => cases h
      next => cases h

end Update

end Table

/-! ### Steps of a document under construction -/

namespace Builder

/-- The second document has what the first has and nothing more but paths of `P`, under names that
are as much apart as before. -/
structure Grows (b c : Builder) (P : Path → Prop) : Prop where
  adds : ∀ p, (Value.table c.root).Has p → (Value.table b.root).Has p ∨ P p
  once : b.root.names.Nodup → c.root.names.Nodup

section Steps

variable {b c d : Builder} {P Q : Path → Prop} {name : String} {p : Path}

theorem has_empty {q : Path} (h : (Value.table []).Has q) : q = [] := by
  cases q with
  | nil => rfl
  | cons first rest =>
      obtain ⟨_, hMem, _⟩ := h
      cases hMem

theorem Grows.same (h : c.root = b.root) : b.Grows c P := by
  refine ⟨fun p hp => ?_, fun hOnce => ?_⟩
  · rw [h] at hp
    exact .inl hp
  · rw [h]
    exact hOnce

theorem Grows.mono (h : b.Grows c P) (hPQ : ∀ p, P p → Q p) : b.Grows c Q :=
  ⟨fun p hp => (h.adds p hp).imp_right (hPQ p), h.once⟩

theorem Grows.trans (h : b.Grows c P) (h' : c.Grows d P) : b.Grows d P := by
  refine ⟨fun p hp => ?_, fun hOnce => h'.once (h.once hOnce)⟩
  rcases h'.adds p hp with hOld | hNew
  · exact h.adds p hOld
  · exact .inr hNew

theorem Grows.of_same (h : c.Grows d P) (hRoot : c.root = b.root) : b.Grows d P :=
  .trans (.same hRoot) h

/-- A value that is put under a name of some table adds paths to itself and into itself. -/
theorem grows_update (name : String) {root : Table} {f : Table → Option Table} {context : Path}
    (hf : ∀ s s', f s = some s' → ∃ v, s' = Table.insert s name v ∧
      ∀ q, v.Has q → (Value.table s).Has (name :: q) ∨ P (context ++ name :: q))
    (h : Table.update? f context b.root = some root) (hRoot : c.root = root) : b.Grows c P := by
  subst hRoot
  constructor
  · intro p hp
    refine (Table.has_update (P := fun q => P (context ++ q)) ?_ h hp).imp_right ?_
    · intro s s' hs q hq
      obtain ⟨v, rfl, hv⟩ := hf s s' hs
      rcases Table.has_insert hq with hOld | ⟨r, rfl, hr⟩
      · exact .inl hOld
      · exact hv r hr
    · rintro ⟨q, rfl, hq⟩
      exact hq
  · refine Table.nodup_names_update (fun s s' hs hOnce => ?_) h
    obtain ⟨v, rfl, _⟩ := hf s s' hs
    exact Table.nodup_names_insert name v hOnce

/-- What a value adds to a document. -/
theorem put_ok {v : Value} (h : b.put name v = some c) :
    c.context = b.context ∧ c.keys = b.keys ∧
      b.Grows c fun p => ∃ q, p = b.context ++ name :: q ∧ v.Has q := by
  have hInsert : ∀ b' : Builder, b'.root = b.root → b'.context = b.context → b'.keys = b.keys →
      (do let root ← Table.update? (fun t => some (Table.insert t name v)) b'.context b'.root
          return { b' with root }) = some c →
      c.context = b.context ∧ c.keys = b.keys ∧
        b.Grows c fun p => ∃ q, p = b.context ++ name :: q ∧ v.Has q := by
    intro b' hRoot hContext hKeys hc
    obtain ⟨root, hUpdate, hEnd⟩ := Option.bind_eq_some_iff.mp hc
    cases hEnd
    rw [hRoot, hContext] at hUpdate
    refine ⟨hContext, hKeys, grows_update name ?_ hUpdate rfl⟩
    rintro s s' ⟨⟩
    exact ⟨v, rfl, fun q hq => .inr ⟨q, rfl, hq⟩⟩
  unfold put at h
  obtain ⟨t, _, h⟩ := Option.bind_eq_some_iff.mp h
  dsimp only at h
  split at h
  next =>
      split at h
      next => exact hInsert (b.settle _) rfl rfl rfl h
      next =>
          split at h
          next =>
              cases h
              exact ⟨rfl, rfl, .same rfl⟩
          next => cases h
  next => exact hInsert b rfl rfl rfl h

/-- What a header passes through on its way. -/
theorem passThrough_ok {done : Path} (h : b.passThrough done p = some c) :
    c.context = done ++ p ∧ c.keys = b.keys ∧ b.Grows c (· <+: done ++ p) := by
  induction p generalizing b done with
  | nil =>
      cases h
      exact ⟨by simp, rfl, .same rfl⟩
  | cons name rest ih =>
      have hPath : done ++ [name] ++ rest = done ++ name :: rest := by simp
      have hFirst : ∃ b' : Builder, b'.keys = b.keys ∧ b.Grows b' (· <+: done ++ name :: rest) ∧
          b'.passThrough (done ++ [name]) rest = some c := by
        unfold passThrough at h
        obtain ⟨t, _, h⟩ := Option.bind_eq_some_iff.mp h
        dsimp only at h
        split at h
        next => exact ⟨b, rfl, .same rfl, h⟩
        next => exact ⟨b, rfl, .same rfl, h⟩
        next => cases h
        next =>
            obtain ⟨root, hUpdate, h⟩ := Option.bind_eq_some_iff.mp h
            have hRest :
                ({ b with root }.imply (done ++ [name])).passThrough (done ++ [name]) rest =
                  some c := h
            refine ⟨{ b with root }.imply (done ++ [name]), rfl,
              grows_update name ?_ hUpdate rfl, hRest⟩
            rintro s s' ⟨⟩
            refine ⟨_, rfl, fun q hq => .inr ?_⟩
            rw [has_empty hq]
            exact ⟨rest, hPath⟩
      obtain ⟨b', hKeys, hGrows, h⟩ := hFirst
      obtain ⟨hContext, hKeys', hGrows'⟩ := ih h
      rw [hPath] at hContext hGrows'
      exact ⟨hContext, hKeys'.trans hKeys, hGrows.trans hGrows'⟩

/-- What a new table of a series adds. -/
theorem extendSeries_ok (h : b.extendSeries name = some c) :
    c.context = b.context ∧ c.keys = b.keys ∧ b.Grows c (· = b.context ++ [name]) := by
  obtain ⟨root, hUpdate, hEnd⟩ := Option.bind_eq_some_iff.mp h
  cases hEnd
  refine ⟨rfl, rfl, grows_update name (fun s s' hs => ?_) hUpdate rfl⟩
  split at hs
  next =>
      cases hs
      refine ⟨_, rfl, fun q hq => .inr ?_⟩
      cases q with
      | nil => rfl
      | cons first q =>
          obtain ⟨u, hu, hInside⟩ := hq
          obtain rfl := List.mem_singleton.mp hu
          cases has_empty (q := first :: q) hInside
  next ts hLookup =>
      cases hs
      refine ⟨_, rfl, fun q hq => ?_⟩
      cases q with
      | nil => exact .inr rfl
      | cons first q =>
          obtain ⟨u, hu, hInside⟩ := hq
          rcases List.mem_append.mp hu with hu | hu
          · exact .inl ⟨_, Table.mem_of_lookup hLookup, u, hu, hInside⟩
          · obtain rfl := List.mem_singleton.mp hu
            cases has_empty (q := first :: q) hInside
  next => cases hs

/-- A table is made where it is entered, and tables on the way to it. -/
theorem enter_ok {inSeries : Bool} (h : b.enter p inSeries = some c) :
    c.context = p ∧ c.keys = b.keys ∧ b.Grows c (· <+: p.dropLast ++ [p.getLastD ""]) := by
  unfold enter at h
  obtain ⟨b', hPass, h⟩ := Option.bind_eq_some_iff.mp h
  obtain ⟨hContext, hKeys, hGrows⟩ := passThrough_ok hPass
  rw [List.nil_append] at hContext hGrows
  have hWay := hGrows.mono (Q := (· <+: p.dropLast ++ [p.getLastD ""])) fun r hr =>
    hr.trans (List.prefix_append ..)
  dsimp only at h
  split at h
  next =>
      obtain ⟨b'', hMake, hEnd⟩ := Option.bind_eq_some_iff.mp h
      cases hEnd
      obtain ⟨_, hKeys', hGrows'⟩ := extendSeries_ok hMake
      refine ⟨rfl, hKeys'.trans hKeys, (hWay.trans (hGrows'.mono ?_)).trans (.same rfl)⟩
      rintro _ rfl
      rw [hContext]
  next =>
      obtain ⟨b'', hMake, hEnd⟩ := Option.bind_eq_some_iff.mp h
      cases hEnd
      obtain ⟨_, hKeys', hGrows'⟩ := put_ok hMake
      refine ⟨rfl, hKeys'.trans hKeys, (hWay.trans (hGrows'.mono ?_)).trans (.same rfl)⟩
      rintro _ ⟨q, rfl, hq⟩
      rw [hContext, has_empty hq]

/-- What a header adds. -/
theorem descend_ok (h : b.descend p = some c) :
    c.context = b.context ++ p ∧ c.keys = b.keys ∧ b.Grows c (· <+: b.context ++ p) := by
  induction p generalizing b with
  | nil =>
      cases h
      exact ⟨by simp, rfl, .same rfl⟩
  | cons name rest ih =>
      unfold descend at h
      obtain ⟨b', hEnter, h⟩ := Option.bind_eq_some_iff.mp h
      obtain ⟨hContext, hKeys, hGrows⟩ := enter_ok hEnter
      obtain ⟨hContext', hKeys', hGrows'⟩ := ih h
      have hPath : b.context ++ [name] ++ rest = b.context ++ name :: rest := by simp
      rw [hContext, hPath] at hContext' hGrows'
      rw [List.dropLast_concat, List.getLastD_concat] at hGrows
      have hTable := hGrows.mono fun r hr => hr.trans ⟨rest, hPath⟩
      exact ⟨hContext', hKeys'.trans hKeys, (hTable.trans hGrows').of_same rfl⟩

end Steps

/-! ### Values -/

/-- Some key has the first name of the path, and behind it the others among its names. -/
def Covered (keys : List Path) : Path → Prop
  | [] => True
  | name :: rest => ∃ more, name :: more ∈ keys ∧ rest.Sublist more

section Values

variable {b c : Builder} {keys keys' : List Path} {name : String} {p q : Path}

theorem Covered.mono (h : Covered keys p) (hKeys : keys ⊆ keys') : Covered keys' p := by
  cases p with
  | nil => trivial
  | cons first rest =>
      obtain ⟨more, hMem, hRest⟩ := h
      exact ⟨more, hKeys hMem, hRest⟩

theorem covered_append {place more : Path} (hKey : place ++ name :: more ∈ keys)
    (hq : q.Sublist more) : Covered keys (place ++ name :: q) := by
  cases place with
  | nil => exact ⟨more, hKey, hq⟩
  | cons first place => exact ⟨_, hKey, (hq.cons_cons name).append_left place⟩

/-- What leads to a key is covered by it. -/
theorem covered_of_prefix {key : Path} (hKey : key ∈ keys) (hp : p <+: key) : Covered keys p := by
  cases p with
  | nil => trivial
  | cons first rest =>
      obtain ⟨more, rfl⟩ := hp
      exact ⟨rest ++ more, hKey, List.sublist_append_left ..⟩

/-- What evaluating the value `v` under a name does to a document: keys are added, and the paths
that are added lead to the name or are covered by the keys, as are those into `v`. -/
structure Evaluates (b : Builder) (name : String) (v : Value) (c : Builder) : Prop where
  context : c.context = b.context
  keys : b.keys ⊆ c.keys
  grows : b.Grows c fun p => Covered c.keys p ∨ p <+: b.context ++ [name]
  value : ∀ q, v.Has q → q = [] ∨ ∃ more, b.context ++ name :: more ∈ c.keys ∧ q.Sublist more

/-- The same for the entries of a table, which is `t` before and `t'` after. -/
structure Fills (b : Builder) (t t' : Table) (c : Builder) : Prop where
  context : c.context = b.context
  keys : b.keys ⊆ c.keys
  grows : b.Grows c (Covered c.keys)
  entries : ∀ q, (Value.table t').Has q → (Value.table t).Has q ∨
    ∃ more, b.context ++ more ∈ c.keys ∧ q.Sublist more

theorem has_isLeaf {v : Value} (hv : v.IsLeaf) (h : v.Has q) : q = [] := by
  cases q with
  | nil => rfl
  | cons first rest =>
      cases v with
      | table => exact hv.elim
      | series => exact hv.elim
      | _ => exact h.elim

theorem evaluates_items {es : List Expr} {vs : List Value}
    (hItems : ∀ e ∈ es, ∀ {b c : Builder} {v : Value},
      b.evaluate name true e = some (v, c) → b.Evaluates name v c)
    (h : b.evaluateItems name es = some (vs, c)) : b.Evaluates name (.array vs) c := by
  have hLeaf : ∀ {vs : List Value} {q : Path}, (Value.array vs).Has q → q = [] :=
    has_isLeaf trivial
  induction es generalizing b vs with
  | nil =>
      cases h
      exact ⟨rfl, List.Subset.refl _, .same rfl, fun q hq => .inl (hLeaf hq)⟩
  | cons e es ih =>
      rw [List.forall_mem_cons] at hItems
      unfold evaluateItems at h
      obtain ⟨⟨v, b'⟩, hFirst, h⟩ := Option.bind_eq_some_iff.mp h
      obtain ⟨⟨vs', c'⟩, hRest, hEnd⟩ := Option.bind_eq_some_iff.mp h
      cases hEnd
      have hFirst := hItems.1 hFirst
      have hRest := ih hItems.2 hRest
      refine ⟨hRest.context.trans hFirst.context, List.Subset.trans hFirst.keys hRest.keys, ?_,
        fun q hq => .inl (hLeaf hq)⟩
      have hGrows := hRest.grows
      rw [hFirst.context] at hGrows
      exact (hFirst.grows.mono fun p hp => hp.imp_left (·.mono hRest.keys)).trans hGrows

/-- An entry is evaluated in the table that its path leads to, and put there under its last name. -/
theorem fills_fields {fs : List (Path × Expr)} {t t' : Table}
    (hFields : ∀ f ∈ fs, ∀ {b c : Builder} {name : String} {v : Value},
      b.evaluate name false f.2 = some (v, c) → b.Evaluates name v c)
    (h : b.evaluateFields t fs = some (t', c)) : b.Fills t t' c := by
  induction fs generalizing b t with
  | nil =>
      cases h
      exact ⟨rfl, List.Subset.refl _, .same rfl, fun q hq => .inl hq⟩
  | cons f fs ih =>
      rw [List.forall_mem_cons] at hFields
      obtain ⟨p, e⟩ := f
      unfold evaluateFields at h
      obtain ⟨b₁, hDescend, h⟩ := Option.bind_eq_some_iff.mp h
      obtain ⟨⟨v, b₂⟩, hEvaluate, h⟩ := Option.bind_eq_some_iff.mp h
      obtain ⟨b₃, hPut, h⟩ := Option.bind_eq_some_iff.mp h
      obtain ⟨hContext, hKeys, hWay⟩ := descend_ok hDescend
      have hValue := hFields.1 hEvaluate
      obtain ⟨_, hSame, hNew⟩ := put_ok hPut
      have hRest := ih hFields.2 h
      generalize p.getLastD "" = name at *
      -- All paths that are added lead to the new key, or lie in it and were noted as keys.
      have hKey : b₁.context ++ [name] ∈ b₂.keys :=
        hValue.keys (List.mem_append_right _ (List.mem_singleton_self _))
      have hIn : ∀ q, v.Has q → ∃ more, b₁.context ++ name :: more ∈ b₂.keys ∧ q.Sublist more := by
        intro q hq
        rcases hValue.value q hq with rfl | hMore
        · exact ⟨[], hKey, List.Sublist.refl _⟩
        · exact hMore
      have hLater : b₂.keys ⊆ c.keys := hSame ▸ hRest.keys
      have hAll : b.Grows c (Covered c.keys) := by
        refine .trans (hWay.mono fun r hr => ?_) (.of_same (c := b₁.note (b₁.context ++ [name]))
          (.trans (hValue.grows.mono fun r hr => ?_) (.trans (hNew.mono fun r hr => ?_) ?_)) rfl)
        · have hKey' : b.context ++ p.dropLast ++ [name] ∈ c.keys := hContext ▸ hLater hKey
          exact covered_of_prefix hKey' (hr.trans (List.prefix_append ..))
        · rcases hr with hr | hr
          · exact hr.mono hLater
          · exact covered_of_prefix (hLater hKey) hr
        · obtain ⟨q, rfl, hq⟩ := hr
          obtain ⟨more, hMem, hMore⟩ := hIn q hq
          rw [hValue.context]
          exact covered_append (hLater hMem) hMore
        · exact hRest.grows.of_same rfl
      refine ⟨hRest.context, fun r hr => ?_, hAll, fun q hq => ?_⟩
      · exact hLater (hValue.keys (List.mem_append_left _ (hKeys ▸ hr)))
      · rcases hRest.entries q hq with hOld | hNew
        · rcases Table.has_insert hOld with hOld | ⟨r, rfl, hr⟩
          · exact .inl hOld
          · obtain ⟨more, hMem, hMore⟩ := hIn r hr
            refine .inr ⟨p.dropLast ++ name :: more, ?_, ?_⟩
            · rw [← List.append_assoc, ← hContext]
              exact hLater hMem
            · exact (hMore.cons_cons name).trans (List.sublist_append_right ..)
        · exact .inr hNew

/-- Evaluating keeps what is noted apart from what is put into the document. -/
theorem evaluates_of_proper {e : Expr} (he : e.Proper) {inList : Bool} {v : Value}
    (h : b.evaluate name inList e = some (v, c)) : b.Evaluates name v c := by
  induction he generalizing b c name inList v with
  | atom hv =>
      cases h
      exact ⟨rfl, List.Subset.refl _, .same rfl, fun q hq => .inl (has_isLeaf hv hq)⟩
  | array _ ih =>
      unfold evaluate at h
      obtain ⟨⟨vs, c'⟩, hItems, hEnd⟩ := Option.bind_eq_some_iff.mp h
      cases hEnd
      obtain ⟨hContext, hKeys, hGrows, hValue⟩ := evaluates_items (fun e he _ _ _ => ih e he) hItems
      exact ⟨hContext, hKeys, hGrows.of_same rfl, hValue⟩
  | inline _ ih =>
      unfold evaluate at h
      obtain ⟨b', hEnter, h⟩ := Option.bind_eq_some_iff.mp h
      obtain ⟨⟨t, c'⟩, hFields, hEnd⟩ := Option.bind_eq_some_iff.mp h
      cases hEnd
      obtain ⟨hContext, hKeys, hTable⟩ := enter_ok hEnter
      have hFills := fills_fields (fun f hf _ _ _ _ => ih f hf) hFields
      rw [List.dropLast_concat, List.getLastD_concat] at hTable
      refine ⟨rfl, ?_, ?_, fun q hq => ?_⟩
      · intro r hr
        exact hFills.keys (hKeys ▸ hr)
      · have hGrows := hFills.grows.mono (Q := fun p => Covered c'.keys p ∨
          p <+: b.context ++ [name]) fun p hp => .inl hp
        have hAll := (hTable.mono fun p hp => .inr hp).trans hGrows
        exact ⟨hAll.adds, hAll.once⟩
      · rcases hFills.entries q hq with hNone | ⟨more, hMem, hMore⟩
        · exact .inl (has_empty hNone)
        · rw [hContext] at hMem
          exact .inr ⟨more, by simpa using hMem, hMore⟩

/-- What the fields of an inline table add to it. -/
theorem evaluateFields_ok {fs : List (Path × Expr)} (hFields : ∀ f ∈ fs, f.2.Proper)
    {t t' : Table} (h : b.evaluateFields t fs = some (t', c)) : b.Fills t t' c :=
  fills_fields (fun f hf _ _ _ _ => evaluates_of_proper (hFields f hf)) h

end Values

/-! ### Lines and whole documents -/

/-- What a document under construction has is covered by its keys, and the names of its outermost
table are apart. -/
structure Kept (b : Builder) : Prop where
  covered : ∀ p, (Value.table b.root).Has p → Covered b.keys p
  once : b.root.names.Nodup

section Lines

variable {b c : Builder}

/-- Whatever grows is covered if its growth is. -/
theorem Kept.grow (hKept : b.Kept) (hKeys : b.keys ⊆ c.keys) (hGrows : b.Grows c (Covered c.keys)) :
    c.Kept := by
  refine ⟨fun p hp => ?_, hGrows.once hKept.once⟩
  rcases hGrows.adds p hp with hOld | hNew
  · exact (hKept.covered p hOld).mono hKeys
  · exact hNew

/-- A header keeps everything covered. -/
theorem Kept.header (hKept : b.Kept) {p : Path} (hp : p ≠ []) {inSeries : Bool}
    (h : b.enter p inSeries = some c) : ((c.classify "" false).note p).Kept := by
  obtain ⟨_, hKeys, hGrows⟩ := enter_ok h
  have hName : p.dropLast ++ [p.getLastD ""] = p := by
    rw [List.getLastD_eq_getLast?, List.getLast?_eq_some_getLast hp, Option.getD_some,
      List.dropLast_append_getLast hp]
  rw [hName] at hGrows
  refine hKept.grow (hKeys ▸ List.subset_append_left ..) ?_
  have hAll := hGrows.mono fun r hr => covered_of_prefix (List.mem_append_right c.keys
    (List.mem_singleton_self p)) hr
  exact ⟨hAll.adds, hAll.once⟩

/-- Every line keeps the keys and the table together. -/
theorem Kept.add (hKept : b.Kept) {s : Statement} (hs : s.Proper) (h : b.add s = some c) :
    c.Kept := by
  cases s with
  | table p =>
      obtain ⟨c', hEnter, hEnd⟩ := Option.bind_eq_some_iff.mp h
      cases hEnd
      exact hKept.header hs hEnter
  | nextTable p =>
      obtain ⟨c', hEnter, hEnd⟩ := Option.bind_eq_some_iff.mp h
      cases hEnd
      exact hKept.header hs hEnter
  | entry p e =>
      obtain ⟨⟨t, c'⟩, hFields, hEnd⟩ := Option.bind_eq_some_iff.mp h
      cases hEnd
      have hProper : ∀ f ∈ [(p, e)], f.2.Proper := List.forall_mem_singleton.mpr hs
      have hFills := evaluateFields_ok hProper hFields
      exact hKept.grow hFills.keys hFills.grows

/-- After any lines everything in the document is covered by a key. -/
theorem kept_of_lines {lines : List Statement} (hLines : ∀ s ∈ lines, s.Proper)
    (h : lines.foldlM Builder.add {} = some b) : b.Kept := by
  refine foldlM_induct (P := fun done b => (∀ s ∈ done, s.Proper) → b.Kept) ?_ ?_ h hLines
  · intro _
    refine ⟨fun p hp => ?_, List.nodup_nil⟩
    rw [has_empty hp]
    trivial
  · intro done s b c hDone hAdd hAll
    rw [List.forall_mem_append, List.forall_mem_singleton] at hAll
    exact (hDone hAll.1).add hAll.2 hAdd

end Lines

end Builder

/-- What a document has is covered by its keys, and the names of its outermost table are apart. -/
theorem Document.kept_of_parse {bytes : List UInt8} {d : Document} (h : parse? bytes = some d) :
    (∀ p, (Value.table d.root).Has p → Builder.Covered d.keys p) ∧ d.root.names.Nodup := by
  unfold parse? at h
  dsimp only at h
  split at h
  next =>
      obtain ⟨lines, hLines, h⟩ := Option.bind_eq_some_iff.mp h
      obtain ⟨b, hBuild, hEnd⟩ := Option.bind_eq_some_iff.mp h
      cases hEnd
      obtain ⟨hCovered, hOnce⟩ := Builder.kept_of_lines (proper_statements? hLines) hBuild
      exact ⟨hCovered, hOnce⟩
  next => cases h

end TraceJit.Toml
