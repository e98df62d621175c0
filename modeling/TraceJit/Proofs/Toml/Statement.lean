import TraceJit.Toml.Statement

/-!
What the lines of a document are like. A header has at least one name, and a value that stands by
itself is neither a table nor a series of tables: tables are always written out.
-/

namespace TraceJit.Toml

/-- The value is no table and no series of tables. -/
def Value.IsLeaf : Value → Prop
  | .table _ | .series _ => False
  | _ => True

/-- Only written-out tables make up tables of the value. -/
inductive Expr.Proper : Expr → Prop where
  | atom {v : Value} : v.IsLeaf → Proper (.atom v)
  | array {es : List Expr} : (∀ e ∈ es, Proper e) → Proper (.array es)
  | inline {fs : List (Path × Expr)} : (∀ f ∈ fs, Proper f.2) → Proper (.inline fs)

/-- Headers have a name, and values are proper. -/
def Statement.Proper : Statement → Prop
  | .table p | .nextTable p => p ≠ []
  | .entry _ e => e.Proper

section Atoms

variable {v : Value} {cs rest : List Char}

theorem isLeaf_integerValue (h : integerValue cs = some v) : v.IsLeaf := by
  obtain ⟨i, _, rfl⟩ := Option.map_eq_some_iff.mp h
  trivial

theorem isLeaf_floatValue (h : floatValue cs = some v) : v.IsLeaf := by
  unfold floatValue at h
  split at h
  next =>
      cases h
      trivial
  next => cases h

theorem isLeaf_momentValue (h : momentValue cs = some v) : v.IsLeaf := by
  unfold momentValue at h
  dsimp only at h
  split at h
  next =>
      cases h
      trivial
  next => cases h

theorem isLeaf_ofStretch {p : Char → Bool} {value : List Char → Option Value}
    (hValue : ∀ {cs v}, value cs = some v → v.IsLeaf) (h : ofStretch p value cs = some (v, rest)) :
    v.IsLeaf := by
  obtain ⟨w, hw, hEnd⟩ := Option.map_eq_some_iff.mp h
  cases hEnd
  exact hValue hw

theorem isLeaf_decimalNumber {signed : Bool} (h : decimalNumber signed cs = some (v, rest)) :
    v.IsLeaf := by
  unfold decimalNumber at h
  dsimp only at h
  split at h
  next => exact isLeaf_ofStretch isLeaf_floatValue h
  next => exact isLeaf_ofStretch isLeaf_floatValue h
  next => exact isLeaf_ofStretch isLeaf_floatValue h
  next =>
      obtain ⟨w, hw, hEnd⟩ := Option.map_eq_some_iff.mp h
      cases hEnd
      exact isLeaf_integerValue hw

theorem isLeaf_numberOrMoment (h : numberOrMoment cs = some (v, rest)) : v.IsLeaf := by
  have hBased : ∀ {digits more p} {b : Bool},
      (if b = true then (integerValue digits).map fun v => (v, List.dropWhile p more) else none) =
        some (v, rest) → v.IsLeaf := by
    intro digits more p b hb
    split at hb
    next =>
        obtain ⟨w, hw, hEnd⟩ := Option.map_eq_some_iff.mp hb
        cases hEnd
        exact isLeaf_integerValue hw
    next => cases hb
  unfold numberOrMoment at h
  dsimp only at h
  split at h
  next => exact hBased h
  next => exact hBased h
  next => exact hBased h
  next =>
      split at h
      next =>
          split at h
          next =>
              cases h
              trivial
          next =>
              cases h
              trivial
          next =>
              split at h
              next => exact isLeaf_decimalNumber h
              next => cases h
          next => cases h
      next =>
          split at h
          next => exact isLeaf_ofStretch isLeaf_momentValue h
          next => exact isLeaf_decimalNumber h
  next => cases h

/-- A value that is read at once has nothing below it. -/
theorem isLeaf_atom (h : atom cs = some (v, rest)) : v.IsLeaf := by
  have hText : ∀ {r : Option (String × List Char)},
      r.map (fun x => (Value.text x.1, x.2)) = some (v, rest) → v.IsLeaf := by
    intro r hr
    obtain ⟨s, _, hEnd⟩ := Option.map_eq_some_iff.mp hr
    cases hEnd
    trivial
  unfold atom at h
  split at h
  next => exact hText h
  next => exact hText h
  next => exact hText h
  next => exact hText h
  next =>
      cases h
      trivial
  next =>
      cases h
      trivial
  next =>
      cases h
      trivial
  next =>
      cases h
      trivial
  next =>
      split at h
      next => exact isLeaf_numberOrMoment h
      next => cases h
  next => cases h

end Atoms

/-- Every key has a part. -/
theorem path_ne_nil {stop : Char} {p : Path} {cs rest : List Char}
    (h : path stop cs = some (p, rest)) : p ≠ [] := by
  rw [path, pathFrom] at h
  split at h
  next => cases h
  next =>
      split at h
      next => cases h
      next =>
          split at h
          next =>
              obtain ⟨r, _, hEnd⟩ := Option.map_eq_some_iff.mp h
              cases hEnd
              simp
          next =>
              split at h
              next =>
                  cases h
                  simp
              next => cases h

/-- Values, and the values inside of them, are proper at every depth. -/
theorem proper_scanned (fuel : Nat) :
    (∀ cs e rest, value fuel cs = some (e, rest) → e.Proper) ∧
    (∀ cs es rest, items fuel cs = some (es, rest) → ∀ e ∈ es, e.Proper) ∧
    (∀ cs fs rest, fields fuel cs = some (fs, rest) → ∀ f ∈ fs, f.2.Proper) := by
  induction fuel with
  | zero => exact ⟨nofun, nofun, nofun⟩
  | succ fuel ih =>
      obtain ⟨hValue, hItems, hFields⟩ := ih
      refine ⟨fun cs e rest h => ?_, fun cs es rest h => ?_, fun cs fs rest h => ?_⟩
      · rw [value] at h
        split at h
        next =>
            obtain ⟨r, hr, hEnd⟩ := Option.map_eq_some_iff.mp h
            cases hEnd
            exact .array (hItems _ _ _ hr)
        next =>
            split at h
            next =>
                cases h
                exact .inline (by simp)
            next =>
                obtain ⟨r, hr, hEnd⟩ := Option.map_eq_some_iff.mp h
                cases hEnd
                exact .inline (hFields _ _ _ hr)
        next =>
            obtain ⟨r, hr, hEnd⟩ := Option.map_eq_some_iff.mp h
            cases hEnd
            exact .atom (isLeaf_atom hr)
      · rw [items] at h
        split at h
        next =>
            cases h
            simp
        next =>
            split at h
            next => cases h
            next e _ he =>
                split at h
                next =>
                    obtain ⟨r, hr, hEnd⟩ := Option.map_eq_some_iff.mp h
                    cases hEnd
                    exact List.forall_mem_cons.mpr ⟨hValue _ _ _ he, hItems _ _ _ hr⟩
                next =>
                    cases h
                    exact List.forall_mem_singleton.mpr (hValue _ _ _ he)
                next => cases h
      · rw [fields] at h
        split at h
        next => cases h
        next =>
            split at h
            next => cases h
            next e _ he =>
                split at h
                next =>
                    obtain ⟨r, hr, hEnd⟩ := Option.map_eq_some_iff.mp h
                    cases hEnd
                    exact List.forall_mem_cons.mpr ⟨hValue _ _ _ he, hFields _ _ _ hr⟩
                next =>
                    cases h
                    exact List.forall_mem_singleton.mpr (hValue _ _ _ he)
                next => cases h

/-- Every line that is read is proper. -/
theorem proper_statement {s : Statement} {cs rest : List Char}
    (h : statement cs = some (s, rest)) : s.Proper := by
  unfold statement at h
  split at h
  next =>
      split at h
      next p _ hp =>
          cases h
          exact path_ne_nil hp
      next => cases h
  next =>
      obtain ⟨r, hr, hEnd⟩ := Option.map_eq_some_iff.mp h
      cases hEnd
      exact path_ne_nil hr
  next =>
      split at h
      next => cases h
      next =>
          obtain ⟨r, hr, hEnd⟩ := Option.map_eq_some_iff.mp h
          cases hEnd
          exact (proper_scanned _).1 _ _ _ hr

theorem proper_statementsFrom {fuel : Nat} {cs : List Char} {lines : List Statement}
    (h : statementsFrom fuel cs = some lines) : ∀ s ∈ lines, s.Proper := by
  induction fuel generalizing cs lines with
  | zero => cases h
  | succ fuel ih =>
      rw [statementsFrom] at h
      split at h
      next =>
          cases h
          simp
      next =>
          obtain ⟨⟨s, rest⟩, hFirst, h⟩ := Option.bind_eq_some_iff.mp h
          obtain ⟨cs', _, h⟩ := Option.bind_eq_some_iff.mp h
          obtain ⟨more, hMore, hEnd⟩ := Option.bind_eq_some_iff.mp h
          cases hEnd
          exact List.forall_mem_cons.mpr ⟨proper_statement hFirst, ih hMore⟩

/-- Every line of a document is proper. -/
theorem proper_statements? {cs : List Char} {lines : List Statement}
    (h : statements? cs = some lines) : ∀ s ∈ lines, s.Proper := by
  unfold statements? at h
  split at h
  next => exact proper_statementsFrom h
  next => cases h

end TraceJit.Toml
