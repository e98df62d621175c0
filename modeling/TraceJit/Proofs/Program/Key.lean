import Mathlib.Data.List.Basic
import TraceJit.Program.Trace

/-!
What a key tells of the runs it was made from. The mark `@` stands at the head of every run and
nowhere else in it, so runs can be read back from their text. The reference in front of them is
copied as it is and may hold the mark too: then a key can be read in more than one way, and these
are all of its readings.
-/

namespace TraceJit

/-! ### Digits -/

namespace Text

variable {b m n : Nat}

theorem digitChar_inj (hm : m < 16) (hn : n < 16) (h : m.digitChar = n.digitChar) : m = n := by
  have hAll : ∀ i j : Fin 16, (i : Nat).digitChar = (j : Nat).digitChar → i = j := by decide
  exact congrArg Fin.val (hAll ⟨m, hm⟩ ⟨n, hn⟩ h)

/-- The last digit and those before it. -/
theorem toDigits_eq_append (hb : 1 < b) (n : Nat) :
    Nat.toDigits b n =
      (if n < b then [] else Nat.toDigits b (n / b)) ++ [(n % b).digitChar] := by
  rw [Nat.toDigits_eq_if hb]
  split
  next hLess => rw [Nat.mod_eq_of_lt hLess, List.nil_append]
  next => rfl

theorem mem_toDigits (hb : 1 < b) {c : Char} (hc : c ∈ Nat.toDigits b n) :
    ∃ d < b, c = d.digitChar := by
  induction n using Nat.strongRecOn with
  | ind n ih =>
      rw [toDigits_eq_append hb] at hc
      rcases List.mem_append.mp hc with hHigh | hLast
      · split at hHigh
        next => cases hHigh
        next hMore => exact ih (n / b) (Nat.div_lt_self (by omega) hb) hHigh
      · exact ⟨n % b, Nat.mod_lt n (by omega), List.mem_singleton.mp hLast⟩

/-- A number has one numeral. -/
theorem toDigits_inj (hb : 1 < b) (hSmall : b ≤ 16) (h : Nat.toDigits b m = Nat.toDigits b n) :
    m = n := by
  induction m using Nat.strongRecOn generalizing n with
  | ind m ih =>
      rw [toDigits_eq_append hb m, toDigits_eq_append hb n] at h
      obtain ⟨hHigh, hLast⟩ := List.append_inj' h rfl
      have hMod : m % b = n % b :=
        digitChar_inj (Nat.lt_of_lt_of_le (Nat.mod_lt m (by omega)) hSmall)
          (Nat.lt_of_lt_of_le (Nat.mod_lt n (by omega)) hSmall) (List.singleton_inj.mp hLast)
      have hDiv : m / b = n / b := by
        split at hHigh
        next hm =>
            split at hHigh
            next hn => rw [Nat.div_eq_of_lt hm, Nat.div_eq_of_lt hn]
            next => exact absurd hHigh.symm Nat.toDigits_ne_nil
        next hm =>
            split at hHigh
            next => exact absurd hHigh Nat.toDigits_ne_nil
            next => exact ih (m / b) (Nat.div_lt_self (by omega) hb) hHigh
      rw [← Nat.div_add_mod m b, hDiv, hMod, Nat.div_add_mod]

/-- The marks of a key are no digits. -/
theorem mark_not_mem_toDigits {c : Char} (hc : c ∈ ['@', '+', '!']) :
    c ∉ Nat.toDigits 16 n ∧ c ∉ Nat.toDigits 10 n := by
  have hAll : ∀ i : Fin 16, (i : Nat).digitChar ∉ ['@', '+', '!'] := by decide
  constructor
  · intro hMem
    obtain ⟨d, hd, rfl⟩ := mem_toDigits (by decide) hMem
    exact hAll ⟨d, hd⟩ hc
  · intro hMem
    obtain ⟨d, hd, rfl⟩ := mem_toDigits (by decide) hMem
    exact hAll ⟨d, by omega⟩ hc

end Text

/-- Two texts without a mark, each followed by nothing or by the mark, are told apart from what
follows. -/
theorem append_inj_of_mark {c : Char} {s t x y : List Char} (hs : c ∉ s) (ht : c ∉ t)
    (hx : ∀ a ∈ x.head?, a = c) (hy : ∀ a ∈ y.head?, a = c) (h : s ++ x = t ++ y) :
    s = t ∧ x = y := by
  have hCut : ∀ {u v : List Char}, c ∉ u → (∀ a ∈ v.head?, a = c) →
      (u ++ v).takeWhile (· ≠ c) = u := by
    intro u v hu hv
    rw [List.takeWhile_append_of_pos (by simpa using fun a ha (hEq : a = c) => hu (hEq ▸ ha))]
    cases v with
    | nil => simp
    | cons a v => simp [hv a rfl]
  have hFirst : s = t := by rw [← hCut hs hx, h, hCut ht hy]
  exact ⟨hFirst, List.append_cancel_left (hFirst ▸ h)⟩

/-! ### Runs -/

namespace Run

/-- The key of a run without the mark at its head. -/
def label (r : Run) : List Char :=
  Nat.toDigits 16 r.start.toNat ++ '+' ::
    (Nat.toDigits 10 r.count.toNat ++ if r.ends then ['!'] else [])

theorem toList_key (r : Run) : r.key.toList = '@' :: r.label := by
  unfold key label
  cases r.ends <;> simp [Text.hex]

/-- The sign that separates runs is not in a label. -/
theorem mark_not_mem_label (r : Run) : '@' ∉ r.label := by
  have hStart := (Text.mark_not_mem_toDigits (n := r.start.toNat) (c := '@') (by decide)).1
  have hCount := (Text.mark_not_mem_toDigits (n := r.count.toNat) (c := '@') (by decide)).2
  unfold label
  cases r.ends <;> simp [hStart, hCount]

/-- Labels tell runs apart. -/
theorem label_inj {r s : Run} (h : r.label = s.label) : r = s := by
  obtain ⟨hStart, hRest⟩ := append_inj_of_mark (c := '+')
    (Text.mark_not_mem_toDigits (by decide)).1 (Text.mark_not_mem_toDigits (by decide)).1
    (by simp) (by simp) h
  obtain ⟨hCount, hEnds⟩ := append_inj_of_mark (c := '!')
    (Text.mark_not_mem_toDigits (by decide)).2 (Text.mark_not_mem_toDigits (by decide)).2
    (by cases r.ends <;> simp) (by cases s.ends <;> simp) (List.cons.inj hRest).2
  obtain ⟨start, count, ends⟩ := r
  obtain ⟨start', count', ends'⟩ := s
  obtain rfl := UInt32.toNat_inj.mp (Text.toDigits_inj (by decide) (by decide) hStart)
  obtain rfl := UInt32.toNat_inj.mp (Text.toDigits_inj (by decide) (by decide) hCount)
  cases ends <;> cases ends' <;> simp at hEnds <;> rfl

def labels (runs : List Run) : List Char := runs.flatMap fun r => '@' :: r.label

@[simp] theorem labels_nil : labels [] = [] := rfl

@[simp] theorem labels_cons (r : Run) (runs : List Run) :
    labels (r :: runs) = '@' :: (r.label ++ labels runs) := by
  simp [labels]

@[simp] theorem labels_append (p q : List Run) : labels (p ++ q) = labels p ++ labels q := by
  simp [labels]

/-- Labels begin with the sign that separates them. -/
theorem head_labels (runs : List Run) : ∀ a ∈ (labels runs).head?, a = '@' := by
  cases runs with
  | nil => simp
  | cons r runs => simp

/-- Labels that follow each other tell the lists apart. -/
theorem labels_inj {p q : List Run} (h : labels p = labels q) : p = q := by
  induction p generalizing q with
  | nil =>
      cases q with
      | nil => rfl
      | cons s q => simp at h
  | cons r p ih =>
      cases q with
      | nil => simp at h
      | cons s q =>
          rw [labels_cons, labels_cons] at h
          obtain ⟨hHead, hTail⟩ := append_inj_of_mark r.mark_not_mem_label s.mark_not_mem_label
            (head_labels p) (head_labels q) (List.cons.inj h).2
          rw [label_inj hHead, ih hTail]

/-- Text in front of some runs that makes the text of runs is the text of runs itself. -/
theorem labels_eq_append {p q : List Run} {s : List Char} (hq : q ≠ [])
    (h : labels p = s ++ labels q) : ∃ front, p = front ++ q ∧ s = labels front := by
  induction p generalizing s with
  | nil =>
      have hNone := (List.append_eq_nil_iff.mp h.symm).2
      exact absurd (labels_inj (p := q) (q := []) hNone) hq
  | cons r p ih =>
      cases s with
      | nil => exact ⟨[], labels_inj h, rfl⟩
      | cons a s =>
          rw [labels_cons, List.cons_append, List.cons.injEq] at h
          obtain ⟨rfl, h⟩ := h
          rcases List.append_eq_append_iff.mp h with ⟨w, rfl, hRest⟩ | ⟨w, hLabel, hRest⟩
          · obtain ⟨front, rfl, rfl⟩ := ih hRest
            exact ⟨r :: front, rfl, (labels_cons r front).symm⟩
          · -- Nothing is left of the label, for the runs behind it begin with the mark.
            obtain rfl : w = [] := by
              cases w with
              | nil => rfl
              | cons a w =>
                  have hMark : a = '@' := head_labels q a (by rw [hRest]; rfl)
                  exact absurd (by rw [hLabel, hMark]; simp) r.mark_not_mem_label
            rw [List.append_nil] at hLabel
            exact ⟨[r], by rw [labels_inj hRest]; rfl, by simp [hLabel]⟩

end Run

/-! ### Keys -/

/-- A key is a reference with the labels of the runs behind it. -/
theorem toList_runsKey (ref : String) (runs : List Run) :
    (runsKey ref runs).toList = ref.toList ++ Run.labels runs := by
  rw [runsKey, String.toList_append, String.toList_join, List.flatMap_map]
  simp only [Run.toList_key]
  rfl

@[simp] theorem runsKey_nil (ref : String) : runsKey ref [] = ref := by
  rw [← String.toList_inj, toList_runsKey, Run.labels_nil, List.append_nil]

theorem runsKey_append (ref : String) (p q : List Run) :
    runsKey ref (p ++ q) = runsKey (runsKey ref p) q := by
  simp only [← String.toList_inj, toList_runsKey, Run.labels_append, List.append_assoc]

/-- Two keys are the same exactly if one reference is the other one followed by the key of the first
runs of the other. -/
theorem runsKey_eq_iff {ref ref' : String} {runs runs' : List Run} (hRuns : runs ≠ [])
    (hRuns' : runs' ≠ []) :
    runsKey ref runs = runsKey ref' runs' ↔
      (∃ front, runs = front ++ runs' ∧ ref' = runsKey ref front) ∨
        ∃ front, runs' = front ++ runs ∧ ref = runsKey ref' front := by
  constructor
  · intro h
    rw [← String.toList_inj, toList_runsKey, toList_runsKey] at h
    rcases List.append_eq_append_iff.mp h with ⟨w, hRef, hRest⟩ | ⟨w, hRef, hRest⟩
    · obtain ⟨front, rfl, rfl⟩ := Run.labels_eq_append hRuns' hRest
      refine .inl ⟨front, rfl, ?_⟩
      rw [← String.toList_inj, hRef, toList_runsKey]
    · obtain ⟨front, rfl, rfl⟩ := Run.labels_eq_append hRuns hRest
      refine .inr ⟨front, rfl, ?_⟩
      rw [← String.toList_inj, hRef, toList_runsKey]
  · rintro (⟨front, rfl, rfl⟩ | ⟨front, rfl, rfl⟩)
    · exact runsKey_append ref front runs'
    · exact (runsKey_append ref' front runs).symm

/-- Every key of some runs holds the mark. -/
theorem mark_mem_runsKey (ref : String) {runs : List Run} (hRuns : runs ≠ []) :
    '@' ∈ (runsKey ref runs).toList := by
  obtain ⟨r, rest, rfl⟩ := List.exists_cons_of_ne_nil hRuns
  simp [toList_runsKey]

/-- Of traces through one method the key tells the runs, whatever the traces are called. -/
theorem Trace.key_tells_runs (m : Method) (name name' : String) (p q : List Run) :
    Trace.key { name := name, method := m, runs := p } =
      Trace.key { name := name', method := m, runs := q } ↔ p = q := by
  constructor
  · intro hKey
    rw [Trace.key, Trace.key, ← String.toList_inj, toList_runsKey, toList_runsKey] at hKey
    exact Run.labels_inj (List.append_cancel_left hKey)
  · rintro rfl
    rfl

end TraceJit
