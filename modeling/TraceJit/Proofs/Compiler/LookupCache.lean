import Mathlib.Data.List.Nodup
import TraceJit.Compiler.LookupCache

/-!
The books of the lookup cache: keys stand once and in the order of their last use, and no more of
them than there is room for.
-/

namespace TraceJit.LookupCache

variable {c : LookupCache} {key : String} {f : Fragment}

/-- What is found is there. -/
theorem mem_of_peek? (h : c.peek? key = some f) : (key, f) ∈ c.entries := by
  obtain ⟨before, after, hEntries, _⟩ := List.lookup_eq_some_iff.mp h
  rw [hEntries]
  exact List.mem_append_right _ (List.mem_cons_self ..)

theorem ne_of_missing (hMissing : c.peek? key = none) : ∀ x ∈ c.entries, x.1 ≠ key := by
  intro x hx hKey
  have hOther := List.lookup_eq_none_iff.mp hMissing x hx
  simp [hKey] at hOther

/-- Where a key is missing, all entries are others. -/
theorem others_of_missing (hMissing : c.peek? key = none) : c.others key = c.entries := by
  rw [others, List.filter_eq_self]
  intro x hx
  simpa using ne_of_missing hMissing x hx

/-- Keys stand once, and there is room for all of them. -/
structure Sound (c : LookupCache) : Prop where
  keys : (c.entries.map (·.1)).Nodup
  fits : c.entries.length ≤ c.capacity
  pos : 0 < c.capacity

theorem sound_new {capacity : Nat} (hPos : 0 < capacity) : (LookupCache.new capacity).Sound where
  keys := List.nodup_nil
  fits := Nat.zero_le _
  pos := hPos

/-- A new fragment comes first. The one used least recently is given up if the cache is full. -/
theorem Sound.insert_eq (h : c.Sound) (hMissing : c.peek? key = none) (f : Fragment) :
    c.insert key f = { c with
      entries := (key, f) ::
        if c.entries.length < c.capacity then c.entries else c.entries.dropLast } := by
  have hFits := h.fits
  have hPos := h.pos
  obtain ⟨n, hn⟩ := Nat.exists_eq_succ_of_ne_zero (Nat.ne_of_gt hPos)
  rw [insert, others_of_missing hMissing, hn, List.take_succ_cons]
  split
  next hRoom => rw [List.take_of_length_le (Nat.le_of_lt_succ hRoom)]
  next hFull =>
      have hLength : c.entries.length - 1 = n := by omega
      rw [List.dropLast_eq_take, hLength]

/-- What is there behind an insertion. -/
theorem mem_insert (hMissing : c.peek? key = none) {x : String × Fragment}
    (hx : x ∈ (c.insert key f).entries) : x = (key, f) ∨ x ∈ c.entries ∧ x.1 ≠ key := by
  rw [insert, others_of_missing hMissing] at hx
  rcases List.mem_cons.mp (List.mem_of_mem_take hx) with hNew | hOld
  · exact .inl hNew
  · exact .inr ⟨hOld, ne_of_missing hMissing x hOld⟩

theorem mem_touch {x : String × Fragment} (hx : x ∈ (c.touch key).entries) : x ∈ c.entries := by
  unfold touch at hx
  cases hFound : c.peek? key with
  | none =>
      rw [hFound] at hx
      exact hx
  | some f =>
      rw [hFound] at hx
      rcases List.mem_cons.mp hx with rfl | hOld
      · exact mem_of_peek? hFound
      · exact (List.mem_filter.mp hOld).1

/-- Filing under a key again leaves it there once. -/
theorem nodup_cons_others (h : c.Sound) (f : Fragment) :
    (((key, f) :: c.others key).map (·.1)).Nodup := by
  rw [List.map_cons, List.nodup_cons]
  constructor
  · intro hMem
    obtain ⟨x, hx, hKey⟩ := List.mem_map.mp hMem
    have hOther := (List.mem_filter.mp hx).2
    simp [hKey] at hOther
  · exact h.keys.sublist (List.filter_sublist.map _)

/-- An insertion keeps the keys apart and the entries within the capacity. -/
theorem Sound.insert (h : c.Sound) (key : String) (f : Fragment) : (c.insert key f).Sound where
  keys := (nodup_cons_others h f).sublist ((List.take_sublist ..).map _)
  fits := List.length_take_le ..
  pos := h.pos

/-- The entry of a key is not among the others. -/
theorem length_others_lt (hFound : c.peek? key = some f) :
    (c.others key).length < c.entries.length :=
  List.length_filter_lt_length_iff_exists.mpr ⟨_, mem_of_peek? hFound, by simp⟩

/-- A use keeps the keys apart and the entries within the capacity. -/
theorem Sound.touch (h : c.Sound) (key : String) : (c.touch key).Sound := by
  unfold LookupCache.touch
  cases hFound : c.peek? key with
  | none => exact h
  | some f =>
      exact ⟨nodup_cons_others h f, Nat.le_trans (length_others_lt hFound) h.fits, h.pos⟩

/-! ### Room and size -/

@[simp] theorem capacity_insert (c : LookupCache) (key : String) (f : Fragment) :
    (c.insert key f).capacity = c.capacity := rfl

@[simp] theorem capacity_touch (c : LookupCache) (key : String) :
    (c.touch key).capacity = c.capacity := by
  unfold touch
  cases c.peek? key with
  | none => rfl
  | some f => rfl

/-- An insertion adds one entry at most. -/
theorem size_insert_le (c : LookupCache) (key : String) (f : Fragment) :
    (c.insert key f).size ≤ c.size + 1 := by
  have hOthers : (c.others key).length ≤ c.entries.length := List.length_filter_le ..
  have hTake : (c.insert key f).size ≤ ((key, f) :: c.others key).length := List.length_take_le' ..
  rw [List.length_cons] at hTake
  exact Nat.le_trans hTake (Nat.succ_le_succ hOthers)

theorem size_touch_le (c : LookupCache) (key : String) : (c.touch key).size ≤ c.size := by
  unfold touch
  cases hFound : c.peek? key with
  | none => exact Nat.le_refl _
  | some f => exact length_others_lt hFound

end TraceJit.LookupCache
