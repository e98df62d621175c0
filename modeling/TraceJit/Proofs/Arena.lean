import Mathlib.Algebra.GroupWithZero.Nat
import TraceJit.Arena

/-!
An arena over whole runs. The books of the arena are those of the slabs of the current epoch; what
stands in an element is what was last written to it; and a slab from before the last reset refuses
every use.
-/

namespace TraceJit

namespace Slab

def bytes (slab : Slab) : Nat := slab.elemBytes * slab.items.size

def grown (slab : Slab) : Slab := { slab with items := slab.items.push 0 }

/-- The slab with a value, cut to the size of an element, in element `i`. -/
def written (slab : Slab) (i value : Nat) : Slab :=
  { slab with items := slab.items.setIfInBounds i (value % 2 ^ (8 * slab.elemBytes)) }

end Slab

inductive SlabOp where
  | newSlab (elemBytes : Nat) (hint : Int)
  | alloc (id : Int)
  | get (id i : Int)
  | set (id i : Int) (value : Nat)
  | len (id : Int)
  | reset

def SlabOp.slab? : SlabOp → Option Int
  | .alloc id | .get id _ | .set id _ _ | .len id => some id
  | .newSlab _ _ | .reset => none

namespace SlabStore

/-- The arena after an operation, if the operation is allowed. -/
def apply (s : SlabStore) : SlabOp → Except ArenaFault SlabStore
  | .newSlab elemBytes hint => s.newSlab elemBytes hint
  | .alloc id => (s.alloc id).map (·.2)
  | .get id i => (s.get id i).map fun _ => s
  | .set id i value => s.set id i value
  | .len id => (s.len id).map fun _ => s
  | .reset => .ok s.reset

/-- The arena with another slab under the number `n`. -/
def replace (s : SlabStore) (n : Nat) (slab : Slab) : SlabStore :=
  { s with slabs := s.slabs.setIfInBounds n slab }

def liveSlabs (s : SlabStore) : List Slab :=
  s.slabs.toList.filter fun slab => slab.epoch == s.arena.epoch

/-! ### Single operations -/

section Operations

variable {s t : SlabStore} {id i : Int} {slab : Slab}

/-- A slab can be used if it is there and of the current epoch. -/
theorem slab_eq_ok_iff :
    s.slab id = .ok slab ↔
      0 ≤ id ∧ s.slabs[id.toNat]? = some slab ∧ slab.epoch = s.arena.epoch := by
  unfold SlabStore.slab Arena.check
  by_cases hId : 0 ≤ id
  · rw [if_pos hId]
    cases s.slabs[id.toNat]? with
    | none => simp
    | some found =>
        by_cases hEpoch : found.epoch = s.arena.epoch
        · simp only [if_pos hEpoch, Except.map, Except.ok.injEq, Option.some.injEq]
          constructor
          · rintro rfl
            exact ⟨hId, rfl, hEpoch⟩
          · rintro ⟨_, rfl, _⟩
            rfl
        · simp only [if_neg hEpoch, Except.map, reduceCtorEq, Option.some.injEq, false_iff]
          rintro ⟨_, rfl, hNow⟩
          exact hEpoch hNow
  · simp [hId]

/-- A slab of another epoch is refused. -/
theorem slab_of_stale (hId : 0 ≤ id) (hSlab : s.slabs[id.toNat]? = some slab)
    (hEpoch : slab.epoch ≠ s.arena.epoch) :
    s.slab id = .error (.stale slab.epoch s.arena.epoch) := by
  simp only [SlabStore.slab, Arena.check, if_pos hId, hSlab, if_neg hEpoch, Except.map]

/-- Whatever needs a slab fails as the look at the slab does. -/
theorem apply_of_slab_error {op : SlabOp} {fault : ArenaFault} (hOp : op.slab? = some id)
    (hSlab : s.slab id = .error fault) : s.apply op = .error fault := by
  cases op with
  | newSlab => cases hOp
  | reset => cases hOp
  | alloc id =>
      obtain rfl := Option.some.inj hOp
      simp only [apply, alloc, hSlab, Except.map]
  | get id i =>
      obtain rfl := Option.some.inj hOp
      simp only [apply, get, hSlab, Except.map]
  | set id i value =>
      obtain rfl := Option.some.inj hOp
      simp only [apply, set, hSlab]
  | len id =>
      obtain rfl := Option.some.inj hOp
      simp only [apply, len, hSlab, Except.map]

theorem newSlab_ok {elemBytes : Nat} {hint : Int} (h : s.newSlab elemBytes hint = .ok t) :
    t = { s with slabs := s.slabs.push ⟨s.arena.epoch, elemBytes, #[]⟩ } := by
  unfold newSlab at h
  split at h
  next => cases h
  next => exact (Except.ok.inj h).symm

theorem alloc_eq (hSlab : s.slab id = .ok slab) :
    s.alloc id = .ok (slab.items.size,
      { s.replace id.toNat slab.grown with arena := s.arena.charge slab.elemBytes }) := by
  simp only [alloc, hSlab, Except.map, replace, Slab.grown]

/-- An allocation that succeeds grows the slab by one item, which is charged. -/
theorem alloc_ok (h : s.apply (.alloc id) = .ok t) :
    ∃ slab, s.slab id = .ok slab ∧
      t = { s.replace id.toNat slab.grown with arena := s.arena.charge slab.elemBytes } := by
  cases hSlab : s.slab id with
  | error fault => cases h.symm.trans (apply_of_slab_error rfl hSlab)
  | ok slab =>
      simp only [apply, alloc_eq hSlab, Except.map] at h
      exact ⟨slab, rfl, (Except.ok.inj h).symm⟩

/-- An operation that only looks leaves everything as it is. -/
theorem eq_of_map_ok {α : Type} {found : Except ArenaFault α}
    (h : found.map (fun _ => s) = .ok t) : t = s := by
  cases found with
  | error fault => cases h
  | ok a => exact (Except.ok.inj h).symm

/-- A write that succeeds was inside the slab, and changes that item alone. -/
theorem set_ok {value : Nat} (h : s.set id i value = .ok t) :
    ∃ slab, s.slab id = .ok slab ∧ 0 ≤ i ∧ i < slab.items.size ∧
      t = s.replace id.toNat (slab.written i.toNat value) := by
  cases hSlab : s.slab id with
  | error fault =>
      simp only [set, hSlab] at h
      cases h
  | ok slab =>
      simp only [set, hSlab, Nat.one_shiftLeft] at h
      split at h
      next hRange =>
          simp only [Bool.and_eq_true, decide_eq_true_eq] at hRange
          exact ⟨slab, rfl, hRange.1, hRange.2, (Except.ok.inj h).symm⟩
      next => cases h

theorem get_eq (hSlab : s.slab id = .ok slab) (hPos : 0 ≤ i) {v : Nat}
    (hItem : slab.items[i.toNat]? = some v) : s.get id i = .ok v := by
  simp [get, hSlab, hItem, hPos]

theorem len_eq (hSlab : s.slab id = .ok slab) : s.len id = .ok slab.items.size := by
  simp only [len, hSlab, Except.map]

/-- Growing one slab shows in that slab only. -/
theorem slab_alloc (hSlab : s.slab id = .ok slab) {n : Nat} (hAlloc : s.alloc id = .ok (n, t))
    (other : Int) : t.slab other = if other = id then .ok slab.grown else s.slab other := by
  obtain ⟨hId, hItem, hLive⟩ := slab_eq_ok_iff.mp hSlab
  obtain ⟨hSize, -⟩ := Array.getElem?_eq_some_iff.mp hItem
  cases hAlloc.symm.trans (alloc_eq hSlab)
  split
  next hSame =>
      subst hSame
      refine slab_eq_ok_iff.mpr ⟨hId, ?_, hLive⟩
      simp [replace, hSize]
  next hOther =>
      by_cases hPos : 0 ≤ other
      · have hNumber : ¬id.toNat = other.toNat := by omega
        simp only [SlabStore.slab, if_pos hPos, replace, Array.getElem?_setIfInBounds,
          if_neg hNumber]
        rfl
      · simp only [SlabStore.slab, if_neg hPos]

/-- A new element is zero, and all others are as before. -/
theorem get_alloc (hSlab : s.slab id = .ok slab) {n : Nat} (hAlloc : s.alloc id = .ok (n, t)) :
    t.get id slab.items.size = .ok 0 ∧
      ∀ other j : Int, (other, j) ≠ (id, (slab.items.size : Int)) →
        t.get other j = s.get other j := by
  have hShown := slab_alloc hSlab hAlloc
  constructor
  · refine get_eq ((hShown id).trans (if_pos rfl)) (Int.natCast_nonneg _) ?_
    simp [Slab.grown]
  · intro other j hNe
    unfold get
    by_cases hSame : other = id
    · subst hSame
      rw [hShown, if_pos rfl, hSlab]
      have hIndex : j ≠ slab.items.size := fun hEq => hNe (by rw [hEq])
      by_cases hPos : 0 ≤ j
      · have hNumber : j.toNat ≠ slab.items.size := by omega
        simp only [if_pos hPos, Slab.grown, Array.getElem?_push, if_neg hNumber]
      · simp only [if_neg hPos]
    · rw [hShown, if_neg hSame]

end Operations

end SlabStore

namespace SlabStore

/-! ### Replacing a slab -/

section Replace

variable {s : SlabStore} {n : Nat} {old new : Slab} (hOld : s.slabs[n]? = some old)

include hOld

theorem getElem?_replace (m : Nat) :
    (s.replace n new).slabs[m]? = if m = n then some new else s.slabs[m]? := by
  obtain ⟨hSize, -⟩ := Array.getElem?_eq_some_iff.mp hOld
  simp only [replace, Array.getElem?_setIfInBounds, eq_comm (a := n), if_pos hSize]

/-- A slab keeps its epoch when its items change. -/
theorem map_epoch_replace (hEpoch : new.epoch = old.epoch) :
    (s.replace n new).slabs.toList.map Slab.epoch = s.slabs.toList.map Slab.epoch := by
  have hItem : (s.slabs.toList.map Slab.epoch)[n]? = some new.epoch := by
    rw [List.getElem?_map, Array.getElem?_toList, hOld, hEpoch, Option.map_some]
  obtain ⟨hSize, hAt⟩ := List.getElem?_eq_some_iff.mp hItem
  rw [replace, Array.toList_setIfInBounds, List.map_set, ← hAt, List.set_getElem_self]

/-- The books change by what the slab changes by. -/
theorem sum_bytes_replace (hLive : old.epoch = s.arena.epoch) (hEpoch : new.epoch = old.epoch) :
    ((s.replace n new).liveSlabs.map Slab.bytes).sum + old.bytes =
      (s.liveSlabs.map Slab.bytes).sum + new.bytes := by
  have hItem : s.slabs.toList[n]? = some old := Array.getElem?_toList.trans hOld
  obtain ⟨hSize, hAt⟩ := List.getElem?_eq_some_iff.mp hItem
  obtain ⟨before, after, hSplit, -, hSet⟩ := @List.exists_of_set _ n new _ hSize
  rw [hAt] at hSplit
  simp only [liveSlabs, replace, Array.toList_setIfInBounds, hSet]
  rw [hSplit]
  simp [hEpoch, hLive]
  omega

end Replace

end SlabStore

/-- An arena with its history: the bytes charged at each reset, the last one first; the number of
resets before each slab was made; and the values written, the last one first. -/
structure SlabLog where
  store : SlabStore := {}
  charges : List Nat := []
  births : List Nat := []
  /-- Slab, element and value. -/
  writes : List ((Nat × Nat) × Nat) := []

namespace SlabLog

/-- One operation; one that is not allowed changes nothing. -/
def step (l : SlabLog) (op : SlabOp) : SlabLog :=
  match l.store.apply op with
  | .error _ => l
  | .ok store =>
    match op with
    | .newSlab _ _ => { l with store, births := l.births ++ [l.charges.length] }
    | .set id i value => { l with store, writes := ((id.toNat, i.toNat), value) :: l.writes }
    | .reset => { l with store, charges := l.store.arena.charged :: l.charges }
    | .alloc _ | .get _ _ | .len _ => { l with store }

/-- The operations one after the other on a new arena. -/
def run (ops : List SlabOp) : SlabLog := ops.foldl step {}

/-- What was last written to an element. -/
def lastWritten (l : SlabLog) (n i : Nat) : Nat := (l.writes.lookup (n, i)).getD 0

/-- What every operation keeps up. Elements of old slabs are still there, though nothing can reach
them. -/
structure Sound (l : SlabLog) : Prop where
  charged : l.store.arena.charged = (l.store.liveSlabs.map Slab.bytes).sum
  peak : l.store.arena.peak = l.charges.foldr max 0
  resets : l.store.arena.resets = l.charges.length
  epoch : l.store.arena.epoch = l.charges.length + 1
  made : l.store.slabs.toList.map Slab.epoch = l.births.map (· + 1)
  born : ∀ b ∈ l.births, b ≤ l.charges.length
  held : ∀ n slab, l.store.slabs[n]? = some slab → ∀ i v, slab.items[i]? = some v →
    v = l.lastWritten n i % 2 ^ (8 * slab.elemBytes)
  inside : ∀ w ∈ l.writes, ∃ slab, l.store.slabs[w.1.1]? = some slab ∧ w.1.2 < slab.items.size

section Steps

variable {l : SlabLog}

theorem sound_empty : Sound {} where
  charged := rfl
  peak := rfl
  resets := rfl
  epoch := rfl
  made := rfl
  born := by simp
  held := by simp
  inside := by simp

/-- No slab is of a later epoch than the arena. -/
theorem Sound.epoch_le (h : l.Sound) {n : Nat} {slab : Slab}
    (hSlab : l.store.slabs[n]? = some slab) : slab.epoch ≤ l.store.arena.epoch := by
  have hMem : slab.epoch ∈ l.births.map (· + 1) := by
    rw [← h.made]
    exact List.mem_map_of_mem (Array.mem_toList_iff.mpr (Array.mem_of_getElem? hSlab))
  obtain ⟨b, hb, hEq⟩ := List.mem_map.mp hMem
  have hBorn := h.born b hb
  rw [h.epoch]
  omega

/-- Nothing was ever written behind the end of a slab. -/
theorem Sound.lastWritten_size (h : l.Sound) {n : Nat} {slab : Slab}
    (hSlab : l.store.slabs[n]? = some slab) : l.lastWritten n slab.items.size = 0 := by
  have hNone : l.writes.lookup (n, slab.items.size) = none := by
    refine List.lookup_eq_none_iff.mpr fun w hw => ?_
    obtain ⟨other, hOther, hInside⟩ := h.inside w hw
    refine bne_iff_ne.mpr fun hSame => ?_
    rw [← hSame] at hOther hInside
    cases hOther.symm.trans hSlab
    exact Nat.lt_irrefl _ hInside
  rw [lastWritten, hNone, Option.getD_none]

/-- Room for elements is found behind the slabs that there are. -/
theorem Sound.newSlab (h : l.Sound) (elemBytes : Nat) :
    Sound { l with
      store := { l.store with slabs := l.store.slabs.push ⟨l.store.arena.epoch, elemBytes, #[]⟩ }
      births := l.births ++ [l.charges.length] } where
  charged := by
    have hLive : SlabStore.liveSlabs { l.store with
        slabs := l.store.slabs.push ⟨l.store.arena.epoch, elemBytes, #[]⟩ } =
        l.store.liveSlabs ++ [⟨l.store.arena.epoch, elemBytes, #[]⟩] := by
      simp [SlabStore.liveSlabs]
    rw [hLive, List.map_append, List.sum_append, ← h.charged]
    simp [Slab.bytes]
  peak := h.peak
  resets := h.resets
  epoch := h.epoch
  made := by
    simp [h.made, h.epoch]
  born b hb := by
    rcases List.mem_append.mp hb with hOld | hNew
    · exact h.born b hOld
    · exact Nat.le_of_eq (List.mem_singleton.mp hNew)
  held n slab hSlab i v hItem := by
    rw [Array.getElem?_push] at hSlab
    split at hSlab
    next =>
        obtain rfl := Option.some.inj hSlab
        simp at hItem
    next => exact h.held n slab hSlab i v hItem
  inside w hw := by
    obtain ⟨slab, hSlab, hInside⟩ := h.inside w hw
    obtain ⟨hSize, -⟩ := Array.getElem?_eq_some_iff.mp hSlab
    refine ⟨slab, ?_, hInside⟩
    rw [Array.getElem?_push, if_neg (Nat.ne_of_lt hSize)]
    exact hSlab

section Replaced

variable {n : Nat} {slab : Slab}

/-- Another slab of the same epoch in the place of a live one, with at least as many elements, keeps
everything in order if what it charges is accounted for and what it holds was written to it. -/
theorem Sound.replaced (h : l.Sound) (hSlab : l.store.slabs[n]? = some slab)
    (hLive : slab.epoch = l.store.arena.epoch) {new : Slab} {charged : Nat}
    {writes : List ((Nat × Nat) × Nat)} (hEpoch : new.epoch = slab.epoch)
    (hSize : slab.items.size ≤ new.items.size)
    (hCharged : charged + slab.bytes = l.store.arena.charged + new.bytes)
    (hOwn : ∀ i v, new.items[i]? = some v →
      v = (writes.lookup (n, i)).getD 0 % 2 ^ (8 * new.elemBytes))
    (hOther : ∀ m i, m ≠ n → writes.lookup (m, i) = l.writes.lookup (m, i))
    (hWrites : ∀ w ∈ writes, w ∈ l.writes ∨ w.1.1 = n ∧ w.1.2 < new.items.size) :
    Sound { l with
      store := { l.store.replace n new with arena := { l.store.arena with charged } }
      writes } where
  charged := by
    have hSum := SlabStore.sum_bytes_replace hSlab hLive hEpoch
    rw [h.charged] at hCharged
    change charged = ((l.store.replace n new).liveSlabs.map Slab.bytes).sum
    omega
  peak := h.peak
  resets := h.resets
  epoch := h.epoch
  made := (SlabStore.map_epoch_replace hSlab hEpoch).trans h.made
  born := h.born
  held m found hFound i v hItem := by
    change (l.store.replace n new).slabs[m]? = some found at hFound
    rw [SlabStore.getElem?_replace hSlab] at hFound
    split at hFound
    next hSame =>
        obtain rfl := Option.some.inj hFound
        rw [hSame]
        exact hOwn i v hItem
    next hNe =>
        rw [lastWritten, hOther m i hNe]
        exact h.held m found hFound i v hItem
  inside w hw := by
    change ∃ found, (l.store.replace n new).slabs[w.1.1]? = some found ∧ _
    rw [SlabStore.getElem?_replace hSlab]
    rcases hWrites w hw with hOld | ⟨hSame, hInside⟩
    · obtain ⟨found, hFound, hInside⟩ := h.inside w hOld
      split
      next hSame =>
          rw [hSame] at hFound
          cases hFound.symm.trans hSlab
          exact ⟨new, rfl, Nat.lt_of_lt_of_le hInside hSize⟩
      next => exact ⟨found, hFound, hInside⟩
    · rw [if_pos hSame]
      exact ⟨new, rfl, hInside⟩

/-- One more element is charged for, and it is zero like all that was never written to. -/
theorem Sound.alloc (h : l.Sound) (hSlab : l.store.slabs[n]? = some slab)
    (hLive : slab.epoch = l.store.arena.epoch) :
    Sound { l with
      store := { l.store.replace n slab.grown with
        arena := l.store.arena.charge slab.elemBytes } } := by
  have hSize : slab.grown.items.size = slab.items.size + 1 := by simp [Slab.grown]
  have hBytes : slab.grown.bytes = slab.bytes + slab.elemBytes := by
    rw [Slab.bytes, hSize]
    exact Nat.mul_succ ..
  refine h.replaced hSlab hLive rfl (by omega) (by omega) ?_ (fun _ _ _ => rfl)
    (fun w hw => .inl hw)
  intro i v hItem
  change (slab.items.push 0)[i]? = some v at hItem
  rw [Array.getElem?_push] at hItem
  split at hItem
  next hNew =>
      obtain rfl := Option.some.inj hItem
      have hNone := h.lastWritten_size hSlab
      rw [lastWritten] at hNone
      rw [hNew, hNone, Nat.zero_mod]
  next => exact h.held n slab hSlab i v hItem

/-- What is read back from an element is what was written to it last. -/
theorem Sound.set (h : l.Sound) (hSlab : l.store.slabs[n]? = some slab)
    (hLive : slab.epoch = l.store.arena.epoch) {i : Nat} (hi : i < slab.items.size) (value : Nat) :
    Sound { l with
      store := l.store.replace n (slab.written i value)
      writes := ((n, i), value) :: l.writes } := by
  have hSize : (slab.written i value).items.size = slab.items.size := by simp [Slab.written]
  refine h.replaced hSlab hLive rfl (by omega) ?_ ?_ ?_ ?_
  · rw [Slab.bytes, Slab.bytes, hSize]
    rfl
  · intro j v hItem
    change (slab.items.setIfInBounds i _)[j]? = some v at hItem
    rw [Array.getElem?_setIfInBounds] at hItem
    split at hItem
    next hEq =>
        subst hEq
        rw [List.lookup_cons_self]
        exact (Option.some.inj hItem).symm
    next hNe =>
        have hKey : ((n, j) == (n, i)) = false := by simpa using Ne.symm hNe
        rw [List.lookup_cons, hKey]
        exact h.held n slab hSlab j v hItem
  · intro m j hNe
    have hKey : ((m, j) == (n, i)) = false := by simp [hNe]
    rw [List.lookup_cons, hKey]
  · intro w hw
    rcases List.mem_cons.mp hw with rfl | hOld
    · exact .inr ⟨rfl, hSize ▸ hi⟩
    · exact .inl hOld

end Replaced

/-- A reset leaves no slab of the new epoch. -/
theorem Sound.reset (h : l.Sound) :
    Sound { l with store := l.store.reset, charges := l.store.arena.charged :: l.charges } where
  charged := by
    have hNone : l.store.reset.liveSlabs = [] := by
      refine List.filter_eq_nil_iff.mpr fun slab hMem => ?_
      obtain ⟨n, hSlab⟩ := Array.mem_iff_getElem?.mp (Array.mem_toList_iff.mp hMem)
      have hLe := h.epoch_le hSlab
      change ¬(slab.epoch == l.store.arena.epoch + 1) = true
      rw [beq_iff_eq]
      omega
    rw [hNone]
    rfl
  peak := by
    change max l.store.arena.peak l.store.arena.charged = _
    rw [h.peak, Nat.max_comm]
    rfl
  resets := congrArg (· + 1) h.resets
  epoch := congrArg (· + 1) h.epoch
  made := h.made
  born b hb := Nat.le_succ_of_le (h.born b hb)
  held := h.held
  inside := h.inside

/-- What fails leaves the log as it was. -/
theorem step_of_error {op : SlabOp} {fault : ArenaFault}
    (hFault : l.store.apply op = .error fault) : l.step op = l := by
  rw [step, hFault]

/-- Every operation keeps the books. -/
theorem Sound.step (h : l.Sound) (op : SlabOp) : (l.step op).Sound := by
  cases hApply : l.store.apply op with
  | error fault =>
      rw [step_of_error hApply]
      exact h
  | ok store =>
      rw [SlabLog.step, hApply]
      cases op with
      | newSlab elemBytes hint =>
          obtain rfl := SlabStore.newSlab_ok hApply
          exact h.newSlab elemBytes
      | alloc id =>
          obtain ⟨slab, hSlab, rfl⟩ := SlabStore.alloc_ok hApply
          obtain ⟨-, hItem, hLive⟩ := SlabStore.slab_eq_ok_iff.mp hSlab
          exact h.alloc hItem hLive
      | get id i =>
          obtain rfl := SlabStore.eq_of_map_ok hApply
          exact h
      | set id i value =>
          obtain ⟨slab, hSlab, hPos, hi, rfl⟩ := SlabStore.set_ok hApply
          obtain ⟨-, hItem, hLive⟩ := SlabStore.slab_eq_ok_iff.mp hSlab
          exact h.set hItem hLive (by omega) value
      | len id =>
          obtain rfl := SlabStore.eq_of_map_ok hApply
          exact h
      | reset =>
          obtain rfl := Except.ok.inj hApply
          exact h.reset

/-- So does every sequence of them. -/
theorem Sound.foldl (h : l.Sound) (ops : List SlabOp) : (ops.foldl SlabLog.step l).Sound := by
  induction ops generalizing l with
  | nil => exact h
  | cons op ops ih => exact ih (h.step op)

end Steps

/-- An arena whose books and elements are right, and which lets nobody use an old slab. Slab `n` is
old if there were fewer resets when it was made than there are now. Values are cut to the size of
the elements that they are written to. -/
structure Accounted (l : SlabLog) : Prop where
  charged : l.store.arena.charged =
    (l.store.liveSlabs.map fun slab => slab.elemBytes * slab.items.size).sum
  peak : l.store.arena.peak = l.charges.foldr max 0
  resets : l.store.arena.resets = l.charges.length
  epoch : l.store.arena.epoch = l.store.arena.resets + 1
  live : ∀ n : Nat, l.births[n]? = some l.charges.length → ∃ slab, l.store.slab n = .ok slab
  alloc : ∀ id slab, l.store.slab id = .ok slab →
    ∃ s, l.store.alloc id = .ok (slab.items.size, s) ∧ l.store.len id = .ok slab.items.size ∧
      s.len id = .ok (slab.items.size + 1) ∧ s.get id slab.items.size = .ok 0 ∧
      ∀ other i : Int, (other, i) ≠ (id, (slab.items.size : Int)) →
        s.get other i = l.store.get other i
  read : ∀ id slab, l.store.slab id = .ok slab → ∀ i : Nat, i < slab.items.size →
    l.store.get id i = .ok (l.lastWritten id.toNat i % 2 ^ (8 * slab.elemBytes))
  write : ∀ id slab, l.store.slab id = .ok slab → ∀ i : Nat, i < slab.items.size → ∀ value,
    (l.step (.set id i value)).writes = ((id.toNat, i), value) :: l.writes
  stale : ∀ (n b : Nat), l.births[n]? = some b → b < l.charges.length →
    ∀ op : SlabOp, op.slab? = some (n : Int) →
      l.store.apply op = .error (.stale (b + 1) l.store.arena.epoch) ∧ l.step op = l

section Accounts

variable {l : SlabLog} (h : l.Sound)

include h

theorem Sound.exists_slab {n b : Nat} (hBirth : l.births[n]? = some b) :
    ∃ slab, l.store.slabs[n]? = some slab ∧ slab.epoch = b + 1 := by
  have hEpoch : (l.store.slabs.toList.map Slab.epoch)[n]? = some (b + 1) := by
    rw [h.made, List.getElem?_map, hBirth, Option.map_some]
  rw [List.getElem?_map, Array.getElem?_toList] at hEpoch
  exact Option.map_eq_some_iff.mp hEpoch

/-- An old slab is refused, whatever it is used for. -/
theorem Sound.stale {n b : Nat} (hBirth : l.births[n]? = some b) (hOld : b < l.charges.length)
    {op : SlabOp} (hOp : op.slab? = some (n : Int)) :
    l.store.apply op = .error (.stale (b + 1) l.store.arena.epoch) := by
  obtain ⟨slab, hItem, hEpoch⟩ := h.exists_slab hBirth
  have hStale : slab.epoch ≠ l.store.arena.epoch := by
    rw [hEpoch, h.epoch]
    omega
  rw [← hEpoch]
  exact SlabStore.apply_of_slab_error hOp
    (SlabStore.slab_of_stale (Int.natCast_nonneg n) hItem hStale)

theorem Sound.accounted : l.Accounted where
  charged := h.charged
  peak := h.peak
  resets := h.resets
  epoch := h.epoch.trans (congrArg (· + 1) h.resets.symm)
  live n hBirth := by
    obtain ⟨slab, hItem, hEpoch⟩ := h.exists_slab hBirth
    exact ⟨slab, SlabStore.slab_eq_ok_iff.mpr
      ⟨Int.natCast_nonneg n, hItem, hEpoch.trans h.epoch.symm⟩⟩
  alloc id slab hSlab := by
    have hAlloc := SlabStore.alloc_eq hSlab
    obtain ⟨hZero, hFrame⟩ := SlabStore.get_alloc hSlab hAlloc
    refine ⟨_, hAlloc, SlabStore.len_eq hSlab, ?_, hZero, hFrame⟩
    rw [SlabStore.len_eq ((SlabStore.slab_alloc hSlab hAlloc id).trans (if_pos rfl))]
    simp [Slab.grown]
  read id slab hSlab i hi := by
    obtain ⟨-, hItem, -⟩ := SlabStore.slab_eq_ok_iff.mp hSlab
    have hValue := Array.getElem?_eq_getElem hi
    rw [SlabStore.get_eq hSlab (Int.natCast_nonneg i) hValue]
    exact congrArg Except.ok (h.held _ slab hItem i _ hValue)
  write id slab hSlab i hi value := by
    have hRange : (decide (0 ≤ (i : Int)) && decide ((i : Int) < slab.items.size)) = true := by
      simpa using hi
    simp only [SlabLog.step, SlabStore.apply, SlabStore.set, hSlab, if_pos hRange,
      Int.toNat_natCast]
  stale n b hBirth hOld op hOp := by
    have hFault := h.stale hBirth hOld hOp
    exact ⟨hFault, step_of_error hFault⟩

end Accounts

/-- Whatever is done with an arena and its slabs, the books are right. -/
theorem run_accounted (ops : List SlabOp) : (run ops).Accounted :=
  (sound_empty.foldl ops).accounted

/-- Two sizes of elements, a value that is cut, and a slab that is used after a reset. -/
theorem run_accounted_reused :
    let l := run [.newSlab 1 4, .newSlab 8 0, .alloc 0, .alloc 1, .alloc 0, .set 0 1 0x1ff, .reset,
      .newSlab 4 0, .alloc 2, .alloc 0]
    l.store.arena = ⟨2, 4, 10, 1⟩ ∧ l.births = [0, 0, 1] ∧
      l.store.apply (.get 0 1) = .error (.stale 1 2) ∧ l.step (.get 0 1) = l ∧ l.Accounted := by
  have hAccounted := run_accounted [.newSlab 1 4, .newSlab 8 0, .alloc 0, .alloc 1, .alloc 0,
    .set 0 1 0x1ff, .reset, .newSlab 4 0, .alloc 2, .alloc 0]
  obtain ⟨hFault, hSame⟩ := hAccounted.stale 0 0 rfl (by decide) (.get 0 1) rfl
  exact ⟨by decide, rfl, hFault, hSame, hAccounted⟩

end SlabLog

end TraceJit
