import Mathlib
import TraceJit.Proofs.Codegen.Assembler

/-!
The code cache over whole runs. Installing writes right above what is used, so a piece of code is
not written to again before the cache is reset. A reset clears what was used; hence the memory
above the used part is zero at all times, and so is the filling between two pieces.
-/

namespace TraceJit

theorem le_wordAligned (n : Nat) : n ≤ wordAligned n := by
  unfold wordAligned
  omega

theorem dvd_wordAligned (n : Nat) : 4 ∣ wordAligned n := by
  unfold wordAligned
  omega

/-- Code, and the address that it was installed at. -/
structure Piece where
  addr : UInt64
  code : List UInt8

namespace Piece

/-- Bytes that the piece takes, its filling included. -/
def room (p : Piece) : Nat := wordAligned p.code.length

def range (p : Piece) : Set Nat := Set.Ico p.addr.toNat (p.addr.toNat + p.room)

end Piece

namespace CodeCache

theorem getD_putByte (memory : Array UInt8) (i j : Nat) (b : UInt8) :
    (putByte memory i b).getD j 0 = if j = i then b else memory.getD j 0 := by
  simp only [Array.getD_eq_getD_getElem?]
  unfold putByte
  split
  next hInside => grind
  next hOutside => grind

/-- Storing code changes the bytes under it and no other. -/
theorem getD_putBytes (memory : Array UInt8) (off i : Nat) (code : List UInt8) :
    (putBytes memory off code).getD i 0 =
      if off ≤ i ∧ i < off + code.length then code.getD (i - off) 0 else memory.getD i 0 := by
  induction code generalizing memory off with
  | nil =>
      rw [putBytes, if_neg (by simp)]
  | cons b rest ih =>
      rw [putBytes, ih, getD_putByte]
      rcases Nat.lt_trichotomy i off with hBelow | rfl | hAbove
      · rw [if_neg (by omega), if_neg (by omega), if_neg (by omega)]
      · rw [if_neg (by omega), if_pos rfl, if_pos (by simp), Nat.sub_self, List.getD_cons_zero]
      · have hIndex : i - off = i - (off + 1) + 1 := by omega
        rw [if_neg (Nat.ne_of_gt hAbove), hIndex, List.getD_cons_succ, List.length_cons]
        congr 1
        exact propext (by omega)

section Operations

variable {c d : CodeCache} {code : List UInt8} {addr : UInt64}

/-- An install is refused exactly if there is no room for whole words. -/
theorem install_error_iff :
    (∃ e, c.install code = .error e) ↔ c.capacity < c.used + wordAligned code.length := by
  unfold install
  dsimp only
  split
  next hFull => exact iff_of_true ⟨_, rfl⟩ hFull
  next hRoom => exact iff_of_false (by simp) hRoom

/-- What an install does where there is room. -/
theorem install_ok (h : c.install code = .ok (addr, d)) :
    c.used + wordAligned code.length ≤ c.capacity ∧ addr = c.base + c.used.toUInt64 ∧
      d = { c with memory := putBytes c.memory c.used code,
                   used := c.used + wordAligned code.length, count := c.count + 1 } := by
  unfold install at h
  dsimp only at h
  split at h
  next => cases h
  next hRoom =>
      cases h
      exact ⟨Nat.le_of_not_lt hRoom, rfl, rfl⟩

/-- What the cache holds after an installation. -/
theorem byteAt_of_install (h : c.install code = .ok (addr, d)) (i : Nat) :
    d.byteAt i =
      if c.used ≤ i ∧ i < c.used + code.length then code.getD (i - c.used) 0 else c.byteAt i := by
  obtain ⟨_, _, rfl⟩ := install_ok h
  exact getD_putBytes ..

/-- What the cache holds after a reset. -/
theorem byteAt_reset (c : CodeCache) (i : Nat) :
    c.reset.byteAt i = if i < c.used then 0 else c.byteAt i := by
  rw [reset, byteAt, getD_putBytes, byteAt, List.length_replicate]
  simp only [Nat.zero_le, true_and, Nat.zero_add, Nat.sub_zero]
  split
  next hUsed => simp [hUsed]
  next => rfl

/-- A read inside the used part gives its bytes. -/
theorem read_eq {off n : Nat} (hAddr : addr.toNat = c.base.toNat + off)
    (hInside : off + n ≤ c.used) :
    c.read addr n = .ok ((List.range n).map fun i => c.byteAt (off + i)) := by
  have hBelow : ¬addr < c.base := by
    rw [UInt64.not_lt, UInt64.le_iff_toNat_le]
    omega
  have hOff : (addr - c.base).toNat = off := by
    rw [UInt64.toNat_sub_of_le _ _ (UInt64.not_lt.mp hBelow), hAddr, Nat.add_sub_cancel_left]
  -- Where the sum of offset and length wraps, it becomes smaller.
  have hWrap : Int.bmod ((off : Int) + n) UInt64.size ≤ c.used := by
    have hMod : ((off : Int) + n) % (UInt64.size : Int) ≤ off + n :=
      mod_cast Nat.mod_le (off + n) UInt64.size
    rw [Int.bmod_def]
    split <;> omega
  rw [CodeCache.read, if_neg hBelow]
  simp only [hOff, Int.toNat_natCast]
  rw [if_neg (by simp; omega), if_neg (by simp; omega)]

theorem bytes_eq {off : Nat} (hBytes : ∀ i < code.length, c.byteAt (off + i) = code.getD i 0) :
    (List.range code.length).map (fun i => c.byteAt (off + i)) = code := by
  apply List.ext_getElem
  · simp
  · intro i _ hi
    rw [List.getElem_map, List.getElem_range, hBytes i hi, List.getD_eq_getElem _ _ hi]

/-- The address behind the used part. -/
theorem toNat_top (c : CodeCache) (hSpace : c.base.toNat + c.used < 2 ^ 64) :
    (c.base + c.used.toUInt64).toNat = c.base.toNat + c.used := by
  rw [UInt64.toNat_add, Nat.toUInt64, UInt64.toNat_ofNat']
  omega

/-- Code that was just installed can be read, whatever the cache was before. -/
theorem read_of_install (hSpace : c.base.toNat + c.capacity < 2 ^ 64)
    (h : c.install code = .ok (addr, d)) : d.read addr code.length = .ok code := by
  have hByte := byteAt_of_install h
  have hLength := le_wordAligned code.length
  obtain ⟨hRoom, rfl, hCache⟩ := install_ok h
  have hBase : d.base = c.base := by rw [hCache]
  have hUsed : d.used = c.used + wordAligned code.length := by rw [hCache]
  have hAddr : (c.base + c.used.toUInt64).toNat = d.base.toNat + c.used := by
    rw [hBase, c.toNat_top (by omega)]
  rw [read_eq hAddr (by omega)]
  refine congrArg Except.ok (bytes_eq fun i hi => ?_)
  rw [hByte, Nat.add_sub_cancel_left, if_pos (by omega)]

end Operations

/-- The piece lies at position `off` of the used part, with zeros behind it up to whole words. -/
structure Holds (c : CodeCache) (p : Piece) (off : Nat) : Prop where
  addr : p.addr.toNat = c.base.toNat + off
  aligned : 4 ∣ off
  inside : off + p.room ≤ c.used
  bytes : ∀ i < p.room, c.byteAt (off + i) = p.code.getD i 0

namespace Holds

variable {c d : CodeCache} {p : Piece} {off : Nat}

/-- A piece stays where it is as long as nothing below the used part is written. -/
theorem frame (h : c.Holds p off) (hBase : d.base = c.base) (hUsed : c.used ≤ d.used)
    (hSame : ∀ i < c.used, d.byteAt i = c.byteAt i) : d.Holds p off where
  addr := hBase ▸ h.addr
  aligned := h.aligned
  inside := Nat.le_trans h.inside hUsed
  bytes i hi := by
    have hInside := h.inside
    rw [hSame (off + i) (by omega)]
    exact h.bytes i hi

/-- Code that the cache holds can be read. -/
theorem read (h : c.Holds p off) : c.read p.addr p.code.length = .ok p.code := by
  have hRoom : p.code.length ≤ p.room := le_wordAligned _
  rw [read_eq h.addr (Nat.le_trans (Nat.add_le_add_left hRoom off) h.inside)]
  exact congrArg Except.ok (bytes_eq fun i hi => h.bytes i (Nat.lt_of_lt_of_le hi hRoom))

end Holds

end CodeCache

/-- What can be done to a code cache. Code is assembled under a budget of bytes. -/
inductive CacheOp where
  | install (code : List UInt8)
  | assemble (maxBytes : Nat) (p : Lowered)
  | reset

/-- A code cache, and the pieces installed in it since it was last reset, in order. -/
structure CacheLog where
  cache : CodeCache
  live : List Piece

namespace CacheLog

/-- One operation; one that fails changes nothing. -/
def step (l : CacheLog) : CacheOp → CacheLog
  | .install code =>
      match l.cache.install code with
      | .error _ => l
      | .ok (addr, cache) => ⟨cache, l.live ++ [⟨addr, code⟩]⟩
  | .assemble maxBytes p =>
      match Assembler.assemble ⟨l.cache, maxBytes⟩ p with
      | .error _ => l
      | .ok (f, a) => ⟨a.cache, l.live ++ [⟨f.base, Assembler.encode p⟩]⟩
  | .reset => ⟨l.cache.reset, []⟩

/-- The operations one after the other on an empty cache. -/
def run (base : UInt64) (capacity : Nat) (ops : List CacheOp) : CacheLog :=
  ops.foldl step ⟨.empty base capacity, []⟩

/-- What every operation keeps up. The pieces stand in the order of their addresses. -/
structure Sound (base : UInt64) (capacity : Nat) (l : CacheLog) : Prop where
  base_eq : l.cache.base = base
  capacity_eq : l.cache.capacity = capacity
  used : l.cache.used = (l.live.map Piece.room).sum
  words : 4 ∣ l.cache.used
  fits : l.cache.used ≤ capacity
  count : l.cache.count = l.live.length
  ordered : l.live.Pairwise fun p q => p.addr.toNat + p.room ≤ q.addr.toNat
  held : ∀ p ∈ l.live, ∃ off, l.cache.Holds p off
  above : ∀ i, l.cache.used ≤ i → l.cache.byteAt i = 0

section Steps

variable {base : UInt64} {capacity : Nat} {l : CacheLog}

theorem sound_empty (base : UInt64) (capacity : Nat) :
    Sound base capacity ⟨.empty base capacity, []⟩ where
  base_eq := rfl
  capacity_eq := rfl
  used := rfl
  words := Nat.dvd_zero 4
  fits := Nat.zero_le _
  count := rfl
  ordered := .nil
  held := by simp
  above := by simp [CodeCache.byteAt, CodeCache.empty]

/-- The next address does not wrap as long as the cache lies below the end of memory. -/
theorem Sound.toNat_addr (h : Sound base capacity l) (hSpace : base.toNat + capacity < 2 ^ 64) :
    (l.cache.base + l.cache.used.toUInt64).toNat = l.cache.base.toNat + l.cache.used := by
  have hFits := h.fits
  exact l.cache.toNat_top (by rw [h.base_eq]; omega)

section Installed

variable {code : List UInt8} {addr : UInt64} {cache : CodeCache}

/-- A new piece comes right behind the used part, which is zero up there. -/
theorem Sound.holds_new (h : Sound base capacity l) (hSpace : base.toNat + capacity < 2 ^ 64)
    (hInstall : l.cache.install code = .ok (addr, cache)) :
    cache.Holds ⟨addr, code⟩ l.cache.used := by
  have hByte := CodeCache.byteAt_of_install hInstall
  obtain ⟨_, rfl, hCache⟩ := CodeCache.install_ok hInstall
  have hBase : cache.base = l.cache.base := by rw [hCache]
  have hUsed : cache.used = l.cache.used + wordAligned code.length := by rw [hCache]
  refine ⟨hBase ▸ h.toNat_addr hSpace, h.words, Nat.le_of_eq hUsed.symm, fun i hi => ?_⟩
  rw [hByte, Nat.add_sub_cancel_left]
  by_cases hCode : i < code.length
  · rw [if_pos (by omega)]
  · rw [if_neg (by omega), h.above _ (by omega), List.getD_eq_default _ _ (by simpa using hCode)]

/-- The pieces that were there before stay as they are. -/
theorem Sound.holds_old (h : Sound base capacity l)
    (hInstall : l.cache.install code = .ok (addr, cache)) :
    ∀ p ∈ l.live, ∃ off, cache.Holds p off := by
  have hByte := CodeCache.byteAt_of_install hInstall
  obtain ⟨_, _, hCache⟩ := CodeCache.install_ok hInstall
  have hBase : cache.base = l.cache.base := by rw [hCache]
  have hUsed : cache.used = l.cache.used + wordAligned code.length := by rw [hCache]
  intro p hp
  obtain ⟨off, hHolds⟩ := h.held p hp
  refine ⟨off, hHolds.frame hBase (by omega) fun i hi => ?_⟩
  rw [hByte, if_neg (by omega)]

/-- An installation keeps what was installed and adds its own code at the end. -/
theorem Sound.install (h : Sound base capacity l) (hSpace : base.toNat + capacity < 2 ^ 64)
    (hInstall : l.cache.install code = .ok (addr, cache)) :
    Sound base capacity ⟨cache, l.live ++ [⟨addr, code⟩]⟩ := by
  have hByte := CodeCache.byteAt_of_install hInstall
  have hNew := h.holds_new hSpace hInstall
  have hOld := h.holds_old hInstall
  obtain ⟨hRoom, rfl, hCache⟩ := CodeCache.install_ok hInstall
  have hBase : cache.base = l.cache.base := by rw [hCache]
  have hUsed : cache.used = l.cache.used + wordAligned code.length := by rw [hCache]
  have hLength := le_wordAligned code.length
  rw [h.capacity_eq] at hRoom
  refine ⟨hBase.trans h.base_eq, by rw [hCache]; exact h.capacity_eq, ?_,
    hUsed ▸ Nat.dvd_add h.words (dvd_wordAligned _), hUsed ▸ hRoom, ?_, ?_, ?_, ?_⟩
  · rw [hUsed, h.used]
    simp [Piece.room]
  · rw [hCache, List.length_append, h.count]
    rfl
  · refine List.pairwise_append.mpr ⟨h.ordered, List.pairwise_singleton .., ?_⟩
    intro p hp q hq
    obtain ⟨off, hHolds⟩ := h.held p hp
    have hInside := hHolds.inside
    rw [List.mem_singleton.mp hq, hHolds.addr, h.toNat_addr hSpace]
    omega
  · intro p hp
    rcases List.mem_append.mp hp with hp | hp
    · exact hOld p hp
    · obtain rfl := List.mem_singleton.mp hp
      exact ⟨_, hNew⟩
  · intro i hi
    have hAbove : l.cache.used + wordAligned code.length ≤ i := hUsed ▸ hi
    rw [hByte, if_neg (by omega)]
    exact h.above i (by omega)

end Installed

/-- A reset drops all that was installed. -/
theorem Sound.reset (h : Sound base capacity l) : Sound base capacity ⟨l.cache.reset, []⟩ where
  base_eq := h.base_eq
  capacity_eq := h.capacity_eq
  used := rfl
  words := Nat.dvd_zero 4
  fits := Nat.zero_le _
  count := rfl
  ordered := .nil
  held := by simp
  above i _ := by
    rw [CodeCache.byteAt_reset]
    split
    next => rfl
    next hAbove => exact h.above i (Nat.le_of_not_lt hAbove)

/-- Every operation keeps the cache in order. -/
theorem Sound.step (h : Sound base capacity l) (hSpace : base.toNat + capacity < 2 ^ 64)
    (op : CacheOp) : Sound base capacity (l.step op) := by
  cases op with
  | install code =>
      rw [CacheLog.step]
      cases hInstall : l.cache.install code with
      | error e => exact h
      | ok r => exact h.install hSpace hInstall
  | assemble maxBytes p =>
      rw [CacheLog.step]
      cases hAssemble : Assembler.assemble ⟨l.cache, maxBytes⟩ p with
      | error e => exact h
      | ok r => exact h.install hSpace (Assembler.assemble_ok hAssemble).1
  | reset => exact h.reset

/-- So does every sequence of them. -/
theorem Sound.foldl (h : Sound base capacity l) (hSpace : base.toNat + capacity < 2 ^ 64)
    (ops : List CacheOp) : Sound base capacity (ops.foldl CacheLog.step l) := by
  induction ops generalizing l with
  | nil => exact h
  | cons op ops ih => exact ih (h.step hSpace op)

/-- A cache whose pieces are all there and apart from each other, with zeros everywhere else. -/
structure Intact (base : UInt64) (capacity : Nat) (l : CacheLog) : Prop where
  used : l.cache.used = (l.live.map fun p => wordAligned p.code.length).sum
  fits : l.cache.used ≤ capacity
  count : l.cache.count = l.live.length
  apart : l.live.Pairwise fun p q => Disjoint p.range q.range
  inside : ∀ p ∈ l.live, p.range ⊆ Set.Ico base.toNat (base.toNat + l.cache.used)
  aligned : ∀ p ∈ l.live, ∃ k, p.addr.toNat = base.toNat + 4 * k
  read : ∀ p ∈ l.live, l.cache.read p.addr p.code.length = .ok p.code
  above : ∀ i, l.cache.used ≤ i → l.cache.byteAt i = 0
  filling : ∀ p ∈ l.live, ∀ i, p.code.length ≤ i → i < p.room →
    l.cache.byteAt (p.addr.toNat - base.toNat + i) = 0
  refuses : ∀ code, (∃ e, l.cache.install code = .error e) ↔
    capacity < l.cache.used + wordAligned code.length

theorem Sound.intact (h : Sound base capacity l) : Intact base capacity l where
  used := h.used
  fits := h.fits
  count := h.count
  apart := h.ordered.imp fun hOrder => by
    rw [Piece.range, Piece.range, Set.Ico_disjoint_Ico]
    omega
  inside p hp := by
    obtain ⟨off, hHolds⟩ := h.held p hp
    have hAddr := hHolds.addr
    have hInside := hHolds.inside
    rw [h.base_eq] at hAddr
    exact Set.Ico_subset_Ico (by omega) (by omega)
  aligned p hp := by
    obtain ⟨off, hHolds⟩ := h.held p hp
    obtain ⟨k, rfl⟩ := hHolds.aligned
    exact ⟨k, h.base_eq ▸ hHolds.addr⟩
  read p hp := by
    obtain ⟨off, hHolds⟩ := h.held p hp
    exact hHolds.read
  above := h.above
  filling p hp i hCode hRoom := by
    obtain ⟨off, hHolds⟩ := h.held p hp
    rw [hHolds.addr, h.base_eq, Nat.add_sub_cancel_left, hHolds.bytes i hRoom,
      List.getD_eq_default _ _ hCode]
  refuses code := h.capacity_eq ▸ CodeCache.install_error_iff

end Steps

/-- Whatever is done to a cache, it stays in order, and a refused install leaves it as it is. -/
theorem run_intact (base : UInt64) (capacity : Nat) (hSpace : base.toNat + capacity < 2 ^ 64)
    (ops : List CacheOp) :
    Intact base capacity (run base capacity ops) ∧
      ∀ code e, (run base capacity ops).cache.install code = .error e →
        run base capacity (ops ++ [.install code]) = run base capacity ops := by
  refine ⟨((sound_empty base capacity).foldl hSpace ops).intact, fun code e hFull => ?_⟩
  rw [run, List.foldl_append, ← run, List.foldl_cons, List.foldl_nil, step, hFull]

/-- A cache that is filled up again after a reset, with an empty piece and one that does not
fit. -/
theorem run_intact_refilled :
    let ops := [.install [1, 2, 3, 4, 5], .reset, .install [6], .install [], .assemble 64 {},
      .install [7, 8, 9, 10, 11]]
    (run 0x1000 16 ops).live.map Piece.addr = [0x1000, 0x1004, 0x1004] ∧
      Intact 0x1000 16 (run 0x1000 16 ops) :=
  ⟨by decide, (run_intact 0x1000 16 (by decide) _).1⟩

end CacheLog

end TraceJit
