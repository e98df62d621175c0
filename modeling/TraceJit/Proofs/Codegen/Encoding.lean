import TraceJit.Proofs.Codegen.CodeCache
import TraceJit.Proofs.Codegen.Lowering

/-!
Programs as bytes. Assembling keeps to two limits, the budget and the room in the cache, in this
order. A program within both can be read back from where it was installed: the bytes hold the number
of its words, the number of its instructions and the words themselves, low byte first.
-/

namespace TraceJit

/-- The number that bytes stand for, low byte first. -/
def littleEndian : List UInt8 → Nat
  | [] => 0
  | b :: rest => b.toNat + 256 * littleEndian rest

def wordValues : List UInt8 → List Nat
  | b₀ :: b₁ :: b₂ :: b₃ :: rest => littleEndian [b₀, b₁, b₂, b₃] :: wordValues rest
  | _ => []

/-- The bytes of a word, read with the least one first, give the word. -/
@[simp] theorem littleEndian_wordBytes (w : UInt32) : littleEndian (wordBytes w) = w.toNat := by
  have hSmall := w.toNat_lt
  simp only [wordBytes, littleEndian, UInt32.toNat_toUInt8, UInt32.toNat_shiftRight,
    Nat.shiftRight_eq_div_pow]
  change w.toNat % 2 ^ 8 + 256 * (w.toNat / 2 ^ 8 % 2 ^ 8 + 256 * (w.toNat / 2 ^ 16 % 2 ^ 8 +
    256 * (w.toNat / 2 ^ 24 % 2 ^ 8 + 256 * 0))) = w.toNat
  omega

theorem wordValues_append (w : UInt32) (rest : List UInt8) :
    wordValues (wordBytes w ++ rest) = w.toNat :: wordValues rest :=
  congrArg (· :: wordValues rest) (littleEndian_wordBytes w)

/-- Words that are written are read back. -/
theorem wordValues_flatMap (words : List UInt32) :
    wordValues (words.flatMap wordBytes) = words.map (·.toNat) := by
  induction words with
  | nil => rfl
  | cons w words ih => rw [List.flatMap_cons, wordValues_append, ih, List.map_cons]

namespace Lowered

/-- Bytes of the program behind its header. -/
def bytes (p : Lowered) : Nat := headerBytes + 4 * p.words.size

/-- The program has a word for each instruction that it counts. -/
def Counted (p : Lowered) : Prop := 0 ≤ p.insts ∧ p.insts ≤ p.words.size

instance (p : Lowered) : Decidable p.Counted := inferInstanceAs (Decidable (_ ∧ _))

/-! ### What is lowered is counted -/

section Counted

variable {p q : Lowered}

theorem Counted.more (h : p.Counted) (hInsts : q.insts = p.insts)
    (hWords : p.words.size ≤ q.words.size) : q.Counted := by
  unfold Counted at h ⊢
  omega

/-- An instruction takes a word at least. -/
theorem Counted.addInsn (h : p.Counted) (singleStep : Bool) (n : Node) :
    (p.addInsn singleStep n).Counted := by
  have hWords : (p.addInsn singleStep n).words.size =
      p.words.size + max 1 (cost singleStep n) := by
    simp [Lowered.addInsn]
  have hInsts : (p.addInsn singleStep n).insts = p.insts + 1 := rfl
  unfold Counted at h ⊢
  omega

theorem Counted.foldl (h : p.Counted) (singleStep : Bool) (nodes : List Node) :
    (nodes.foldl (Lowered.addInsn singleStep) p).Counted := by
  induction nodes generalizing p with
  | nil => exact h
  | cons n nodes ih => exact ih (h.addInsn singleStep n)

/-- A block adds as many words as instructions at least. -/
theorem Counted.addBlock (h : p.Counted) {u : WorkUnit} {i : BlockId} {b : Block}
    (hBlock : p.addBlock u i b = .ok q) : q.Counted := by
  unfold Lowered.addBlock at hBlock
  split at hBlock
  case h_1 =>
      have hCode := h.foldl u.singleStep ((u.nodesOf i).map (·.2))
      cases hBlock
      split
      next => exact hCode.more rfl (by simp)
      next => exact hCode
  all_goals cases hBlock
  all_goals exact h.more rfl (by simp [Lowered.addCell])

theorem Counted.foldlM (h : p.Counted) {u : WorkUnit} {blocks : List (BlockId × Block)}
    (hFold : blocks.foldlM (fun p x => p.addBlock u x.1 x.2) p = .ok q) : q.Counted := by
  induction blocks generalizing p with
  | nil =>
      cases hFold
      exact h
  | cons x blocks ih =>
      rw [List.foldlM_cons] at hFold
      cases hBlock : p.addBlock u x.1 x.2 with
      | error e =>
          rw [hBlock] at hFold
          cases hFold
      | ok r =>
          rw [hBlock] at hFold
          exact ih (h.addBlock hBlock) hFold

/-- What is lowered counts no more instructions than it has words. -/
theorem counted_of_lower {u : WorkUnit} (hLower : u.lower = .ok p) : p.Counted :=
  Counted.foldlM (p := {}) (by decide) hLower

end Counted

end Lowered

namespace Assembler

variable {a b : Assembler} {p q : Lowered} {f : Fragment}

/-- The size that is checked is the number of bytes. -/
theorem length_encode (p : Lowered) : (encode p).length = p.bytes := by
  have hWords : (p.words.toList.flatMap wordBytes).length = 4 * p.words.size := by
    have hLength : (fun w => (wordBytes w).length) = fun _ => 4 := rfl
    rw [List.length_flatMap, hLength, List.map_const', List.sum_replicate, Array.length_toList,
      smul_eq_mul, Nat.mul_comm]
  rw [encode, List.length_append, List.length_append, hWords]
  rfl

/-- The bytes of a program hold its word count, its instruction count and its words. -/
theorem wordValues_encode (hCounted : p.Counted) (hSize : p.bytes < 2 ^ 32) :
    wordValues (encode p) = p.words.size :: p.insts.toNat :: p.words.toList.map (·.toNat) := by
  unfold Lowered.Counted at hCounted
  unfold Lowered.bytes headerBytes at hSize
  have hCount : p.words.size.toUInt32.toNat = p.words.size := by
    rw [Nat.toUInt32, UInt32.toNat_ofNat']
    omega
  have hInsts : (p.insts % UInt32.size).toNat.toUInt32.toNat = p.insts.toNat := by
    have hSmall : p.insts % (UInt32.size : Int) = p.insts :=
      Int.emod_eq_of_lt hCounted.1 (by change p.insts < 4294967296; omega)
    rw [hSmall, Nat.toUInt32, UInt32.toNat_ofNat']
    omega
  rw [encode, List.append_assoc, wordValues_append, wordValues_append, wordValues_flatMap, hCount,
    hInsts]

/-- So the bytes of a program determine it. -/
theorem eq_of_encode_eq (hp : p.Counted) (hpSize : p.bytes < 2 ^ 32) (hq : q.Counted)
    (hqSize : q.bytes < 2 ^ 32) (hSame : encode p = encode q) :
    p.words = q.words ∧ p.insts = q.insts := by
  have hValues := congrArg wordValues hSame
  rw [wordValues_encode hp hpSize, wordValues_encode hq hqSize] at hValues
  obtain ⟨_, hInsts, hWords⟩ : p.words.size = q.words.size ∧ p.insts.toNat = q.insts.toNat ∧
      p.words.toList.map (·.toNat) = q.words.toList.map (·.toNat) := by
    simpa using hValues
  refine ⟨Array.toList_inj.mp ?_, ?_⟩
  · exact List.map_injective_iff.mpr (fun _ _ hEq => UInt32.toNat_inj.mp hEq) hWords
  · have hpPos := hp.1
    have hqPos := hq.1
    omega

/-- The three ends of assembling a program whose size has a 32 bit form. -/
theorem assemble_cases (a : Assembler) (hSize : p.bytes < 2 ^ 32) :
    (a.maxBytes < p.bytes ∧ a.assemble p = .error (.tooLarge p.bytes a.maxBytes)) ∨
    (p.bytes ≤ a.maxBytes ∧ a.cache.capacity < a.cache.used + p.bytes ∧
      a.assemble p = .error (.cacheFull ⟨p.bytes, a.cache.used, a.cache.capacity⟩)) ∨
    (p.bytes ≤ a.maxBytes ∧ a.cache.used + p.bytes ≤ a.cache.capacity ∧
      ∃ f b, a.assemble p = .ok (f, b) ∧ f.size = p.bytes.toUInt32 ∧
        a.cache.install (encode p) = .ok (f.base, b.cache)) := by
  have hAligned : wordAligned (encode p).length = p.bytes := by
    rw [length_encode, wordAligned, Lowered.bytes, headerBytes]
    omega
  by_cases hLarge : a.maxBytes < p.bytes
  · exact .inl ⟨hLarge, if_pos hLarge⟩
  · have hBudget := Nat.le_of_not_lt hLarge
    have hAssemble : a.assemble p = _ := (if_neg hLarge).trans (if_neg (Nat.not_le.mpr hSize))
    rw [hAssemble]
    by_cases hFull : a.cache.capacity < a.cache.used + p.bytes
    · have hInstall : a.cache.install (encode p) =
          .error ⟨p.bytes, a.cache.used, a.cache.capacity⟩ := by
        rw [CodeCache.install, hAligned]
        exact if_pos hFull
      rw [hInstall]
      exact .inr (.inl ⟨hBudget, hFull, rfl⟩)
    · cases hInstall : a.cache.install (encode p) with
      | error e => exact absurd (hAligned ▸ CodeCache.install_error_iff.mp ⟨e, hInstall⟩) hFull
      | ok r => exact .inr (.inr ⟨hBudget, Nat.le_of_not_lt hFull, _, _, rfl, rfl, rfl⟩)

/-- A program is too large exactly if its bytes exceed the limit. -/
theorem assemble_eq_tooLarge_iff (hSize : p.bytes < 2 ^ 32) {size limit : Nat} :
    a.assemble p = .error (.tooLarge size limit) ↔
      a.maxBytes < p.bytes ∧ size = p.bytes ∧ limit = a.maxBytes := by
  rcases assemble_cases a hSize with
    ⟨hLarge, hEnd⟩ | ⟨hBudget, _, hEnd⟩ | ⟨hBudget, _, f, b, hEnd, _⟩
  · rw [hEnd]
    constructor
    · intro hSame
      cases hSame
      exact ⟨hLarge, rfl, rfl⟩
    · rintro ⟨_, rfl, rfl⟩
      rfl
  · rw [hEnd]
    exact iff_of_false (fun hSame => by cases hSame) fun h => Nat.not_lt.mpr hBudget h.1
  · rw [hEnd]
    exact iff_of_false (fun hSame => by cases hSame) fun h => Nat.not_lt.mpr hBudget h.1

/-- The cache is full exactly if the bytes do not fit behind what is there. -/
theorem assemble_eq_cacheFull_iff (hSize : p.bytes < 2 ^ 32) {e : CacheFull} :
    a.assemble p = .error (.cacheFull e) ↔
      p.bytes ≤ a.maxBytes ∧ a.cache.capacity < a.cache.used + p.bytes ∧
        e = ⟨p.bytes, a.cache.used, a.cache.capacity⟩ := by
  rcases assemble_cases a hSize with
    ⟨hLarge, hEnd⟩ | ⟨hBudget, hFull, hEnd⟩ | ⟨_, hRoom, f, b, hEnd, _⟩
  · rw [hEnd]
    exact iff_of_false (fun hSame => by cases hSame) fun h => Nat.not_le.mpr hLarge h.1
  · rw [hEnd]
    constructor
    · intro hSame
      cases hSame
      exact ⟨hBudget, hFull, rfl⟩
    · rintro ⟨_, _, rfl⟩
      rfl
  · rw [hEnd]
    exact iff_of_false (fun hSame => by cases hSame) fun h => Nat.not_lt.mpr hRoom h.2.1

/-- A program within both limits is installed. -/
theorem assemble_of_room (hSize : p.bytes < 2 ^ 32) (hBudget : p.bytes ≤ a.maxBytes)
    (hRoom : a.cache.used + p.bytes ≤ a.cache.capacity) : ∃ f b, a.assemble p = .ok (f, b) := by
  rcases assemble_cases a hSize with ⟨hLarge, _⟩ | ⟨_, hFull, _⟩ | ⟨_, _, f, b, hEnd, _⟩
  · exact absurd hLarge (Nat.not_lt.mpr hBudget)
  · exact absurd hFull (Nat.not_lt.mpr hRoom)
  · exact ⟨f, b, hEnd⟩

/-- An installed program can be read as a whole. -/
theorem read_of_assemble (hSize : p.bytes < 2 ^ 32)
    (hSpace : a.cache.base.toNat + a.cache.capacity < 2 ^ 64) (h : a.assemble p = .ok (f, b)) :
    f.size.toNat = p.bytes ∧ b.cache.read f.base f.size.toNat = .ok (encode p) := by
  rcases assemble_cases a hSize with
    ⟨_, hEnd⟩ | ⟨_, _, hEnd⟩ | ⟨_, _, _, _, hEnd, hBytes, hInstall⟩
  · cases hEnd.symm.trans h
  · cases hEnd.symm.trans h
  · cases hEnd.symm.trans h
    have hExact : f.size.toNat = p.bytes := by
      rw [hBytes, Nat.toUInt32, UInt32.toNat_ofNat']
      exact Nat.mod_eq_of_lt hSize
    refine ⟨hExact, ?_⟩
    rw [hExact, ← length_encode]
    exact CodeCache.read_of_install hSpace hInstall

/-- What is not assembled leaves everything as it was. -/
theorem compile_of_assemble_error {u : WorkUnit} {e : BackendError} (hLower : u.lower = .ok p)
    (h : a.assemble p = .error e) :
    (compile a false u).result = .error e ∧ (compile a false u).state = a := by
  unfold compile
  rw [if_neg Bool.false_ne_true, hLower]
  dsimp only
  rw [h]
  exact ⟨rfl, rfl⟩

structure Faithful (a : Assembler) (p : Lowered) : Prop where
  /-- The program is too large exactly if it exceeds the budget. -/
  tooLarge : ∀ size limit, a.assemble p = .error (.tooLarge size limit) ↔
    a.maxBytes < p.bytes ∧ size = p.bytes ∧ limit = a.maxBytes
  /-- If it does not, the cache is full exactly if there is no room for it. -/
  cacheFull : ∀ e, a.assemble p = .error (.cacheFull e) ↔
    p.bytes ≤ a.maxBytes ∧ a.cache.capacity < a.cache.used + p.bytes ∧
      e = ⟨p.bytes, a.cache.used, a.cache.capacity⟩
  /-- A unit whose program is refused leaves everything as it was. -/
  refused : ∀ (u : WorkUnit) e, u.lower = .ok p → a.assemble p = .error e →
    (compile a false u).result = .error e ∧ (compile a false u).state = a
  /-- Within both limits, the program can be read from where it was installed. -/
  installed : p.bytes ≤ a.maxBytes → a.cache.used + p.bytes ≤ a.cache.capacity →
    ∃ f b code, a.assemble p = .ok (f, b) ∧ f.size.toNat = p.bytes ∧
      b.cache.read f.base f.size.toNat = .ok code ∧
      wordValues code = p.words.size :: p.insts.toNat :: p.words.toList.map (·.toNat)
  /-- No other program is installed as the same bytes. -/
  distinct : ∀ (a' b b' : Assembler) (q : Lowered) (f g : Fragment) code,
    q.Counted → q.bytes < 2 ^ 32 → a'.cache.base.toNat + a'.cache.capacity < 2 ^ 64 →
    a.assemble p = .ok (f, b) → a'.assemble q = .ok (g, b') →
    b.cache.read f.base f.size.toNat = .ok code → b'.cache.read g.base g.size.toNat = .ok code →
    p.words = q.words ∧ p.insts = q.insts

/-- Assembling is faithful, whatever the cache holds, if the program has a word for each instruction
that it counts. What a unit is lowered to is such a program. -/
theorem assemble_faithful (a : Assembler) (p : Lowered) (hCounted : p.Counted)
    (hSize : p.bytes < 2 ^ 32) (hSpace : a.cache.base.toNat + a.cache.capacity < 2 ^ 64) :
    a.Faithful p ∧ ∀ (u : WorkUnit) q, u.lower = .ok q → q.Counted := by
  refine ⟨⟨fun _ _ => assemble_eq_tooLarge_iff hSize, fun _ => assemble_eq_cacheFull_iff hSize,
    fun _ _ hLower hError => compile_of_assemble_error hLower hError, ?_, ?_⟩,
    fun _ _ hLower => Lowered.counted_of_lower hLower⟩
  · intro hBudget hRoom
    obtain ⟨f, b, hEnd⟩ := assemble_of_room hSize hBudget hRoom
    obtain ⟨hExact, hRead⟩ := read_of_assemble hSize hSpace hEnd
    exact ⟨f, b, encode p, hEnd, hExact, hRead, wordValues_encode hCounted hSize⟩
  · intro a' b b' q f g code hq hqSize hqSpace hp hOther hRead hRead'
    have hCode := (read_of_assemble hSize hSpace hp).2.symm.trans hRead
    have hCode' := (read_of_assemble hqSize hqSpace hOther).2.symm.trans hRead'
    exact eq_of_encode_eq hCounted hSize hq hqSize (Except.ok.inj (hCode.trans hCode'.symm))

def jumpProgram : Lowered := { words := #[0x12000000, 0xff000001], insts := 1 }

/-- An assembler into a cache of which one word is used, with room for four more. -/
def tightAssembler : Assembler :=
  { cache := { base := 0x1000, capacity := 20, memory := #[9, 9, 9, 9], used := 4, count := 1 },
    maxBytes := 16 }

/-- The program fills budget and cache to the last byte. -/
theorem assemble_faithful_tight :
    jumpProgram.Counted ∧ jumpProgram.bytes < 2 ^ 32 ∧
    tightAssembler.cache.base.toNat + tightAssembler.cache.capacity < 2 ^ 64 ∧
    ∃ f b code, tightAssembler.assemble jumpProgram = .ok (f, b) ∧ f.size.toNat = 16 ∧
      b.cache.read f.base f.size.toNat = .ok code ∧
      wordValues code = [2, 1, 0x12000000, 0xff000001] := by
  have hCounted : jumpProgram.Counted := by decide
  have hSize : jumpProgram.bytes < 2 ^ 32 := by decide
  have hSpace : tightAssembler.cache.base.toNat + tightAssembler.cache.capacity < 2 ^ 64 := by
    decide
  have hFaithful := (assemble_faithful tightAssembler jumpProgram hCounted hSize hSpace).1
  exact ⟨hCounted, hSize, hSpace, hFaithful.installed (by decide) (by decide)⟩

end Assembler

end TraceJit
