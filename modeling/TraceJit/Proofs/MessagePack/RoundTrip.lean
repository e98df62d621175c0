import Mathlib.Tactic.MkIffOfInductiveProp
import Mathlib.Tactic.Ring
import TraceJit.MessagePack.Read

/-!
Values in the MessagePack format are read back as they were written. A reader takes exactly the
octets of its value from the front, whatever stands behind them; so readers of parts add up to
readers of wholes.
-/

namespace TraceJit.MessagePack

variable {α β : Type}

/-- The reader takes exactly `octets` from the front and gives `a`. -/
def Takes (r : Reader α) (octets : List UInt8) (a : α) : Prop :=
  ∀ rest, r (octets ++ rest) = .ok (a, rest)

/-! ### Readers one after the other -/

section Readers

variable {r : Reader α} {f : α → Reader β} {xs ys : List UInt8} {a : α} {b : β}

theorem takes_pure (a : α) : Takes (pure a) [] a := fun _ => rfl

theorem takes_byte (c : UInt8) : Takes byte [c] c := fun _ => rfl

/-- What is written in two parts is read in two parts. -/
theorem Takes.bind (h : Takes r xs a) (hf : Takes (f a) ys b) : Takes (r >>= f) (xs ++ ys) b := by
  intro rest
  change (r (xs ++ ys ++ rest) >>= fun p => f p.1 p.2) = _
  rw [List.append_assoc, h]
  exact hf rest

theorem Takes.map (h : Takes r xs a) (g : α → β) : Takes (g <$> r) xs (g a) := by
  intro rest
  change (r (xs ++ rest) >>= fun p => pure (g p.1, p.2)) = _
  rw [h]
  rfl

/-- A value may be put into place once it is read. -/
theorem Takes.bind_pure (h : Takes r xs a) (g : α → β) :
    Takes (r >>= fun a => pure (g a)) xs (g a) := by
  have hTakes := h.bind (f := fun a => pure (g a)) (takes_pure (g a))
  rwa [List.append_nil] at hTakes

/-- The first octet settles what is read behind it. -/
theorem takes_byte_bind {f : UInt8 → Reader β} {c : UInt8} (hf : Takes (f c) ys b) :
    Takes (byte >>= f) (c :: ys) b :=
  (takes_byte c).bind hf

end Readers

/-! ### Octets -/

theorem splitExactly_append (front rest : List UInt8) :
    splitExactly front.length (front ++ rest) = .ok (front, rest) := by
  induction front with
  | nil => rfl
  | cons b front ih => simp [splitExactly, ih, Except.map]

theorem takes_bytes {octets : List UInt8} {n : Nat} (h : octets.length = n) :
    Takes (bytes n) octets octets := by
  subst h
  exact splitExactly_append octets

theorem length_bigEndian (width n : Nat) : (bigEndian width n).length = width := by
  induction width with
  | zero => rfl
  | succ width ih => simp [bigEndian, ih]

/-- The value of bytes with the greatest one first. -/
theorem foldl_bigEndian (width n start : Nat) :
    (bigEndian width n).foldl (fun n b => n * 256 + b.toNat) start =
      start * 256 ^ width + n % 256 ^ width := by
  induction width generalizing start with
  | zero => simp [bigEndian, Nat.mod_one]
  | succ width ih =>
      have hDigit : (n >>> (8 * width)).toUInt8.toNat = n / 256 ^ width % 256 := by
        simp [Nat.shiftRight_eq_div_pow, Nat.pow_mul]
      rw [bigEndian, List.foldl_cons, ih, hDigit, Nat.pow_succ, Nat.mod_mul]
      ring

/-- The octets of a number tell it, up to what they have no room for. -/
theorem ofBigEndian_bigEndian (width n : Nat) :
    ofBigEndian (bigEndian width n) = n % 256 ^ width := by
  rw [ofBigEndian, foldl_bigEndian, Nat.zero_mul, Nat.zero_add]

theorem takes_unsigned_mod (width n : Nat) :
    Takes (unsigned width) (bigEndian width n) (n % 256 ^ width) := by
  rw [← ofBigEndian_bigEndian]
  exact (takes_bytes (length_bigEndian width n)).map ofBigEndian

/-- A number is read back from as many bytes as it needs. -/
theorem takes_unsigned {width n : Nat} (h : n < 256 ^ width) :
    Takes (unsigned width) (bigEndian width n) n := by
  have hTakes := takes_unsigned_mod width n
  rwa [Nat.mod_eq_of_lt h] at hTakes

/-- A number with sign is read back from its octets in two's complement. -/
theorem takes_signed {width n : Nat} {i : Int} (hNumber : Int.bmod n (256 ^ width) = i) :
    Takes (signed width) (bigEndian width n) i := by
  have hSize : 1 <<< (8 * width) = 256 ^ width := by rw [Nat.one_shiftLeft, Nat.pow_mul]
  have hMod : Int.bmod ((n % 256 ^ width : Nat) : Int) (256 ^ width) = i := by
    rw [← hNumber, Int.natCast_emod]
    exact Int.emod_bmod ..
  have hTakes := ((takes_unsigned_mod width n).bind_pure Int.ofNat).map
    fun n : Int => Int.bmod n (256 ^ width)
  rw [signed, hSize]
  rwa [Int.ofNat_eq_natCast, hMod] at hTakes

/-! ### Numbers -/

/-- The number is one of a signed word of 64 bits. -/
def InWord (i : Int) : Prop := -2 ^ 63 ≤ i ∧ i < 2 ^ 63

instance (i : Int) : Decidable (InWord i) := inferInstanceAs (Decidable (_ ∧ _))

/-- Small numbers are octets of their own. -/
theorem takes_anyNumber_octet {c : UInt8} (h : c < 0x80 ∨ 0xe0 ≤ c) :
    Takes anyNumber [c] (Int.bmod c.toNat 256) := by
  refine takes_byte_bind ?_
  split
  case h_10 => exact (if_pos h).symm ▸ takes_pure _
  all_goals exact absurd h (by decide)

/-- Numbers that are not negative are read back in each of their forms. -/
theorem takes_anyNumber_natural {n : Nat} (h : n < 2 ^ 64) :
    Takes anyNumber (number (n : Int)) n := by
  rw [number, if_pos (Int.natCast_nonneg n)]
  simp only [Int.toNat_natCast]
  split
  next hSmall =>
      have hOctet : n.toUInt8.toNat = n := by
        simp only [Nat.toUInt8, UInt8.toNat_ofNat']
        omega
      have hTakes := takes_anyNumber_octet (c := n.toUInt8) (.inl (by
        rw [UInt8.lt_iff_toNat_lt, hOctet]
        exact hSmall))
      rw [hOctet] at hTakes
      rwa [Int.bmod_eq_of_le_mul_two (by omega) (by omega)] at hTakes
  next =>
      split
      next => exact takes_byte_bind ((takes_unsigned (by omega)).map Int.ofNat)
      next =>
          split
          next => exact takes_byte_bind ((takes_unsigned (by omega)).map Int.ofNat)
          next =>
              split
              next => exact takes_byte_bind ((takes_unsigned (by omega)).map Int.ofNat)
              next => exact takes_byte_bind ((takes_unsigned (by omega)).map Int.ofNat)

/-- A number in two's complement of 64 bits is the same in fewer octets with room for it. -/
theorem bmod_complement {i : Int} {width : Nat} (hWidth : width ≤ 8)
    (hLow : -(256 ^ width : Nat) ≤ i * 2) (hHigh : i * 2 < (256 ^ width : Nat)) :
    Int.bmod (i % UInt64.size).toNat (256 ^ width) = i := by
  have hDvd : ((256 ^ width : Nat) : Int) ∣ UInt64.size :=
    Int.natCast_dvd_natCast.mpr (Nat.pow_dvd_pow 256 hWidth)
  have hPos : (0 : Int) ≤ i % UInt64.size := Int.emod_nonneg _ (by decide)
  rw [Int.toNat_of_nonneg hPos, ← Int.emod_bmod, Int.emod_emod_of_dvd _ hDvd, Int.emod_bmod]
  exact Int.bmod_eq_of_le_mul_two hLow hHigh

/-- Negative numbers are read back in each of their forms. -/
theorem takes_anyNumber_negative {i : Int} (hLow : -2 ^ 63 ≤ i) (hNeg : i < 0) :
    Takes anyNumber (number i) i := by
  have hComplement : ∀ width ≤ 8, -(256 ^ width : Nat) ≤ i * 2 →
      Takes (signed width) (bigEndian width (i % UInt64.size).toNat) i :=
    fun width hWidth hRoom => takes_signed (bmod_complement hWidth hRoom (by omega))
  rw [number, if_neg (by omega)]
  dsimp only
  split
  next hSmall =>
      have hOctet : ((i % UInt64.size).toNat >>> (8 * 0)).toUInt8.toNat = (256 + i).toNat := by
        have hSize : (UInt64.size : Int) = 2 ^ 64 := rfl
        rw [hSize]
        simp only [Nat.toUInt8, UInt8.toNat_ofNat', Nat.mul_zero, Nat.shiftRight_zero]
        omega
      have hTakes := takes_anyNumber_octet (.inr (by
        rw [UInt8.le_iff_toNat_le, hOctet]
        change 224 ≤ _
        omega))
      rw [hOctet] at hTakes
      have hSame : Int.bmod (256 + i).toNat 256 = i := by
        rw [Int.bmod_def]
        split <;> omega
      rwa [hSame] at hTakes
  next =>
      split
      next => exact takes_byte_bind (hComplement 1 (by decide) (by omega))
      next =>
          split
          next => exact takes_byte_bind (hComplement 2 (by decide) (by omega))
          next =>
              split
              next => exact takes_byte_bind (hComplement 4 (by decide) (by omega))
              next => exact takes_byte_bind (hComplement 8 (by decide) (by omega))

/-- All numbers of a word are read back. -/
theorem takes_anyNumber {i : Int} (h : InWord i) : Takes anyNumber (number i) i := by
  obtain ⟨hLow, hHigh⟩ := h
  by_cases hPos : 0 ≤ i
  · obtain ⟨n, rfl⟩ := Int.eq_ofNat_of_zero_le hPos
    exact takes_anyNumber_natural (by omega)
  · exact takes_anyNumber_negative hLow (by omega)

/-- A number is read back as it was written. -/
theorem takes_number {i : Int} (h : InWord i) : Takes readNumber (number i) i := by
  have hTakes := (takes_anyNumber h).map (Int.bmod · UInt64.size)
  obtain ⟨hLow, hHigh⟩ := h
  have hSize : (UInt64.size : Int) = 2 ^ 64 := rfl
  rwa [Int.bmod_eq_of_le_mul_two (by omega) (by omega)] at hTakes

/-- A word of a fixed width is read back as it was written. -/
theorem takes_readWord {bits n : Nat} {octets : List UInt8} (h : Takes anyNumber octets (n : Int))
    (hn : n < 2 ^ bits) : Takes (readWord bits) octets n := by
  have hTakes := h.map fun i : Int => (i % (1 <<< bits : Nat)).toNat
  have hSame : ((n : Int) % (1 <<< bits : Nat)).toNat = n := by
    rw [Nat.one_shiftLeft, ← Int.natCast_emod, Int.toNat_natCast, Nat.mod_eq_of_lt hn]
  simp only [hSame] at hTakes
  exact hTakes

theorem takes_word16 (n : UInt16) : Takes (readWord 16) (word16 n) n.toNat :=
  takes_readWord (takes_byte_bind ((takes_unsigned n.toNat_lt).map Int.ofNat)) n.toNat_lt

theorem takes_word32 (n : UInt32) : Takes (readWord 32) (word32 n) n.toNat :=
  takes_readWord (takes_byte_bind ((takes_unsigned n.toNat_lt).map Int.ofNat)) n.toNat_lt

theorem takes_word64 (n : UInt64) : Takes (readWord 64) (word64 n) n.toNat :=
  takes_readWord (takes_byte_bind ((takes_unsigned n.toNat_lt).map Int.ofNat)) n.toNat_lt

/-! ### Texts -/

/-- A small length is part of the first octet, which has room for it from `base` to `top`. -/
theorem header_bounds (base top : UInt8) {n : Nat} (h : base.toNat + n < top.toNat) :
    (base ≤ base + n.toUInt8 ∧ base + n.toUInt8 < top) ∧ (base + n.toUInt8 - base).toNat = n := by
  have hTop := top.toNat_lt
  have hOctet : n.toUInt8.toNat = n := by
    simp only [Nat.toUInt8, UInt8.toNat_ofNat']
    omega
  have hSum : (base + n.toUInt8).toNat = base.toNat + n := by
    rw [UInt8.toNat_add, hOctet]
    omega
  rw [UInt8.le_iff_toNat_le, UInt8.lt_iff_toNat_lt, hSum]
  refine ⟨⟨Nat.le_add_right .., h⟩, ?_⟩
  rw [UInt8.add_comm, UInt8.add_sub_cancel, hOctet]

/-- What the format has room for in the length of a text or of a list. -/
def maxLength : Nat := 2 ^ 32

theorem takes_readOctets_short {octets : List UInt8} (h : octets.length < 0x20) :
    Takes readOctets ((0xa0 + octets.length.toUInt8) :: octets) octets := by
  obtain ⟨hRange, hLength⟩ := header_bounds 0xa0 0xc0 (Nat.add_lt_add_left h 160)
  generalize 0xa0 + octets.length.toUInt8 = c at hRange hLength
  refine takes_byte_bind ?_
  split
  case h_8 => exact (if_pos hRange).symm ▸ takes_bytes hLength.symm
  all_goals exact absurd hRange (by decide)

/-- A text is read back as it was written. -/
theorem takes_text {s : StoredText} (h : s.octets.length < maxLength) :
    Takes readText (text s) s := by
  refine Takes.map (g := StoredText.mk) (a := s.octets) ?_
  unfold text
  dsimp only
  split
  next hShort => exact takes_readOctets_short hShort
  next =>
      split
      next => exact takes_byte_bind ((takes_unsigned (by omega)).bind (takes_bytes rfl))
      next =>
          split
          next => exact takes_byte_bind ((takes_unsigned (by omega)).bind (takes_bytes rfl))
          next => exact takes_byte_bind ((takes_unsigned h).bind (takes_bytes rfl))

/-! ### Lists -/

/-- A list is read back item by item. -/
theorem takes_readItems {zero : α} {item : α → Reader α} {write : α → List UInt8} {l : List α}
    (h : ∀ a ∈ l, Takes (item zero) (write a) a) :
    Takes (readItems zero item l.length []) (l.map write).flatten l := by
  induction l with
  | nil => exact takes_pure []
  | cons a l ih =>
      rw [List.forall_mem_cons] at h
      exact h.1.bind ((ih h.2).bind_pure (a :: ·))

theorem takes_listLength_short {n : Nat} (h : n < 0x10) :
    Takes (byte >>= listLength) [0x90 + n.toUInt8] (some n) := by
  obtain ⟨hRange, hLength⟩ := header_bounds 0x90 0xa0 (Nat.add_lt_add_left h 144)
  generalize 0x90 + n.toUInt8 = c at hRange hLength
  refine takes_byte_bind ?_
  unfold listLength
  split
  case h_4 =>
      rw [if_pos hRange, hLength]
      exact takes_pure _
  all_goals exact absurd hRange (by decide)

/-- The octets in front of the items of a list of length `n`. -/
def listHeader (n : Nat) : List UInt8 :=
  if n < 0x10 then [0x90 + n.toUInt8]
  else if n < 0x10000 then 0xdc :: bigEndian 2 n
  else 0xdd :: bigEndian 4 n

/-- The head of a list gives its length. -/
theorem takes_listLength {n : Nat} (h : n < maxLength) :
    Takes (byte >>= listLength) (listHeader n) (some n) := by
  unfold listHeader
  split
  next hShort => exact takes_listLength_short hShort
  next =>
      split
      next => exact takes_byte_bind ((takes_unsigned (by omega)).map some)
      next => exact takes_byte_bind ((takes_unsigned h).map some)

/-- Items that are read where there was no list before are all that is shown. -/
theorem takes_shown {zero : α} {item : α → Reader α} {write : α → List UInt8} {l : List α}
    (hItems : ∀ a ∈ l, Takes (item zero) (write a) a) :
    Takes (do
        let items ← readItems zero item l.length ({} : KeptList α).items
        return ({ shown := some items
                  beyond := ({} : KeptList α).items.drop l.length } : KeptList α))
      (l.map write).flatten { shown := some l } := by
  have hNone : ({} : KeptList α).items = [] := rfl
  simp only [hNone, List.drop_nil]
  exact (takes_readItems hItems).bind_pure fun items => ({ shown := some items } : KeptList α)

/-- A list is read back as it was written if its items are. -/
theorem takes_list {zero : α} {item : α → Reader α} {write : α → List UInt8} {l : List α}
    (hLength : l.length < maxLength) (hItems : ∀ a ∈ l, Takes (item zero) (write a) a) :
    Takes (readList zero item {}) (list (l.map write)) { shown := some l } := by
  have hHeader : list (l.map write) = listHeader l.length ++ (l.map write).flatten := by
    rw [list, List.length_map]
    rfl
  rw [readList, ← bind_assoc, hHeader]
  exact (takes_listLength hLength).bind (takes_shown hItems)

/-- The absent list is read back as absent. -/
theorem takes_absent {zero : α} {item : α → Reader α} {old : KeptList α} :
    Takes (readList zero item old) absent {} := fun _ => rfl

/-! ### Records -/

/-- A key is told by its octets. -/
def IsKey (k : String) : Prop :=
  (StoredText.ofString k).octets.length < maxLength ∧ (StoredText.ofString k).shown = k

instance (k : String) : Decidable (IsKey k) := inferInstanceAs (Decidable (_ ∧ _))

/-- Reading the entries of a record one after the other leads from one value to another. -/
inductive Fills (fields : List (RecordField α)) : α → List (String × List UInt8) → α → Prop where
  | nil {a : α} : Fills fields a [] a
  | cons {a b c : α} {k : String} {octets : List UInt8} {entries : List (String × List UInt8)}
      {field : α → Reader α} (hField : fields.lookup k = some field)
      (hTakes : Takes (field a) octets b) (hRest : Fills fields b entries c)
      (hKey : IsKey k := by decide +kernel) : Fills fields a ((k, octets) :: entries) c

section Fills

variable {fields : List (RecordField α)} {a b c : α} {entries others : List (String × List UInt8)}

/-- Records may be filled part by part. -/
theorem Fills.append (h : Fills fields a entries b) (hOthers : Fills fields b others c) :
    Fills fields a (entries ++ others) c := by
  induction h with
  | nil => exact hOthers
  | cons hField hTakes _ hKey ih => exact .cons hField hTakes (ih hOthers) hKey

/-- An entry may be left out if it changes nothing. -/
theorem Fills.unless {p : Prop} [Decidable p] {k : String} {octets : List UInt8}
    {field : α → Reader α} (hSame : p → a = b) (hField : fields.lookup k = some field)
    (hTakes : Takes (field a) octets b) (hKey : IsKey k := by decide +kernel) :
    Fills fields a (if p then [] else [(k, octets)]) b := by
  split
  next hOut => exact hSame hOut ▸ .nil
  next => exact .cons hField hTakes .nil hKey

/-- A record is read back field by field. -/
theorem Fills.takes (h : Fills fields a entries c) :
    Takes (readEntries fields entries.length a)
      (entries.map fun (k, v) => text (.ofString k) ++ v).flatten c := by
  induction h with
  | nil => exact takes_pure _
  | cons hField hTakes _ hKey ih =>
      rw [List.map_cons, List.flatten_cons, List.append_assoc]
      refine (takes_text hKey.1).bind ?_
      rw [hKey.2, hField]
      exact hTakes.bind ih

end Fills

/-- A record of few entries is read back as it was written if its entries are. -/
theorem takes_record {zero : α} {fields : List (RecordField α)} {old new : α}
    {entries : List (String × List UInt8)} (hFew : entries.length < 0x10)
    (h : Fills fields old entries new) :
    Takes (readRecord zero fields old) (record entries) new := by
  obtain ⟨hRange, hLength⟩ := header_bounds 0x80 0x90 (Nat.add_lt_add_left hFew 128)
  rw [record, if_pos hFew]
  generalize 0x80 + entries.length.toUInt8 = c at hRange hLength
  -- the first octet is that of a record by key, so no list of all the fields follows
  have hKeyed : ¬((0x90 ≤ c ∧ c < 0xa0) ∨ c = 0xdc ∨ c = 0xdd) := by
    rintro (hList | rfl | rfl)
    · exact absurd hList.1 (UInt8.not_le.mpr hRange.2)
    · exact absurd hRange (by decide)
    · exact absurd hRange (by decide)
  refine takes_byte_bind ?_
  rw [if_neg hKeyed]
  unfold recordLength
  split
  case h_4 =>
      rw [if_pos hRange, hLength]
      exact h.takes
  all_goals exact absurd hRange (by decide)

/-! ### Points in time -/

/-- A point of universal time that a clock of 64 bits can show. -/
@[mk_iff]
structure Dated (t : Instant) : Prop where
  seconds : InWord t.seconds
  nanos : t.nanos < 1000000000
  zone : t.zone = 0

instance (t : Instant) : Decidable (Dated t) := decidable_of_iff' _ (dated_iff t)

/-- Within a second an instant is given by its two numbers. -/
theorem ofNanos_nanos {t : Instant} (h : Dated t) : .ofNanos t.seconds t.nanos 0 = t := by
  have hLow : (t.nanos : Int).fdiv 1000000000 = 0 := by
    rw [Int.fdiv_eq_ediv_of_nonneg _ (by decide)]
    exact Int.ediv_eq_zero_of_lt (Int.natCast_nonneg _) (mod_cast h.nanos)
  have hMod : ((t.nanos : Int) % 1000000000).toNat = t.nanos := by
    rw [Int.emod_eq_of_lt (Int.natCast_nonneg _) (mod_cast h.nanos), Int.toNat_natCast]
  rw [Instant.ofNanos, hLow, hMod, Int.add_zero, ← h.zone]

section Stamps

variable {xs ys : List UInt8} {seconds nanos : Nat}

theorem takes_readTime_short (h : Takes (unsigned 4) xs seconds) :
    Takes readTime (0xd6 :: 0xff :: xs) (.ofNanos seconds 0 0) := fun rest =>
  h.bind_pure (fun seconds : Nat => Instant.ofNanos seconds 0 0) rest

/-- The form of an instant in eight bytes: nanoseconds above the seconds. -/
theorem takes_readTime_packed {w : Nat} (h : Takes (unsigned 8) xs w) :
    Takes readTime (0xd7 :: 0xff :: xs) (.ofNanos (w % (1 <<< 34) : Nat) (w >>> 34 : Nat) 0) :=
  fun rest => h.bind_pure
    (fun w : Nat => Instant.ofNanos (w % (1 <<< 34) : Nat) (w >>> 34 : Nat) 0) rest

/-- The form of an instant in twelve bytes. -/
theorem takes_readTime_long {seconds : Int} (hNanos : Takes (unsigned 4) xs nanos)
    (hSeconds : Takes (signed 8) ys seconds) :
    Takes readTime (0xc7 :: 12 :: 0xff :: (xs ++ ys)) (.ofNanos seconds nanos 0) := fun rest =>
  hNanos.bind (f := fun nanos : Nat => do return Instant.ofNanos (← signed 8) nanos 0)
    (hSeconds.bind_pure (fun seconds => Instant.ofNanos seconds nanos 0)) rest

end Stamps

/-- A point in time is read back as it was written. -/
theorem takes_time {t : Instant} (h : Dated t) : Takes readTime (time t) t := by
  obtain ⟨hLow, hHigh⟩ := h.seconds
  have hNanos := h.nanos
  have hSame := ofNanos_nanos h
  unfold time
  split
  next hSmall =>
      obtain ⟨seconds, hSeconds⟩ := Int.eq_ofNat_of_zero_le hSmall.1
      have hRoom : seconds < 2 ^ 34 := by omega
      rw [hSeconds, Int.toNat_natCast]
      split
      next hShort =>
          rw [hSeconds, hShort.1] at hSame
          exact hSame ▸ takes_readTime_short (takes_unsigned (by omega))
      next =>
          have hPacked : (t.nanos <<< 34 + seconds) % (1 <<< 34) = seconds ∧
              (t.nanos <<< 34 + seconds) >>> 34 = t.nanos := by
            simp only [Nat.shiftLeft_eq, Nat.shiftRight_eq_div_pow]
            omega
          have hWord : Takes (unsigned 8) (bigEndian 8 (t.nanos <<< 34 + seconds)) _ :=
            takes_unsigned (by rw [Nat.shiftLeft_eq]; omega)
          have hTakes := takes_readTime_packed hWord
          rwa [hPacked.1, hPacked.2, ← hSeconds, hSame] at hTakes
  next =>
      have hFraction : Takes (unsigned 4) (bigEndian 4 t.nanos) t.nanos :=
        takes_unsigned (by omega)
      have hSeconds : Takes (signed 8) (bigEndian 8 (t.seconds % UInt64.size).toNat) t.seconds :=
        takes_signed (bmod_complement (by decide) (by omega) (by omega))
      have hTakes := takes_readTime_long hFraction hSeconds
      rwa [hSame] at hTakes

/-- Whatever is written in the place of a point in time, some point in time is read there. -/
theorem exists_takes_time (t : Instant) : ∃ t', Takes readTime (time t) t' := by
  unfold time
  split
  next =>
      split
      next => exact ⟨_, takes_readTime_short (takes_unsigned_mod 4 _)⟩
      next => exact ⟨_, takes_readTime_packed (takes_unsigned_mod 8 _)⟩
  next => exact ⟨_, takes_readTime_long (takes_unsigned_mod 4 _) (takes_signed rfl)⟩

end TraceJit.MessagePack
