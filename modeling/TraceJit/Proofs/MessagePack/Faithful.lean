import TraceJit.MessagePack.Codec
import TraceJit.Proofs.MessagePack.RoundTrip

/-!
What a log relies on when it leaves its values to a codec. The format itself has room for lengths of
32 bits; a codec with room for all lengths agrees with it on what the format can hold.
-/

namespace TraceJit.MessagePack

/-- The codec reads back what it writes: words, numbers and texts, lists item by item, and records
field by field, where a field that is left out stays as it was. There may be lengths of texts and
lists that it has no room for. -/
structure Codec.Faithful (K : Codec) (room : Nat → Prop) : Prop where
  absent : ∀ {α : Type} (zero : α) (item : α → Reader α) old,
    Takes (K.readList zero item old) K.absent {}
  word16 : ∀ n, Takes (K.readWord 16) (K.word16 n) n.toNat
  word32 : ∀ n, Takes (K.readWord 32) (K.word32 n) n.toNat
  word64 : ∀ n, Takes (K.readWord 64) (K.word64 n) n.toNat
  number : ∀ i, InWord i → Takes K.readNumber (K.number i) i
  text : ∀ s, room s.octets.length → Takes K.readText (K.text s) s
  time : ∀ t, Dated t → Takes K.readTime (K.time t) t
  /-- A point in time that is no date may come back as another one. -/
  anyTime : ∀ t, ∃ t', Takes K.readTime (K.time t) t'
  list : ∀ {α : Type} (zero : α) (item : α → Reader α) (write : α → List UInt8) l,
    room l.length → (∀ a ∈ l, Takes (item zero) (write a) a) →
      Takes (K.readList zero item {}) (K.list (l.map write)) { shown := some l }
  record : ∀ {α : Type} (zero : α) (fields : List (RecordField α)) old new entries,
    entries.length < 0x10 → Fills fields old entries new →
      Takes (K.readRecord zero fields old) (K.record entries) new

namespace Codec

/-- The format reads back what it has room for. -/
theorem faithful_standard : standard.Faithful (· < maxLength) where
  absent _ _ _ := takes_absent
  word16 := takes_word16
  word32 := takes_word32
  word64 := takes_word64
  number _ := takes_number
  text _ := takes_text
  time _ := takes_time
  anyTime := exists_takes_time
  list _ _ _ _ := takes_list
  record _ _ _ _ _ := takes_record

section Words

variable {K : Codec} {room : Nat → Prop} (h : K.Faithful room) {α : Type}

include h

theorem Faithful.takes_word16 (n : UInt16) (g : UInt16 → α) :
    Takes (do return g (← K.readWord 16).toUInt16) (K.word16 n) (g n) := by
  have hTakes := (h.word16 n).bind_pure fun m : Nat => g m.toUInt16
  rwa [Nat.toUInt16, UInt16.ofNat_toNat] at hTakes

theorem Faithful.takes_word32 (n : UInt32) (g : UInt32 → α) :
    Takes (do return g (← K.readWord 32).toUInt32) (K.word32 n) (g n) := by
  have hTakes := (h.word32 n).bind_pure fun m : Nat => g m.toUInt32
  rwa [Nat.toUInt32, UInt32.ofNat_toNat] at hTakes

theorem Faithful.takes_word64 (n : UInt64) (g : UInt64 → α) :
    Takes (do return g (← K.readWord 64).toUInt64) (K.word64 n) (g n) := by
  have hTakes := (h.word64 n).bind_pure fun m : Nat => g m.toUInt64
  rwa [Nat.toUInt64, UInt64.ofNat_toNat] at hTakes

end Words

/-! ### Lengths of any size -/

/-- The octet that starts nothing in the format. -/
def unusedOctet : UInt8 := 0xc1

/-- A number in as many octets, and one to end them. -/
def tally (n : Nat) : List UInt8 := List.replicate n 1 ++ [0]

def readTally : Reader Nat
  | [] => .error .malformed
  | b :: rest =>
      if b = 0 then .ok (0, rest) else (readTally rest).map fun (n, rest) => (n + 1, rest)

/-- Reads with `long` behind the unused octet, and with `short` otherwise. -/
def readEither {α : Type} (short long : Reader α) : Reader α := fun input =>
  if input.head? = some unusedOctet then long input.tail else short input

/-- The format, but for lengths that it has no room for. Those follow the unused octet. -/
def lengthened : Codec :=
  { standard with
    text := fun s =>
      if s.octets.length < maxLength then MessagePack.text s
      else unusedOctet :: (tally s.octets.length ++ s.octets)
    list := fun items =>
      if items.length < maxLength then MessagePack.list items
      else unusedOctet :: (tally items.length ++ items.flatten)
    readText := readEither MessagePack.readText do
      let octets ← bytes (← readTally)
      return ⟨octets⟩
    readList := fun zero item old => readEither (MessagePack.readList zero item old) do
      let n ← readTally
      let items ← readItems zero item n old.items
      return { shown := some items, beyond := old.items.drop n } }

section Either

variable {α : Type} {short long : Reader α} {octets : List UInt8} {a : α}

/-- A count of any size is read back. -/
theorem takes_tally (n : Nat) : Takes readTally (tally n) n := by
  intro rest
  induction n with
  | zero => rfl
  | succ n ih =>
      have hMore : tally (n + 1) ++ rest = 1 :: (tally n ++ rest) := rfl
      rw [hMore, readTally, if_neg (by decide), ih]
      rfl

/-- Where the format fails at the unused octet, nothing that it reads starts with it. -/
theorem takes_short (hUnused : ∀ rest, short (unusedOctet :: rest) = .error .malformed)
    (h : Takes short octets a) : Takes (readEither short long) octets a := by
  intro rest
  have hShort := h rest
  unfold readEither
  split
  next hHead =>
      obtain ⟨others, hInput⟩ := List.head?_eq_some_iff.mp hHead
      rw [hInput, hUnused] at hShort
      cases hShort
  next => exact hShort

theorem takes_long (h : Takes long octets a) :
    Takes (readEither short long) (unusedOctet :: octets) a := fun rest => h rest

end Either

/-- With room for counts of any size the format is faithful without a limit. -/
theorem faithful_lengthened : lengthened.Faithful fun _ => True where
  absent _ _ _ := takes_short (fun _ => rfl) takes_absent
  word16 := MessagePack.takes_word16
  word32 := MessagePack.takes_word32
  word64 := MessagePack.takes_word64
  number _ := takes_number
  text s _ := by
    change Takes (readEither _ _) (if _ then _ else _) s
    split
    next hRoom => exact takes_short (fun _ => rfl) (MessagePack.takes_text hRoom)
    next => exact takes_long ((takes_tally _).bind ((takes_bytes rfl).bind_pure StoredText.mk))
  time _ := takes_time
  anyTime := exists_takes_time
  list zero item write l _ hItems := by
    change Takes (readEither _ _) (if _ then _ else _) _
    split
    next hRoom =>
        rw [List.length_map] at hRoom
        exact takes_short (fun _ => rfl) (MessagePack.takes_list hRoom hItems)
    next =>
        rw [List.length_map]
        exact takes_long ((takes_tally _).bind (takes_shown hItems))
  record _ _ _ _ _ := takes_record

end Codec

end TraceJit.MessagePack
