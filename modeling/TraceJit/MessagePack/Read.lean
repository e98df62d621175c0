import TraceJit.MessagePack.Write

/-!
Reading values in the MessagePack format. Numbers of every width are accepted and cut to the width
that is wanted, the absent value stands for zero and for the empty text, and a record is accepted
with its keys in any order or as a list of all its fields. What is read in the place of something
is read on top of it. Every reader takes octets from the front and fails where they do not fit.
-/

namespace TraceJit.MessagePack

/-- Why octets could not be read. -/
inductive ReadError where
  /-- The octets do not follow the format, or not what is wanted. -/
  | malformed
  /-- The absent value stands where a point in time belongs, which cannot be absent. -/
  | absentTime
  deriving DecidableEq, Repr

/-- Takes a value from the front of some octets. -/
abbrev Reader (α : Type) := StateT (List UInt8) (Except ReadError) α

/-- The octets do not fit. -/
def misfit {α : Type} : Reader α := throw .malformed

def byte : Reader UInt8
  | [] => .error .malformed
  | b :: rest => .ok (b, rest)

def splitExactly : Nat → List UInt8 → Except ReadError (List UInt8 × List UInt8)
  | 0, rest => .ok ([], rest)
  | _ + 1, [] => .error .malformed
  | n + 1, b :: rest => (splitExactly n rest).map fun (front, rest) => (b :: front, rest)

def bytes (n : Nat) : Reader (List UInt8) := splitExactly n

/-- The number of some octets, high octet first. -/
def ofBigEndian (bytes : List UInt8) : Nat :=
  bytes.foldl (fun n b => n * 256 + b.toNat) 0

def unsigned (width : Nat) : Reader Nat := ofBigEndian <$> bytes width

def signed (width : Nat) : Reader Int :=
  (fun n => Int.bmod n (1 <<< (8 * width))) <$> unsigned width

/-- A number of any width. -/
def anyNumber : Reader Int := do
  let c ← byte
  match c with
  | 0xc0 => return 0
  | 0xcc => Int.ofNat <$> unsigned 1
  | 0xcd => Int.ofNat <$> unsigned 2
  | 0xce => Int.ofNat <$> unsigned 4
  | 0xcf => Int.ofNat <$> unsigned 8
  | 0xd0 => signed 1
  | 0xd1 => signed 2
  | 0xd2 => signed 4
  | 0xd3 => signed 8
  | c => if c < 0x80 ∨ 0xe0 ≤ c then return Int.bmod c.toNat 256 else misfit

/-- A number cut to a signed word of 64 bits. -/
def readNumber : Reader Int := (Int.bmod · UInt64.size) <$> anyNumber

/-- A number cut to a word of `bits` bits. -/
def readWord (bits : Nat) : Reader Nat :=
  (fun i : Int => (i % (1 <<< bits : Nat)).toNat) <$> anyNumber

def readOctets : Reader (List UInt8) := do
  let c ← byte
  match c with
  | 0xc0 => return []
  | 0xc4 | 0xd9 => bytes (← unsigned 1)
  | 0xc5 | 0xda => bytes (← unsigned 2)
  | 0xc6 | 0xdb => bytes (← unsigned 4)
  | c => if 0xa0 ≤ c ∧ c < 0xc0 then bytes (c - 0xa0).toNat else misfit

def readText : Reader StoredText := (⟨·⟩) <$> readOctets

/-- The number of items of a list that starts with octet `c`; none for the absent list. -/
def listLength (c : UInt8) : Reader (Option Nat) :=
  match c with
  | 0xc0 => return none
  | 0xdc => some <$> unsigned 2
  | 0xdd => some <$> unsigned 4
  | c => if 0x90 ≤ c ∧ c < 0xa0 then return some (c - 0x90).toNat else misfit

/-- The number of entries of a record that starts with octet `c`; none for the absent record. -/
def recordLength (c : UInt8) : Reader (Option Nat) :=
  match c with
  | 0xc0 => return none
  | 0xde => some <$> unsigned 2
  | 0xdf => some <$> unsigned 4
  | c => if 0x80 ≤ c ∧ c < 0x90 then return some (c - 0x80).toNat else misfit

/-- Kind and length of an extension that starts with octet `c`. -/
def extensionLength (c : UInt8) : Reader (UInt8 × Nat) := do
  let n ← match c with
    | 0xc7 => unsigned 1
    | 0xc8 => unsigned 2
    | 0xc9 => unsigned 4
    | 0xd4 => pure 1
    | 0xd5 => pure 2
    | 0xd6 => pure 4
    | 0xd7 => pure 8
    | 0xd8 => pure 16
    | _ => misfit
  return (← byte, n)

def times (r : Reader Unit) : Nat → Reader Unit
  | 0 => pure ()
  | n + 1 => do r; times r n

/-- Pass over a value that is nested at most `depth` deep. -/
def skipTo : Nat → Reader Unit
  | 0 => misfit
  | depth + 1 => do
    let c ← byte
    let drop (n : Nat) : Reader Unit := discard (bytes n)
    if c < 0x80 ∨ 0xe0 ≤ c then pure ()
    else if c < 0x90 then times (skipTo depth) (2 * (c - 0x80).toNat)
    else if c < 0xa0 then times (skipTo depth) (c - 0x90).toNat
    else if c < 0xc0 then drop (c - 0xa0).toNat
    else match c with
      | 0xc0 | 0xc2 | 0xc3 => pure ()
      | 0xcc | 0xd0 => drop 1
      | 0xcd | 0xd1 => drop 2
      | 0xce | 0xd2 | 0xca => drop 4
      | 0xcf | 0xd3 | 0xcb => drop 8
      | 0xc4 | 0xd9 => drop (← unsigned 1)
      | 0xc5 | 0xda => drop (← unsigned 2)
      | 0xc6 | 0xdb => drop (← unsigned 4)
      | 0xdc => times (skipTo depth) (← unsigned 2)
      | 0xdd => times (skipTo depth) (← unsigned 4)
      | 0xde => times (skipTo depth) (2 * (← unsigned 2))
      | 0xdf => times (skipTo depth) (2 * (← unsigned 4))
      | 0xc1 => misfit
      | c => do
        let (_, n) ← extensionLength c
        drop n

/-- Pass over any value. A value is nested less deep than the octets are many. -/
def skip : Reader Unit := fun input => skipTo (input.length + 1) input

/-- `n` items, each read on top of the one that stood in its place before. -/
def readItems {α : Type} (zero : α) (item : α → Reader α) : Nat → List α → Reader (List α)
  | 0, _ => return []
  | n + 1, old => do
    let a ← item (old.headD zero)
    return a :: (← readItems zero item n old.tail)

/-- A list that may be read more than once. When it gets shorter, the items beyond its end are
kept, and they come back when it gets longer again. -/
structure KeptList (α : Type) where
  /-- The list, which may be absent. -/
  shown : Option (List α) := none
  /-- Items beyond the end of the list. -/
  beyond : List α := []
  deriving Inhabited

/-- All items, shown or not. -/
def KeptList.items {α : Type} (s : KeptList α) : List α := s.shown.getD [] ++ s.beyond

/-- A list, which may be absent. The absent list keeps nothing. -/
def readList {α : Type} (zero : α) (item : α → Reader α) (old : KeptList α) :
    Reader (KeptList α) := do
  match ← listLength (← byte) with
  | none => return {}
  | some n =>
    return { shown := some (← readItems zero item n old.items), beyond := old.items.drop n }

/-- How the field under a key is read into a record. -/
abbrev RecordField (α : Type) := String × (α → Reader α)

/-- `n` keys with their values. Values under unknown keys are passed over. -/
def readEntries {α : Type} (fields : List (RecordField α)) : Nat → α → Reader α
  | 0, a => return a
  | n + 1, a => do
    match fields.lookup (← readText).shown with
    | some field => readEntries fields n (← field a)
    | none => do
      skip
      readEntries fields n a

/-- A record, read on top of `old`: by key, or as the list of all its fields. An absent record and
an empty list are `zero`. -/
def readRecord {α : Type} (zero : α) (fields : List (RecordField α)) (old : α) : Reader α := do
  let c ← byte
  if (0x90 ≤ c ∧ c < 0xa0) ∨ c = 0xdc ∨ c = 0xdd then
    match ← listLength c with
    | none | some 0 => return zero
    | some n => if n = fields.length then fields.foldlM (fun a f => f.2 a) old else misfit
  else
    match ← recordLength c with
    | none => return zero
    | some n => readEntries fields n old

/-- A point in time, which is not absent. -/
def readTime : Reader Instant := do
  let c ← byte
  if c = 0xc0 then throw .absentTime
  let (kind, n) ← extensionLength c
  if kind ≠ 0xff then misfit
  match n with
  | 4 => return .ofNanos (← unsigned 4) 0 0
  | 8 =>
    let w ← unsigned 8
    return .ofNanos (w % (1 <<< 34) : Nat) (w >>> 34 : Nat) 0
  | 12 =>
    let nanos ← unsigned 4
    return .ofNanos (← signed 8) nanos 0
  | _ => misfit

end TraceJit.MessagePack
