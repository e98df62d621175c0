import TraceJit.Calendar
import TraceJit.Text.Stored

/-!
Writing values in the MessagePack format. Signed numbers, texts and the lengths of lists take as
few octets as they can; words of a fixed width always take all of theirs.
-/

namespace TraceJit.MessagePack

/-- The low `width` octets of `n`, high octet first. -/
def bigEndian : Nat → Nat → List UInt8
  | 0, _ => []
  | width + 1, n => (n >>> (8 * width)).toUInt8 :: bigEndian width n

def absent : List UInt8 := [0xc0]

def word16 (n : UInt16) : List UInt8 := 0xcd :: bigEndian 2 n.toNat

def word32 (n : UInt32) : List UInt8 := 0xce :: bigEndian 4 n.toNat

def word64 (n : UInt64) : List UInt8 := 0xcf :: bigEndian 8 n.toNat

def number (i : Int) : List UInt8 :=
  if 0 ≤ i then
    let n := i.toNat
    if n < 0x80 then [n.toUInt8]
    else if n < 0x100 then 0xcc :: bigEndian 1 n
    else if n < 0x10000 then 0xcd :: bigEndian 2 n
    else if n < 0x100000000 then 0xce :: bigEndian 4 n
    else 0xcf :: bigEndian 8 n
  else
    let n := (i % UInt64.size).toNat
    if -0x20 ≤ i then bigEndian 1 n
    else if -0x80 ≤ i then 0xd0 :: bigEndian 1 n
    else if -0x8000 ≤ i then 0xd1 :: bigEndian 2 n
    else if -0x80000000 ≤ i then 0xd2 :: bigEndian 4 n
    else 0xd3 :: bigEndian 8 n

def text (s : StoredText) : List UInt8 :=
  let bytes := s.octets
  let n := bytes.length
  (if n < 0x20 then [0xa0 + n.toUInt8]
    else if n < 0x100 then 0xd9 :: bigEndian 1 n
    else if n < 0x10000 then 0xda :: bigEndian 2 n
    else 0xdb :: bigEndian 4 n) ++ bytes

/-- A list of values that are already written. -/
def list (items : List (List UInt8)) : List UInt8 :=
  let n := items.length
  (if n < 0x10 then [0x90 + n.toUInt8]
    else if n < 0x10000 then 0xdc :: bigEndian 2 n
    else 0xdd :: bigEndian 4 n) ++ items.flatten

/-- A record of values that are already written, each under its key. -/
def record (fields : List (String × List UInt8)) : List UInt8 :=
  let n := fields.length
  (if n < 0x10 then [0x80 + n.toUInt8]
    else if n < 0x10000 then 0xde :: bigEndian 2 n
    else 0xdf :: bigEndian 4 n) ++ (fields.map fun (k, v) => text (.ofString k) ++ v).flatten

/-- A point in time, in four, eight or twelve octets as it needs. -/
def time (t : Instant) : List UInt8 :=
  if 0 ≤ t.seconds ∧ t.seconds < 0x400000000 then
    if t.nanos = 0 ∧ t.seconds < 0x100000000 then 0xd6 :: 0xff :: bigEndian 4 t.seconds.toNat
    else 0xd7 :: 0xff :: bigEndian 8 ((t.nanos <<< 34) + t.seconds.toNat)
  else
    0xc7 :: 12 :: 0xff :: (bigEndian 4 t.nanos ++ bigEndian 8 (t.seconds % UInt64.size).toNat)

end TraceJit.MessagePack
