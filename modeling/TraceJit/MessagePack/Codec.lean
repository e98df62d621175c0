import TraceJit.MessagePack.Read

/-!
What a log needs of the format: how values are written, and how they are read back.
-/

namespace TraceJit.MessagePack

/-- A way to write values and to read them. Items of lists and fields of records are written
before what they are part of. -/
structure Codec where
  absent : List UInt8
  word16 : UInt16 → List UInt8
  word32 : UInt32 → List UInt8
  word64 : UInt64 → List UInt8
  number : Int → List UInt8
  text : StoredText → List UInt8
  time : Instant → List UInt8
  list : List (List UInt8) → List UInt8
  record : List (String × List UInt8) → List UInt8
  /-- Reads a number and cuts it to so many bits. -/
  readWord : Nat → Reader Nat
  readNumber : Reader Int
  readText : Reader StoredText
  readTime : Reader Instant
  readList : {α : Type} → (zero : α) → (item : α → Reader α) → KeptList α → Reader (KeptList α)
  readRecord : {α : Type} → (zero : α) → List (RecordField α) → α → Reader α

/-- The format with the widths and headers that it is documented with. -/
def Codec.standard : Codec where
  absent := MessagePack.absent
  word16 := MessagePack.word16
  word32 := MessagePack.word32
  word64 := MessagePack.word64
  number := MessagePack.number
  text := MessagePack.text
  time := MessagePack.time
  list := MessagePack.list
  record := MessagePack.record
  readWord := MessagePack.readWord
  readNumber := MessagePack.readNumber
  readText := MessagePack.readText
  readTime := MessagePack.readTime
  readList := MessagePack.readList
  readRecord := MessagePack.readRecord

end TraceJit.MessagePack
