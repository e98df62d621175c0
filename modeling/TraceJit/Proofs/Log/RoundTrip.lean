import TraceJit.Log.File
import TraceJit.Proofs.Files
import TraceJit.Proofs.MessagePack.Faithful

/-!
A log that is written to a path is read back from there, entry by entry, and a file that can be read
is accepted exactly when it has the version that is written. All that this takes of the format is
that it reads back the values that it writes.
-/

namespace TraceJit

open MessagePack

/-! ### What can be written -/

/-- The numbers of an entry are ones of the machine. Those of a fixed width always are. -/
@[mk_iff]
structure LogEntry.Words (e : LogEntry) : Prop where
  insts : InWord e.insts
  ceiling : ∀ i ∈ e.ceilings.getD [], InWord i

instance (e : LogEntry) : Decidable e.Words := decidable_of_iff' _ (LogEntry.words_iff e)

section Fits

variable (room : Nat → Prop)

/-- There is room for the cell's texts. -/
structure LogCell.Fits (c : LogCell) : Prop where
  kind : room c.kind.octets.length
  callee : room c.callee.octets.length

structure LogEntry.Fits (e : LogEntry) : Prop where
  key : room e.key.octets.length
  method : room e.method.octets.length
  mode : room e.mode.octets.length
  ceilings : room (e.ceilings.getD []).length
  cells : room (e.cells.getD []).length
  cell : ∀ c ∈ e.cells.getD [], c.Fits room

theorem LogEntry.fits_true (e : LogEntry) : e.Fits fun _ => True :=
  ⟨trivial, trivial, trivial, trivial, trivial, fun _ _ => ⟨trivial, trivial⟩⟩

end Fits

namespace LogFile

/-- The entries can be written by a codec with such room. -/
structure Storable (room : Nat → Prop) (entries : Option (List LogEntry)) : Prop where
  length : room (entries.getD []).length
  fits : ∀ e ∈ entries.getD [], e.Fits room
  words : ∀ e ∈ entries.getD [], e.Words

/-! ### Reading back -/

section Codec

variable {K : Codec} {room : Nat → Prop} (h : K.Faithful room)

include h

/-- A list that may be absent is read back as it was written if its items are. -/
theorem takes_writeList {α : Type} {zero : α} {item : α → Reader α} {write : α → List UInt8}
    {l : Option (List α)} (hLength : room (l.getD []).length)
    (hItems : ∀ a ∈ l.getD [], Takes (item zero) (write a) a) :
    Takes (K.readList zero item {}) (writeList K write l) { shown := l } := by
  cases l with
  | none => exact h.absent zero item {}
  | some l => exact h.list zero item write l hLength hItems

/-- A cell is read back. What is left out of it is what a cell has from the start. -/
theorem takes_cell {c : LogCell} (hFits : c.Fits room) :
    Takes (K.readRecord {} (cellFields K) {}) (writeCell K c) c := by
  have hPlain : Fills (cellFields K) {} [("kind", K.text c.kind), ("offset", K.word32 c.offset)]
      { kind := c.kind, offset := c.offset } :=
    .cons rfl ((h.text c.kind hFits.kind).bind_pure _) <|
    .cons rfl (h.takes_word32 c.offset fun n => ({ kind := c.kind, offset := n } : LogCell)) .nil
  have hCallee : Fills (cellFields K) { kind := c.kind, offset := c.offset }
      (if c.callee.octets.isEmpty then [] else [("callee", K.text c.callee)])
      { c with target := 0 } := by
    refine .unless (fun hNone => ?_) rfl ((h.text c.callee hFits.callee).bind_pure _)
    have hEmpty : c.callee = {} := congrArg StoredText.mk (List.isEmpty_iff.mp hNone)
    rw [hEmpty]
  have hTarget : Fills (cellFields K) { c with target := 0 }
      (if c.target = 0 then [] else [("target", K.word64 c.target)]) c := by
    refine .unless (fun hNone => ?_) rfl
      (h.takes_word64 c.target fun n => ({ c with target := n } : LogCell))
    rw [← hNone]
  refine h.record _ _ _ _ _ ?_ ((hPlain.append hCallee).append hTarget)
  split <;> split <;> simp

/-- An entry is read back. -/
theorem takes_entry {e : LogEntry} (hFits : e.Fits room) (hWords : e.Words) :
    Takes (K.readRecord {} (entryFields K) {}) (writeEntry K e) { entry := e } := by
  -- words are put into whatever was read of the entry before
  have hEntry (d : LogEntry) := h.takes_word64 e.entry fun n => { d with entry := n }
  have hBase (d : LogEntry) := h.takes_word64 e.base fun n => { d with base := n }
  have hSize (d : LogEntry) := h.takes_word32 e.size fun n => { d with size := n }
  have hCeilings : Takes (K.readList 0 (fun _ => K.readNumber) {})
      (writeList K K.number e.ceilings) { shown := e.ceilings } :=
    takes_writeList h hFits.ceilings fun i hi => h.number i (hWords.ceiling i hi)
  have hCells : Takes (K.readList {} (K.readRecord {} (cellFields K)) {})
      (writeList K (writeCell K) e.cells) { shown := e.cells } :=
    takes_writeList h hFits.cells fun c hc => takes_cell h (hFits.cell c hc)
  refine h.record _ _ _ _ _ (by simp) <|
    .cons rfl (((h.text e.key hFits.key).bind_pure _).bind_pure _) <|
    .cons rfl (((h.text e.method hFits.method).bind_pure _).bind_pure _) <|
    .cons rfl (((h.text e.mode hFits.mode).bind_pure _).bind_pure _) <|
    .cons rfl ((hEntry _).bind_pure _) <|
    .cons rfl ((hBase _).bind_pure _) <|
    .cons rfl ((hSize _).bind_pure _) <|
    .cons rfl (((h.number e.insts hWords.insts).bind_pure _).bind_pure _) <|
    .cons rfl ((hCeilings.bind_pure _).bind_pure _) <|
    .cons rfl (hCells.bind_pure _) .nil

/-- So is a list of them. -/
theorem takes_entries {entries : Option (List LogEntry)} (hStorable : Storable room entries) :
    Takes (K.readList {} (K.readRecord {} (entryFields K)) {})
      (writeList K (writeEntry K) entries)
      { shown := entries.map (·.map ({ entry := · })) } := by
  obtain ⟨hLength, hFits, hWords⟩ := hStorable
  cases entries with
  | none => exact h.absent _ _ {}
  | some l =>
      have hWrite : l.map (writeEntry K) =
          (l.map ({ entry := · })).map fun d : EntryDraft => writeEntry K d.entry := by
        rw [List.map_map]
        rfl
      rw [writeList, hWrite]
      refine h.list _ _ _ _ (by rwa [List.length_map]) fun d hd => ?_
      obtain ⟨e, he, rfl⟩ := List.mem_map.mp hd
      exact takes_entry h (hFits e he) (hWords e he)

/-- What was written is what is read, with the time of writing as the codec gives it back. -/
theorem decode_encode {f : LogFile} (hStorable : Storable room f.entries) :
    ∃ written, decode K (encode K f) = .ok { f with written } ∧
      (Dated f.written → written = f.written) := by
  have hTime : ∃ t, Takes K.readTime (K.time f.written) t ∧ (Dated f.written → t = f.written) := by
    by_cases hDated : Dated f.written
    · exact ⟨f.written, h.time _ hDated, fun _ => rfl⟩
    · obtain ⟨t, hTakes⟩ := h.anyTime f.written
      exact ⟨t, hTakes, fun hDate => absurd hDate hDated⟩
  obtain ⟨written, hTakesTime, hSame⟩ := hTime
  have hSchema (d : Draft) := h.takes_word16 f.schema fun n => { d with schema := n }
  have hTakes : Takes (K.readRecord {} (fileFields K) {}) (encode K f)
      { schema := f.schema, written
        entries := { shown := f.entries.map (·.map ({ entry := · })) } } :=
    h.record _ _ _ _ _ (by simp) <|
    .cons rfl (hSchema _) <|
    .cons rfl (hTakesTime.bind_pure _) <|
    .cons rfl ((takes_entries h hStorable).bind_pure _) .nil
  have hRead := hTakes []
  have hEntries : (f.entries.map (·.map fun e => ({ entry := e } : EntryDraft))).map
      (·.map (·.entry)) = f.entries := by
    cases f.entries <;> simp [Function.comp_def]
  rw [List.append_nil] at hRead
  refine ⟨written, ?_, hSame⟩
  rw [decode, hRead]
  exact congrArg (fun entries => Except.ok { f with written, entries }) hEntries

end Codec

/-- The format itself reads back every file with a date, as long as there is room for its texts and
lists. -/
theorem decode_encode_standard {f : LogFile} (hStorable : Storable (· < maxLength) f.entries)
    (hDated : Dated f.written) : decode .standard (encode .standard f) = .ok f := by
  obtain ⟨written, hDecode, hSame⟩ := decode_encode Codec.faithful_standard hStorable
  rw [hDecode, hSame hDated]

/-! ### Writing and reading -/

/-- Whether a log can be written depends on its path alone. -/
theorem write_eq_none_iff (K : Codec) (files : Files) (path : String) (now : Instant)
    (entries : Option (List LogEntry)) :
    (write K files path now entries).1 = none ↔ files.Writable path := by
  unfold write
  rcases hParents : files.makeParents path with ⟨failed, made⟩
  cases failed with
  | some e => simp [Files.writable_iff, hParents]
  | none =>
      cases hFile : made.writeError? path with
      | some e => simp [Files.writable_iff, hParents, hFile]
      | none => simp [Files.writable_iff, hParents, hFile]

/-- A log that was written stands at its path. -/
theorem find_of_write {K : Codec} {files files' : Files} {path : String} {now : Instant}
    {entries : Option (List LogEntry)}
    (hWrite : write K files path now entries = (none, files')) :
    files'.find path = .file (encode K { schema := version, written := now, entries }) := by
  unfold write at hWrite
  split at hWrite
  next => cases hWrite
  next =>
      split at hWrite
      next => cases hWrite
      next hWritable =>
          cases hWrite
          exact Files.find_replace hWritable

/-- A file that can be read is accepted for its version. -/
theorem read_of_decode {K : Codec} {bytes : List UInt8} {f : LogFile} (path : String)
    (h : decode K bytes = .ok f) :
    read K path (.file bytes) =
      if f.schema = version then .ok f else .error (.schema path f.schema) := by
  rw [read, h]

/-- Every log that is written is read back from its path, with the same entries in the same order
and each list absent or empty as it was, and it can be written wherever a file can. Every file that
can be read gives its entries exactly if it has the version that is written, and is refused for its
version otherwise. -/
theorem read_write (K : Codec) (path : String) :
    (∀ files now entries,
      (write K files path now entries).1 = none ↔ files.Writable path) ∧
    (K.Faithful (fun _ => True) → ∀ files files' now entries,
      (∀ e ∈ entries.getD [], e.Words) → write K files path now entries = (none, files') →
      ∃ written, read K path (files'.find path) = .ok { schema := version, written, entries } ∧
        (Dated now → written = now)) ∧
    ∀ bytes f, decode K bytes = .ok f →
      (read K path (.file bytes) = .ok f ↔ f.schema = version) ∧
      (f.schema ≠ version → read K path (.file bytes) = .error (.schema path f.schema)) := by
  refine ⟨fun files now entries => write_eq_none_iff K files path now entries,
    fun hFaithful files files' now entries hWords hWrite => ?_, fun bytes f hDecode => ?_⟩
  · obtain ⟨written, hDecode, hSame⟩ := decode_encode hFaithful
      (f := { schema := version, written := now, entries })
      ⟨trivial, fun e _ => e.fits_true, hWords⟩
    refine ⟨written, ?_, hSame⟩
    rw [find_of_write hWrite, read_of_decode path hDecode]
    exact if_pos rfl
  · rw [read_of_decode path hDecode]
    split
    next hVersion => exact ⟨iff_of_true rfl hVersion, absurd hVersion⟩
    next hOther => exact ⟨iff_of_false (fun hRead => by cases hRead) hOther, fun _ => rfl⟩

/-- Entries with lists absent and lists empty, and with cells that have neither callee nor target
or both. -/
def mixedEntries : List LogEntry :=
  [{ key := .ofString "a:0+3", insts := -1, size := 300, ceilings := some [40, -200]
     cells := some [
      { kind := .ofString "hot", offset := 8 },
      { kind := .ofString "invoke", offset := 20, callee := .ofString "b"
        target := 0x8000000000000000 }] },
    { ceilings := some [] }]

/-- A log in a directory that has to be made, written as the format has it. -/
theorem read_write_mixed :
    (∀ e ∈ mixedEntries, e.Words) ∧
    encode .lengthened ⟨version, ⟨-1, 5, 0⟩, some mixedEntries⟩ =
      encode .standard ⟨version, ⟨-1, 5, 0⟩, some mixedEntries⟩ ∧
    (∃ files written,
      write .lengthened {} "logs/jit.mp" ⟨-1, 5, 0⟩ (some mixedEntries) = (none, files) ∧
      read .lengthened "logs/jit.mp" (files.find "logs/jit.mp") =
        .ok { schema := version, written, entries := some mixedEntries }) ∧
    read .standard "log" (.file [0x80]) = .error (.schema "log" 0) := by
  have hWords : ∀ e ∈ mixedEntries, e.Words := by decide +kernel
  have hWrite : (write .lengthened {} "logs/jit.mp" ⟨-1, 5, 0⟩ (some mixedEntries)).1 = none := by
    decide +kernel
  obtain ⟨-, hBack, -⟩ := read_write .lengthened "logs/jit.mp"
  obtain ⟨written, hRead, -⟩ := hBack Codec.faithful_lengthened {} _ ⟨-1, 5, 0⟩
    (some mixedEntries) hWords (Prod.ext hWrite rfl)
  exact ⟨hWords, by decide +kernel, ⟨_, written, Prod.ext hWrite rfl, hRead⟩,
    ((read_write .standard "log").2.2 [0x80] {} rfl).2 (by decide)⟩

end LogFile

end TraceJit
