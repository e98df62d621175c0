import Mathlib.Data.List.Basic
import TraceJit.Bytecode.CodeText

/-!
Code text that is written reads back. Written text is the only text of its shape, four lower-case
digits for each unit and one blank between two units, so it is the canonical text among all those
that list the same units.
-/

namespace TraceJit

/-! ### Words between blanks -/

namespace Text

variable {word : List Char}

/-- A stretch without blanks goes on with the field that is being read. -/
theorem fieldsFrom_append (hWord : ∀ c ∈ word, isBlank c = false) (field rest : List Char) :
    fieldsFrom field (word ++ rest) = fieldsFrom (word.reverse ++ field) rest := by
  induction word generalizing field with
  | nil => rfl
  | cons c word ih =>
      rw [List.forall_mem_cons] at hWord
      rw [List.cons_append, fieldsFrom, hWord.1, if_neg Bool.false_ne_true, ih hWord.2,
        List.reverse_cons, List.append_assoc, List.singleton_append]

/-- A word without blanks is one field. -/
theorem fields_word (hSome : word ≠ []) (hWord : ∀ c ∈ word, isBlank c = false) :
    fields word = [word] := by
  have hRead := fieldsFrom_append hWord [] []
  rw [List.append_nil, List.append_nil] at hRead
  rw [fields, hRead, fieldsFrom, if_neg (by simpa using hSome), List.reverse_reverse]

/-- A blank ends the first field. -/
theorem fields_word_append (hSome : word ≠ []) (hWord : ∀ c ∈ word, isBlank c = false)
    (rest : List Char) : fields (word ++ ' ' :: rest) = word :: fields rest := by
  have hBlank : isBlank ' ' = true := by decide
  rw [fields, fieldsFrom_append hWord, List.append_nil, fieldsFrom, if_pos hBlank,
    if_neg (by simpa using hSome), List.reverse_reverse]
  rfl

/-- Words that are set apart by single blanks are the fields of the text. -/
theorem fields_intercalate {words : List (List Char)}
    (hWords : ∀ w ∈ words, w ≠ [] ∧ ∀ c ∈ w, isBlank c = false) :
    fields ([' '].intercalate words) = words := by
  induction words with
  | nil => rfl
  | cons w words ih =>
      rw [List.forall_mem_cons] at hWords
      obtain ⟨⟨hSome, hWord⟩, hRest⟩ := hWords
      cases words with
      | nil => simpa using fields_word hSome hWord
      | cons v words =>
          rw [List.intercalate_cons_cons, List.append_assoc, List.singleton_append,
            fields_word_append hSome hWord, ih hRest]

end Text

namespace CodeText

/-! ### Digits -/

/-- The digits of written text in the order of their values. -/
def lowerDigits : List Char := "0123456789abcdef".toList

/-- The canonical digits are those that are written. -/
theorem lowerDigits_eq : lowerDigits = (List.range 16).map digit := by decide

/-- Every digit that is written is read back. -/
theorem digitValue_digit {n : Nat} (hn : n < 16) : Text.digitValue (digit n) = some n := by
  have hAll : ∀ i : Fin 16, Text.digitValue (digit i) = some (i : Nat) := by decide
  exact hAll ⟨n, hn⟩

/-- A digit is neither a blank nor the letter of a mark. -/
theorem digit_plain {n : Nat} (hn : n < 16) :
    Text.isBlank (digit n) = false ∧ digit n ≠ 'x' ∧ digit n ≠ 'X' := by
  have hAll : ∀ i : Fin 16, Text.isBlank (digit i) = false ∧ digit i ≠ 'x' ∧ digit i ≠ 'X' := by
    decide
  exact hAll ⟨n, hn⟩

theorem le_foldl_digits (ds : List Nat) (acc : Nat) :
    acc ≤ ds.foldl (fun a d => a * 16 + d) acc := by
  induction ds generalizing acc with
  | nil => exact Nat.le_refl _
  | cons d ds ih => exact Nat.le_trans (by omega) (ih (acc * 16 + d))

/-- Written digits are read as the number that they stand for, where it keeps the limit. -/
theorem readDigitsFrom_digits {ds : List Nat} {limit : Nat} (hDigits : ∀ d ∈ ds, d < 16) (acc : Nat)
    (hLimit : ds.foldl (fun a d => a * 16 + d) acc ≤ limit) :
    Text.readDigitsFrom 16 limit acc (ds.map digit) =
      .ok (ds.foldl (fun a d => a * 16 + d) acc) := by
  induction ds generalizing acc with
  | nil => rfl
  | cons d ds ih =>
      rw [List.forall_mem_cons] at hDigits
      rw [List.foldl_cons] at hLimit ⊢
      -- What has been read so far is no more than what all digits make together.
      have hSoFar : ¬limit < acc * 16 + d := by
        have hMore := le_foldl_digits ds (acc * 16 + d)
        omega
      simp only [List.map_cons, Text.readDigitsFrom, digitValue_digit hDigits.1, if_pos hDigits.1,
        if_neg hSoFar]
      exact ih hDigits.2 _ hLimit

/-! ### Units -/

def nibbles (u : UInt16) : List Nat :=
  [u.toNat / 4096, u.toNat / 256 % 16, u.toNat / 16 % 16, u.toNat % 16]

theorem unitDigits_eq (u : UInt16) : unitDigits u = (nibbles u).map digit := rfl

theorem nibbles_lt (u : UInt16) : ∀ d ∈ nibbles u, d < 16 := by
  have hUnit := u.toNat_lt
  simp only [nibbles, List.forall_mem_cons, List.not_mem_nil, false_imp_iff, implies_true, and_true]
  omega

/-- A code unit has the value of its four digits. -/
theorem foldl_nibbles (u : UInt16) : (nibbles u).foldl (fun a d => a * 16 + d) 0 = u.toNat := by
  simp only [nibbles, List.foldl_cons, List.foldl_nil]
  omega

theorem mem_unitDigits {u : UInt16} {c : Char} (hc : c ∈ unitDigits u) : ∃ d < 16, digit d = c := by
  rw [unitDigits_eq] at hc
  obtain ⟨d, hd, rfl⟩ := List.mem_map.mp hc
  exact ⟨d, nibbles_lt u d hd, rfl⟩

/-- What does not begin with a mark is left alone. -/
theorem dropMark_of_ne {letter a b : Char} (hb : b ≠ letter) (cs : List Char) :
    dropMark letter (a :: b :: cs) = a :: b :: cs := by
  unfold dropMark
  split
  next hEq =>
      obtain ⟨rfl, rfl, rfl⟩ : a = '0' ∧ _ := by simpa using hEq
      exact if_neg hb
  next => rfl

/-- No unit is written with a mark, or as what could be mistaken for one. -/
theorem numeral_unitDigits (u : UInt16) : numeral (unitDigits u) = unitDigits u := by
  have hSecond : u.toNat / 256 % 16 < 16 := Nat.mod_lt _ (by decide)
  obtain ⟨_, hLower, hUpper⟩ := digit_plain hSecond
  rw [numeral, unitDigits, dropMark_of_ne hLower, dropMark_of_ne hUpper]

/-- A code unit that is written is read back. -/
theorem readUnit_unitDigits (u : UInt16) : readUnit (unitDigits u) = .ok u := by
  have hLimit : (nibbles u).foldl (fun a d => a * 16 + d) 0 ≤ 0xffff := by
    rw [foldl_nibbles]
    exact Nat.le_of_lt_succ u.toNat_lt
  have hRead := readDigitsFrom_digits (nibbles_lt u) 0 hLimit
  rw [← unitDigits_eq, foldl_nibbles] at hRead
  rw [readUnit, numeral_unitDigits, Text.readDigits, if_neg (by simp [unitDigits]), hRead]
  exact congrArg Except.ok UInt16.ofNat_toNat

/-- Any four digits are those of a unit. -/
theorem exists_unitDigits {a b c d : Nat} (ha : a < 16) (hb : b < 16) (hc : c < 16) (hd : d < 16) :
    ∃ u, unitDigits u = [digit a, digit b, digit c, digit d] := by
  refine ⟨(a * 4096 + b * 256 + c * 16 + d).toUInt16, ?_⟩
  have hValue : (a * 4096 + b * 256 + c * 16 + d).toUInt16.toNat =
      a * 4096 + b * 256 + c * 16 + d := by
    rw [Nat.toUInt16, UInt16.toNat_ofNat']
    omega
  have hNibbles : nibbles (a * 4096 + b * 256 + c * 16 + d).toUInt16 = [a, b, c, d] := by
    simp only [nibbles, hValue, List.cons.injEq, and_true]
    omega
  rw [unitDigits_eq, hNibbles]
  rfl

/-! ### Lists of units -/

theorem chars_eq (units : List UInt16) :
    chars units = [' '].intercalate (units.map unitDigits) := by
  fun_induction chars units with
  | case1 => rfl
  | case2 u => simp
  | case3 u rest hRest ih =>
      obtain ⟨v, rest, rfl⟩ := List.exists_cons_of_ne_nil hRest
      rw [ih]
      simp only [List.map_cons, List.intercalate_cons_cons, List.append_assoc,
        List.singleton_append]

/-- The fields of what is written are the numerals of the units. -/
theorem fields_chars (units : List UInt16) :
    Text.fields (chars units) = units.map unitDigits := by
  rw [chars_eq]
  refine Text.fields_intercalate fun w hw => ?_
  obtain ⟨u, _, rfl⟩ := List.mem_map.mp hw
  refine ⟨List.cons_ne_nil _ _, fun c hc => ?_⟩
  obtain ⟨d, hd, rfl⟩ := mem_unitDigits hc
  exact (digit_plain hd).1

theorem readFields_unitDigits (units : List UInt16) (index : Nat) :
    readFields index (units.map unitDigits) = .ok units := by
  induction units generalizing index with
  | nil => rfl
  | cons u units ih =>
      rw [List.map_cons, readFields, readUnit_unitDigits]
      dsimp only
      rw [ih]
      rfl

/-- What is written reads back. -/
theorem parse_format (units : List UInt16) : parse (format units) = .ok units := by
  rw [parse, format, String.toList_ofList, fields_chars, readFields_unitDigits]

/-! ### Canonical text -/

/-- Four lower-case digits for each unit, and one blank between two units. -/
def Canonical (text : String) : Prop :=
  ∃ words : List (List Char), (∀ w ∈ words, w.length = 4 ∧ ∀ c ∈ w, c ∈ lowerDigits) ∧
    text.toList = [' '].intercalate words

/-- What is written is canonical. -/
theorem canonical_format (units : List UInt16) : Canonical (format units) := by
  refine ⟨units.map unitDigits, fun w hw => ?_, by rw [format, String.toList_ofList, chars_eq]⟩
  obtain ⟨u, _, rfl⟩ := List.mem_map.mp hw
  refine ⟨rfl, fun c hc => ?_⟩
  obtain ⟨d, hd, rfl⟩ := mem_unitDigits hc
  rw [lowerDigits_eq]
  exact List.mem_map_of_mem (List.mem_range.mpr hd)

/-- Every word of four canonical digits is the numeral of a code unit. -/
theorem exists_unitDigits_of_word {w : List Char} (hLength : w.length = 4)
    (hDigits : ∀ c ∈ w, c ∈ lowerDigits) : ∃ u, unitDigits u = w := by
  have hValue : ∀ c ∈ w, ∃ n < 16, digit n = c := fun c hc => by
    have hMem := hDigits c hc
    rw [lowerDigits_eq] at hMem
    obtain ⟨n, hn, hEq⟩ := List.mem_map.mp hMem
    exact ⟨n, List.mem_range.mp hn, hEq⟩
  match w, hLength with
  | [p, q, r, s], _ =>
      obtain ⟨a, ha, rfl⟩ := hValue p (by simp)
      obtain ⟨b, hb, rfl⟩ := hValue q (by simp)
      obtain ⟨c, hc, rfl⟩ := hValue r (by simp)
      obtain ⟨d, hd, rfl⟩ := hValue s (by simp)
      exact exists_unitDigits ha hb hc hd

/-- Every canonical text is what some units are written as. -/
theorem exists_format_of_canonical {text : String} (hText : Canonical text) :
    ∃ units, text = format units := by
  obtain ⟨words, hWords, hChars⟩ := hText
  have hUnits : ∃ units : List UInt16, units.map unitDigits = words := by
    clear hChars
    induction words with
    | nil => exact ⟨[], rfl⟩
    | cons w words ih =>
        rw [List.forall_mem_cons] at hWords
        obtain ⟨u, rfl⟩ := exists_unitDigits_of_word hWords.1.1 hWords.1.2
        obtain ⟨units, rfl⟩ := ih hWords.2
        exact ⟨u :: units, rfl⟩
  obtain ⟨units, rfl⟩ := hUnits
  exact ⟨units, by rw [← String.toList_inj, hChars, format, String.toList_ofList, chars_eq]⟩

/-- Written text reads back as the units it was written from. For every text that can be read, the
text written from what it lists is the one canonical text that lists the same. -/
theorem format_inverse :
    (∀ units, parse (format units) = .ok units) ∧
    ∀ src units, parse src = .ok units →
      ∀ text, (Canonical text ∧ parse text = parse src) ↔ text = format units := by
  refine ⟨parse_format, fun src units hParse text => ⟨?_, ?_⟩⟩
  · rintro ⟨hText, hSame⟩
    obtain ⟨others, rfl⟩ := exists_format_of_canonical hText
    rw [parse_format, hParse, Except.ok.injEq] at hSame
    rw [hSame]
  · rintro rfl
    exact ⟨canonical_format units, by rw [parse_format, hParse]⟩

/-- Marks, capitals, missing zeros and blanks of all sorts. -/
theorem format_inverse_mixed :
    parse " 0x12\tABcd\n0X000e " = .ok [0x12, 0xabcd, 0xe] ∧
    ∀ text, (Canonical text ∧ parse text = parse " 0x12\tABcd\n0X000e ") ↔
      text = "0012 abcd 000e" := by
  have hParse : parse " 0x12\tABcd\n0X000e " = .ok [0x12, 0xabcd, 0xe] := by decide
  have hFormat : format [0x12, 0xabcd, 0xe] = "0012 abcd 000e" := by decide
  refine ⟨hParse, fun text => ?_⟩
  rw [format_inverse.2 _ _ hParse text, hFormat]

end CodeText

end TraceJit
