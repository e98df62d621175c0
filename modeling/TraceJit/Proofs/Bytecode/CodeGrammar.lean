import Mathlib.Data.List.Forall2
import Mathlib.Data.Nat.Digits.Defs
import TraceJit.Proofs.Bytecode.CodeText

/-!
Which texts list code units. A field that stands for a unit is a hexadecimal numeral of a value that
sixteen bits can hold, by itself or behind one mark. Reading takes such a numeral behind both marks
for a unit as well. Apart from that it keeps to the grammar: it accepts a text if all fields are
units, and otherwise its error names the first field that is none.
-/

namespace TraceJit

namespace Text

/-- What stands between the blanks of a text, where anything stands there. -/
def words (cs : List Char) : List (List Char) :=
  (cs.splitOnP isBlank).filter fun w => !w.isEmpty

theorem fieldsFrom_eq (field cs : List Char) :
    fieldsFrom field cs = (cs.splitOnPPrepend isBlank field).filter fun w => !w.isEmpty := by
  induction cs generalizing field with
  | nil =>
      rw [fieldsFrom, List.splitOnPPrepend_nil, List.filter_singleton, List.isEmpty_reverse]
      cases field <;> rfl
  | cons c cs ih =>
      rw [fieldsFrom, List.splitOnPPrepend_cons_eq_if]
      split
      · rw [ih, List.splitOnPPrepend_nil_right, List.filter_cons, List.isEmpty_reverse]
        cases field <;> rfl
      · exact ih (c :: field)

theorem fields_eq_words (cs : List Char) : fields cs = words cs := fieldsFrom_eq [] cs

end Text

namespace CodeText

/-! ### Numerals -/

/-- A hexadecimal digit, with letters of either case. -/
def IsDigit (c : Char) : Prop := c.toLower ∈ lowerDigits

instance (c : Char) : Decidable (IsDigit c) := inferInstanceAs (Decidable (_ ∈ _))

/-- The value of a digit is its place among the digits. -/
def place (c : Char) : Nat := lowerDigits.idxOf c.toLower

/-- The value of a numeral, whose last digit counts least. -/
def value (ds : List Char) : Nat := Nat.ofDigits 16 (ds.map place).reverse

/-- The value of a numeral, read from the left. -/
theorem value_eq_foldl (ds : List Char) :
    value ds = (ds.map place).foldl (fun a d => a * 16 + d) 0 := by
  have hStep : (fun (a d : Nat) => ((d : Nat) : Nat) + 16 * a) = fun a d => a * 16 + d := by
    funext a d
    omega
  rw [value, Nat.ofDigits_eq_foldr, List.foldr_reverse]
  exact congrArg (fun f => (ds.map place).foldl f 0) hStep

/-- The digits of base sixteen among all digits and letters. -/
theorem digitValue_filter (c : Char) :
    (Text.digitValue c).filter (· < 16) = if IsDigit c then some (place c) else none := by
  by_cases hAscii : c.toNat < 128
  · have hAll : ∀ i : Fin 128, (Text.digitValue (Char.ofNat i)).filter (· < 16) =
        if IsDigit (Char.ofNat i) then some (place (Char.ofNat i)) else none := by
      decide +kernel
    have hChar := hAll ⟨c.toNat, hAscii⟩
    rwa [Char.ofNat_toNat] at hChar
  · -- Neither a digit nor a letter, so both sides are empty.
    have hLower : c.toLower = c := by
      have hPast : ¬c.val ≤ 'Z'.val := by
        rw [UInt32.le_iff_toNat_le]
        exact fun hLe => hAscii (Nat.lt_of_le_of_lt hLe (by decide))
      exact dif_neg fun h => hPast h.2
    have hDigits : lowerDigits.all (·.toNat < 128) = true := by decide
    have hNone : Text.digitValue c = none := by
      have hBeyond : ∀ d : Char, d.toNat < 128 → ¬c ≤ d := fun d hd hLe =>
        hAscii (Nat.lt_of_le_of_lt hLe hd)
      rw [Text.digitValue, if_neg fun h => hBeyond '9' (by decide) h.2,
        if_neg fun h => hBeyond 'z' (by decide) h.2, if_neg fun h => hBeyond 'Z' (by decide) h.2]
    have hOther : ¬IsDigit c := by
      rw [IsDigit, hLower]
      exact fun hMem => hAscii (of_decide_eq_true (List.all_eq_true.mp hDigits c hMem))
    rw [hNone, if_neg hOther, Option.filter_none]

/-- What the reader takes a digit for. -/
theorem digitValue_of_isDigit {c : Char} (hDigit : IsDigit c) :
    Text.digitValue c = some (place c) ∧ place c < 16 := by
  have hFilter := digitValue_filter c
  rw [if_pos hDigit, Option.filter_eq_some_iff] at hFilter
  exact ⟨hFilter.1, of_decide_eq_true hFilter.2⟩

/-- The reader takes no other character for a digit of this base. -/
theorem le_of_not_isDigit {c : Char} (hDigit : ¬IsDigit c) {d : Nat}
    (hValue : Text.digitValue c = some d) : ¬d < 16 := by
  have hFilter := digitValue_filter c
  rw [if_neg hDigit, hValue, Option.filter_some] at hFilter
  intro hLess
  simp [hLess] at hFilter

/-- Reading goes on to the end exactly if only digits are left and all of them together keep the
limit. -/
theorem readDigitsFrom_eq_ok_iff {limit acc n : Nat} {cs : List Char} (hAcc : acc ≤ limit) :
    Text.readDigitsFrom 16 limit acc cs = .ok n ↔
      (∀ c ∈ cs, IsDigit c) ∧ (cs.map place).foldl (fun a d => a * 16 + d) acc = n ∧
        n ≤ limit := by
  induction cs generalizing acc with
  | nil =>
      simp only [Text.readDigitsFrom, Except.ok.injEq, List.not_mem_nil, false_imp_iff,
        implies_true, List.map_nil, List.foldl_nil, true_and]
      exact ⟨fun h => ⟨h, h ▸ hAcc⟩, fun h => h.1⟩
  | cons c cs ih =>
      rw [List.forall_mem_cons, List.map_cons, List.foldl_cons]
      by_cases hDigit : IsDigit c
      · obtain ⟨hValue, hSmall⟩ := digitValue_of_isDigit hDigit
        simp only [Text.readDigitsFrom, hValue, if_pos hSmall, hDigit, true_and]
        split
        next hOver =>
          -- Digits that follow make the value no smaller.
          have hMore := le_foldl_digits (cs.map place) (acc * 16 + place c)
          refine iff_of_false (by simp) ?_
          rintro ⟨_, rfl, hLimit⟩
          omega
        next hKept => exact ih (Nat.le_of_not_lt hKept)
      · refine iff_of_false ?_ fun h => hDigit h.1.1
        rw [Text.readDigitsFrom]
        cases hValue : Text.digitValue c with
        | none => simp
        | some d =>
            dsimp only
            rw [if_neg (le_of_not_isDigit hDigit hValue)]
            simp

/-! ### Fields -/

/-- One or more digits that stand for the unit `u`. -/
structure Denotes (ds : List Char) (u : UInt16) : Prop where
  nonempty : ds ≠ []
  digits : ∀ c ∈ ds, IsDigit c
  value : value ds = u.toNat

/-- The numerals that are read: digits only, at least one of them, and within sixteen bits. -/
theorem readDigits_eq_ok_iff {ds : List Char} {n : Nat} :
    Text.readDigits 16 0xffff ds = .ok n ↔
      ds ≠ [] ∧ (∀ c ∈ ds, IsDigit c) ∧ value ds = n ∧ n ≤ 0xffff := by
  rw [Text.readDigits, value_eq_foldl]
  cases ds with
  | nil => exact iff_of_false (by simp) fun h => h.1 rfl
  | cons c cs =>
      rw [List.isEmpty_cons, if_neg Bool.false_ne_true, readDigitsFrom_eq_ok_iff (Nat.zero_le _)]
      exact ⟨fun h => ⟨List.cons_ne_nil _ _, h⟩, fun h => h.2⟩

/-- Reading a numeral into a code unit. -/
theorem map_readDigits_eq_ok_iff {ds : List Char} {u : UInt16} :
    (Text.readDigits 16 0xffff ds).map Nat.toUInt16 = .ok u ↔ Denotes ds u := by
  constructor
  · intro hRead
    cases hDigits : Text.readDigits 16 0xffff ds with
    | error fault => rw [hDigits] at hRead; cases hRead
    | ok n =>
        rw [hDigits] at hRead
        obtain rfl := Except.ok.inj hRead
        obtain ⟨hSome, hAll, hValue, hLimit⟩ := readDigits_eq_ok_iff.mp hDigits
        refine ⟨hSome, hAll, ?_⟩
        rw [hValue, Nat.toUInt16, UInt16.toNat_ofNat', Nat.mod_eq_of_lt (Nat.lt_succ_of_le hLimit)]
  · rintro ⟨hSome, hAll, hValue⟩
    have hLimit : u.toNat ≤ 0xffff := Nat.le_of_lt_succ u.toNat_lt
    rw [readDigits_eq_ok_iff.mpr ⟨hSome, hAll, hValue, hLimit⟩]
    exact congrArg Except.ok UInt16.ofNat_toNat

/-- The field is one of `marks` with digits behind it that stand for the unit `u`. -/
def Spelled (marks : List String) (field : List Char) (u : UInt16) : Prop :=
  ∃ mark ∈ marks, ∃ ds, field = mark.toList ++ ds ∧ Denotes ds u

def oneMark : List String := ["", "0x", "0X"]

/-- One mark behind the other. -/
def bothMarks : List String := ["0x0X"]

theorem spelled_append {marks more : List String} {field : List Char} {u : UInt16} :
    Spelled (marks ++ more) field u ↔ Spelled marks field u ∨ Spelled more field u := by
  simp only [Spelled, List.mem_append, or_and_right, exists_or]

/-- A mark is dropped once, or there is none. -/
theorem dropMark_cases (letter : Char) (cs : List Char) :
    dropMark letter cs = cs ∨ cs = '0' :: letter :: dropMark letter cs := by
  unfold dropMark
  split
  next c cs =>
    split
    next hLetter => exact .inr (by rw [hLetter])
    next => exact .inl rfl
  next => exact .inl rfl

/-- Only the two marks are ever removed, and both only in one order. -/
theorem exists_mark (field : List Char) :
    ∃ mark ∈ oneMark ++ bothMarks, field = mark.toList ++ numeral field := by
  rw [numeral]
  rcases dropMark_cases 'x' field with hNone | hSmall
  · rw [hNone]
    rcases dropMark_cases 'X' field with hPlain | hCapital
    · exact ⟨"", by decide, hPlain.symm⟩
    · exact ⟨"0X", by decide, hCapital⟩
  · rcases dropMark_cases 'X' (dropMark 'x' field) with hPlain | hCapital
    · exact ⟨"0x", by decide, by rw [hPlain]; exact hSmall⟩
    · refine ⟨"0x0X", by decide, ?_⟩
      exact hSmall.trans (congrArg ('0' :: 'x' :: ·) hCapital)

/-- Digits are never taken for a mark. -/
theorem dropMark_digits {ds : List Char} (hDigits : ∀ c ∈ ds, IsDigit c) {letter : Char}
    (hLetter : ¬IsDigit letter) : dropMark letter ds = ds := by
  rcases dropMark_cases letter ds with hSame | hMark
  · exact hSame
  · rw [hMark] at hDigits
    exact absurd (hDigits letter (by simp)) hLetter

/-- Behind its marks a field has its digits. -/
theorem numeral_of_mark {mark : String} (hMark : mark ∈ oneMark ++ bothMarks) {ds : List Char}
    (hDigits : ∀ c ∈ ds, IsDigit c) : numeral (mark.toList ++ ds) = ds := by
  have hSmall : dropMark 'x' ds = ds := dropMark_digits hDigits (by decide)
  have hCapital : dropMark 'X' ds = ds := dropMark_digits hDigits (by decide)
  have hCases : mark = "" ∨ mark = "0x" ∨ mark = "0X" ∨ mark = "0x0X" := by
    simpa [oneMark, bothMarks] using hMark
  rcases hCases with rfl | rfl | rfl | rfl
  · change dropMark 'X' (dropMark 'x' ds) = ds
    rw [hSmall, hCapital]
  · exact hCapital
  · rfl
  · rfl

/-- The fields that are read as a unit: those of the grammar, and those behind both marks. -/
theorem readUnit_eq_ok_iff {field : List Char} {u : UInt16} :
    readUnit field = .ok u ↔ Spelled (oneMark ++ bothMarks) field u := by
  rw [readUnit, map_readDigits_eq_ok_iff]
  constructor
  · intro hDenotes
    obtain ⟨mark, hMark, hField⟩ := exists_mark field
    exact ⟨mark, hMark, numeral field, hField, hDenotes⟩
  · rintro ⟨mark, hMark, ds, rfl, hDenotes⟩
    rwa [numeral_of_mark hMark hDenotes.digits]

/-! ### Texts -/

/-- Field `f`, number `i` of all, is the first that is outside of the grammar. -/
structure FirstOutside (grammar : List Char → UInt16 → Prop) (fields : List (List Char)) (i : Nat)
    (f : List Char) : Prop where
  found : fields[i]? = some f
  outside : ∀ u, ¬grammar f u
  before : ∀ g ∈ fields.take i, ∃ u, grammar g u

/-- The error tells the number and the text of field `f`. -/
structure Names (e : CodeTextError) (i : Nat) (f : List Char) : Prop where
  index : e.index = i
  field : e.field = String.ofList f
  message : ∃ reason, e.message =
    "code unit " ++ toString i ++ " " ++ Text.quoted (String.ofList f) ++ reason

/-- What the grammar calls for as an answer to a text: the units of its fields in order, or an error
that names the first field outside of the grammar. -/
structure Reads (grammar : List Char → UInt16 → Prop) (src : String)
    (answer : Except CodeTextError (List UInt16)) : Prop where
  units : ∀ us, answer = .ok us ↔ List.Forall₂ grammar (Text.words src.toList) us
  error : ∀ e, answer = .error e →
    ∃ i f, FirstOutside grammar (Text.words src.toList) i f ∧ Names e i f

section FirstOutside

variable {grammar : List Char → UInt16 → Prop} {fields : List (List Char)} {i j : Nat}
  {f g : List Char}

theorem FirstOutside.not_lt (hf : FirstOutside grammar fields i f)
    (hg : FirstOutside grammar fields j g) : ¬i < j := by
  intro hLess
  have hMem : f ∈ fields.take j :=
    List.mem_of_getElem? (by rw [List.getElem?_take_of_lt hLess, hf.found])
  obtain ⟨u, hu⟩ := hg.before f hMem
  exact hf.outside u hu

/-- There is only one first field outside of a grammar. -/
theorem FirstOutside.unique (hf : FirstOutside grammar fields i f)
    (hg : FirstOutside grammar fields j g) : i = j ∧ f = g := by
  obtain rfl : i = j := Nat.le_antisymm (Nat.le_of_not_lt (hg.not_lt hf))
    (Nat.le_of_not_lt (hf.not_lt hg))
  exact ⟨rfl, Option.some.inj (hf.found.symm.trans hg.found)⟩

theorem FirstOutside.cons (hf : FirstOutside grammar fields i f) {u : UInt16} (hg : grammar g u) :
    FirstOutside grammar (g :: fields) (i + 1) f where
  found := hf.found
  outside := hf.outside
  before := by
    rw [List.take_succ_cons, List.forall_mem_cons]
    exact ⟨⟨u, hg⟩, hf.before⟩

/-- Either all fields belong to a grammar or there is a first that does not. -/
theorem firstOutside_or_forall (grammar : List Char → UInt16 → Prop) (fields : List (List Char)) :
    (∃ i f, FirstOutside grammar fields i f) ∨ ∀ f ∈ fields, ∃ u, grammar f u := by
  induction fields with
  | nil => exact .inr fun f hf => absurd hf List.not_mem_nil
  | cons g fields ih =>
      by_cases hg : ∃ u, grammar g u
      · rcases ih with ⟨i, f, hFirst⟩ | hAll
        · exact .inl ⟨i + 1, f, hFirst.cons hg.choose_spec⟩
        · exact .inr (List.forall_mem_cons.mpr ⟨hg, hAll⟩)
      · exact .inl ⟨0, g, rfl, fun u hu => hg ⟨u, hu⟩, fun h hh => absurd hh List.not_mem_nil⟩

theorem exists_of_forall₂ {us : List UInt16} (hAll : List.Forall₂ grammar fields us) :
    ∀ f ∈ fields, ∃ u, grammar f u := by
  induction hAll with
  | nil => exact fun f hf => absurd hf List.not_mem_nil
  | cons hu _ ih => exact List.forall_mem_cons.mpr ⟨⟨_, hu⟩, ih⟩

/-- No units can stand for the fields where one is outside of the grammar. -/
theorem FirstOutside.not_forall₂ (hf : FirstOutside grammar fields i f) (us : List UInt16) :
    ¬List.Forall₂ grammar fields us := by
  intro hAll
  obtain ⟨u, hu⟩ := exists_of_forall₂ hAll f (List.mem_of_getElem? hf.found)
  exact hf.outside u hu

/-- A field that a wider grammar leaves outside as well. -/
theorem FirstOutside.mono {wider : List Char → UInt16 → Prop}
    (hf : FirstOutside grammar fields i f) (hWider : ∀ g u, grammar g u → wider g u)
    (hOutside : ∀ u, ¬wider f u) : FirstOutside wider fields i f where
  found := hf.found
  outside := hOutside
  before g hg := (hf.before g hg).imp (hWider g)

end FirstOutside

/-- The grammar that is read by: one mark at most, or both. -/
def Readable : List Char → UInt16 → Prop := Spelled (oneMark ++ bothMarks)

/-- Fields are read if each of them is, and then unit by unit. -/
theorem readFields_eq_ok_iff {index : Nat} {fields : List (List Char)} {us : List UInt16} :
    readFields index fields = .ok us ↔ List.Forall₂ Readable fields us := by
  induction fields generalizing index us with
  | nil => rw [readFields, List.forall₂_nil_left_iff, Except.ok.injEq, eq_comm]
  | cons f fields ih =>
      rw [readFields]
      cases hf : readUnit f with
      | error fault =>
          refine iff_of_false (by simp) fun hAll => ?_
          cases hAll with
          | cons hu _ =>
              rw [Readable, ← readUnit_eq_ok_iff, hf] at hu
              cases hu
      | ok u =>
          dsimp only
          constructor
          · intro hRead
            cases hRest : readFields (index + 1) fields with
            | error e => rw [hRest] at hRead; cases hRead
            | ok vs =>
                rw [hRest] at hRead
                obtain rfl := Except.ok.inj hRead
                exact .cons (readUnit_eq_ok_iff.mp hf) (ih.mp hRest)
          · intro hAll
            cases hAll with
            | @cons _ v _ vs hv hRest =>
                rw [Readable, ← readUnit_eq_ok_iff, hf, Except.ok.injEq] at hv
                rw [ih.mpr hRest, hv]
                rfl

/-- A failure names the first field that cannot be read, by its place among all fields. -/
theorem readFields_eq_error {index : Nat} {fields : List (List Char)} {e : CodeTextError}
    (hRead : readFields index fields = .error e) :
    ∃ i f, FirstOutside Readable fields i f ∧ e.index = index + i ∧ e.field = String.ofList f := by
  induction fields generalizing index with
  | nil => cases hRead
  | cons f fields ih =>
      rw [readFields] at hRead
      cases hf : readUnit f with
      | error fault =>
          rw [hf] at hRead
          obtain rfl := Except.error.inj hRead
          refine ⟨0, f, ⟨rfl, fun u hu => ?_, fun g hg => absurd hg List.not_mem_nil⟩, rfl, rfl⟩
          rw [Readable, ← readUnit_eq_ok_iff, hf] at hu
          cases hu
      | ok u =>
          rw [hf] at hRead
          cases hRest : readFields (index + 1) fields with
          | ok us => simp only [hRest] at hRead; cases hRead
          | error e' =>
              simp only [hRest] at hRead
              obtain rfl := Except.error.inj hRead
              obtain ⟨i, g, hFirst, hIndex, hField⟩ := ih hRest
              exact ⟨i + 1, g, hFirst.cons (readUnit_eq_ok_iff.mp hf), by omega, hField⟩

/-- Every message starts with the number and the text of the field. -/
theorem exists_reason (e : CodeTextError) :
    ∃ reason, e.message = "code unit " ++ toString e.index ++ " " ++ Text.quoted e.field ++
      reason := by
  have hAssoc (start a b c d : String) :
      start ++ a ++ b ++ c ++ d = start ++ (a ++ b ++ c ++ d) := by
    simp only [String.append_assoc]
  exact ⟨_, hAssoc _ _ _ _ _⟩

theorem reads_parse (src : String) : Reads Readable src (parse src) where
  units us := by rw [parse, Text.fields_eq_words, readFields_eq_ok_iff]
  error e hError := by
    rw [parse, Text.fields_eq_words] at hError
    obtain ⟨i, f, hFirst, hIndex, hField⟩ := readFields_eq_error hError
    rw [Nat.zero_add] at hIndex
    exact ⟨i, f, hFirst, hIndex, hField, hIndex ▸ hField ▸ exists_reason e⟩

/-- A field of the grammar is read as the unit that it stands for. -/
theorem readable_iff_of_spelled {f : List Char} {u v : UInt16} (hu : Spelled oneMark f u) :
    Readable f v ↔ Spelled oneMark f v := by
  refine ⟨fun hv => ?_, fun hv => spelled_append.mpr (.inl hv)⟩
  have hRead := readUnit_eq_ok_iff.mpr (spelled_append.mpr (.inl hu) : Readable f u)
  rw [Readable, ← readUnit_eq_ok_iff, hRead, Except.ok.injEq] at hv
  exact hv ▸ hu

theorem forall₂_readable_iff {fields : List (List Char)} {us : List UInt16}
    (hAll : ∀ f ∈ fields, ∃ u, Spelled oneMark f u) :
    List.Forall₂ Readable fields us ↔ List.Forall₂ (Spelled oneMark) fields us := by
  constructor
  · intro hRead
    have hBoth := (List.forall₂_and_left (p := fun f => ∃ u, Spelled oneMark f u) fields us).mpr
      ⟨hAll, hRead⟩
    exact hBoth.imp fun f u h => (readable_iff_of_spelled h.1.choose_spec).mp h.2
  · exact fun hUnits => hUnits.imp fun f u h => (readable_iff_of_spelled h).mpr h

/-- A text is read as the units of its fields, or the error names the first field outside, where the
grammar allows both marks at once. It is the answer that is due with one mark at most exactly if the
first field outside of that grammar, where there is one, is not a unit behind both marks. -/
theorem parse_reads_iff (src : String) :
    Reads (Spelled (oneMark ++ bothMarks)) src (parse src) ∧
    (Reads (Spelled oneMark) src (parse src) ↔
      ∀ i f, FirstOutside (Spelled oneMark) (Text.words src.toList) i f →
        ∀ u, ¬Spelled bothMarks f u) := by
  have hParse := reads_parse src
  have hWider : ∀ g u, Spelled oneMark g u → Readable g u := fun g u hu =>
    spelled_append.mpr (.inl hu)
  refine ⟨hParse, fun hOne i f hFirst u hBoth => ?_, fun hNone => ?_⟩
  · -- The field is accepted, so what is answered is not about it.
    cases hAnswer : parse src with
    | ok us => exact hFirst.not_forall₂ us ((hOne.units us).mp hAnswer)
    | error e =>
        obtain ⟨j, g, hOther, hNames⟩ := hOne.error e hAnswer
        obtain ⟨k, h, hRefused, hNamesRefused⟩ := hParse.error e hAnswer
        obtain ⟨rfl, rfl⟩ := hFirst.unique hOther
        obtain rfl : i = k := hNames.index.symm.trans hNamesRefused.index
        obtain rfl : f = h := Option.some.inj (hFirst.found.symm.trans hRefused.found)
        exact hRefused.outside u (spelled_append.mpr (.inr hBoth))
  · rcases firstOutside_or_forall (Spelled oneMark) (Text.words src.toList) with
      ⟨i, f, hFirst⟩ | hAll
    · -- The same field is the first outside of both grammars.
      have hRefused : FirstOutside Readable (Text.words src.toList) i f :=
        hFirst.mono hWider fun u hu =>
          (spelled_append.mp hu).elim (hFirst.outside u) (hNone i f hFirst u)
      refine ⟨fun us => iff_of_false (fun hOk => ?_) (hFirst.not_forall₂ us), fun e hError => ?_⟩
      · exact hRefused.not_forall₂ us ((hParse.units us).mp hOk)
      · obtain ⟨j, g, hOther, hNames⟩ := hParse.error e hError
        obtain ⟨rfl, rfl⟩ := hRefused.unique hOther
        exact ⟨i, f, hFirst, hNames⟩
    · refine ⟨fun us => ?_, fun e hError => ?_⟩
      · rw [hParse.units]
        exact forall₂_readable_iff hAll
      · obtain ⟨j, g, hOther, _⟩ := hParse.error e hError
        obtain ⟨u, hu⟩ := hAll g (List.mem_of_getElem? hOther.found)
        exact absurd (hWider g u hu) (hOther.outside u)

/-- A unit behind both marks is read, though the grammar has no such field. -/
theorem parse_bothMarks : parse "0x0X12" = .ok [0x12] ∧
    ¬Reads (Spelled oneMark) "0x0X12" (parse "0x0X12") := by
  have hParse : parse "0x0X12" = .ok [0x12] := by decide
  refine ⟨hParse, fun hReads => ?_⟩
  have hField := exists_of_forall₂ ((hReads.units [0x12]).mp hParse) "0x0X12".toList (by decide)
  obtain ⟨u, mark, hMark, ds, hSplit, hDenotes⟩ := hField
  -- What is left behind any one mark still holds a letter that is no digit.
  have hDigits : ∀ c ∈ ds, IsDigit c := hDenotes.digits
  have hCases : mark = "" ∨ mark = "0x" ∨ mark = "0X" := by simpa [oneMark] using hMark
  rcases hCases with rfl | rfl | rfl
  · obtain rfl : "0x0X12".toList = ds := hSplit
    exact absurd (hDigits 'x' (by decide)) (by decide)
  · obtain rfl : "0X12".toList = ds := by simpa using hSplit
    exact absurd (hDigits 'X' (by decide)) (by decide)
  · simp at hSplit

end CodeText

end TraceJit
