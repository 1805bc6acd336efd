import MarkMachine.Json.Reader
import MarkMachine.Proofs.Decimal
import Mathlib.Data.List.DropRight
import Mathlib.Data.List.TakeDrop
import Mathlib.Tactic.IntervalCases
import Mathlib.Tactic.SplitIfs

/-! The texts that JSON documents are read from. A grammar says which pieces of text stand for a document,
for what is left of an array or an object, and for a field. The readers take every piece off the front of
what follows it, with no more fuel than the piece has characters. Both ways to write a document follow the
grammar, so a document that is written is read back. -/

namespace MarkMachine

namespace Decimal

theorem isDigit_of_mem_digits {n : Nat} {c : Char} (h : c ∈ digits n) : ('0' ≤ c && c ≤ '9') = true := by
  have hdigit := (digits_digits n).2 c h
  simpa [Char.isDigit, Char.le_def] using hdigit

theorem exists_digits_eq_cons (n : Nat) :
    ∃ c later, digits n = c :: later ∧ ('0' ≤ c && c ≤ '9') = true := by
  obtain ⟨c, later, hdigits⟩ := List.exists_cons_of_ne_nil (digits_digits n).1
  have hc : c ∈ digits n := by
    rw [hdigits]
    exact List.mem_cons_self
  exact ⟨c, later, hdigits, isDigit_of_mem_digits hc⟩

/-- No zero stands in front of other digits. -/
theorem eq_zero_of_head?_digits {n : Nat} (h : (digits n).head? = some '0') : n = 0 := by
  induction n using Nat.strongRecOn with
  | ind n ih =>
      by_cases hsmall : n < 10
      · rw [digits, Nat.toDigits_of_lt_base hsmall] at h
        revert h
        interval_cases n <;> decide
      · rw [digits, Nat.toDigits_of_base_le (by decide) (Nat.not_lt.mp hsmall),
          List.head?_append_of_ne_nil _ Nat.toDigits_ne_nil] at h
        have hzero := ih (n / 10) (by omega) h
        omega

/-- The digits of a number, read one after the other, are worth the number. -/
theorem foldl_digits (n : Nat) :
    (digits n).foldl (fun value digit => value * 10 + (digit.toNat - '0'.toNat)) 0 = n := by
  have h := worth_digits n
  rw [worth, Nat.ofDigitChars_eq_foldl] at h
  simpa only [Nat.mul_comm 10] using h

end Decimal

namespace Json

/-- Whether a character is passed over between the parts of a document. -/
def isBlank (c : Char) : Bool :=
  c = ' ' || c = '\t' || c = '\n' || c = '\r'

theorem trimBlanks_cons_of_isBlank {c : Char} (h : isBlank c = true) (text : List Char) :
    trimBlanks (c :: text) = trimBlanks text :=
  List.dropWhile_cons_of_pos h

theorem trimBlanks_cons_of_not_isBlank {c : Char} (h : isBlank c = false) (text : List Char) :
    trimBlanks (c :: text) = c :: text :=
  List.dropWhile_cons_of_neg (by simpa [isBlank] using h)

theorem trimBlanks_trimBlanks (text : List Char) : trimBlanks (trimBlanks text) = trimBlanks text :=
  List.dropWhile_idempotent _ _

section Strings

theorem hexDigit?_digitChar {n : Nat} (h : n < 16) : hexDigit? n.digitChar = some n := by
  interval_cases n <;> decide

/-- A control character is read back from its code. -/
theorem readCodePoint_leftpad {n : Nat} (h : n < 0x20) (rest : List Char) :
    readCodePoint ((Nat.toDigits 16 n).leftpad 4 '0' ++ rest) = some (Char.ofNat n, rest) := by
  have hdigits : (Nat.toDigits 16 n).leftpad 4 '0' = ['0', '0', (n / 16).digitChar, (n % 16).digitChar] := by
    interval_cases n <;> decide
  have hhigh : hexDigit? (n / 16).digitChar = some (n / 16) := hexDigit?_digitChar (by omega)
  have hlow : hexDigit? (n % 16).digitChar = some (n % 16) := hexDigit?_digitChar (by omega)
  have hzero : hexDigit? '0' = some 0 := by decide
  have hhex : readHex ((Nat.toDigits 16 n).leftpad 4 '0' ++ rest) = some (n, rest) := by
    have hsum : n / 16 * 16 + n % 16 = n := by omega
    rw [hdigits]
    simp [readHex, hhigh, hlow, hzero, hsum]
  have hvalid : n.isValidChar := .inl (by omega)
  have hpair : ¬(0xD800 ≤ n ∧ n < 0xDC00) := by omega
  rw [readCodePoint, hhex]
  simp [hpair, hvalid]

/-- One written character is read back as what it was. -/
theorem readChars_escape (c : Char) (fuel : Nat) (rest : List Char) :
    readChars (fuel + 1) (escape c ++ rest) =
      (readChars fuel rest).bind fun (chars, rest) => some (c :: chars, rest) := by
  have hslash {code : List Char} (h : readEscape (code ++ rest) = some (c, rest)) :
      readChars (fuel + 1) ('\\' :: code ++ rest) =
        (readChars fuel rest).bind fun (chars, rest) => some (c :: chars, rest) := by
    rw [List.cons_append, readChars, h]
    rfl
  rw [escape]
  split_ifs with hself hn hr ht hb hf hcontrol
  · apply hslash
    rcases hself with rfl | rfl <;> rfl
  · exact hslash (by subst hn; rfl)
  · exact hslash (by subst hr; rfl)
  · exact hslash (by subst ht; rfl)
  · exact hslash (by subst hb; rfl)
  · exact hslash (by subst hf; rfl)
  · apply hslash
    have hcode := readCodePoint_leftpad hcontrol rest
    rwa [Char.ofNat_toNat] at hcode
  · rw [not_or] at hself
    rw [List.singleton_append, readChars, if_neg hcontrol]
    · rfl
    · exact hself.1
    · exact hself.2

theorem length_le_length_flatMap_escape (text : List Char) :
    text.length ≤ (text.flatMap escape).length := by
  induction text with
  | nil => exact Nat.le_refl _
  | cons c text ih =>
      have hpos : 0 < (escape c).length := by
        rw [escape]
        split_ifs <;> simp
      rw [List.flatMap_cons, List.length_append, List.length_cons]
      omega

theorem readChars_flatMap_escape (text rest : List Char) {fuel : Nat} (h : text.length < fuel) :
    readChars fuel (text.flatMap escape ++ '"' :: rest) = some (text, rest) := by
  induction text generalizing fuel with
  | nil =>
      obtain ⟨fuel, rfl⟩ := Nat.exists_eq_succ_of_ne_zero (Nat.ne_of_gt h)
      rfl
  | cons c text ih =>
      obtain ⟨fuel, rfl⟩ := Nat.exists_eq_succ_of_ne_zero (Nat.ne_of_gt (Nat.zero_lt_of_lt h))
      rw [List.flatMap_cons, List.append_assoc, readChars_escape, ih (Nat.lt_of_succ_lt_succ h)]
      rfl

theorem readString_escape (text : String) (rest : List Char) :
    readString (text.toList.flatMap escape ++ '"' :: rest) = some (text, rest) := by
  have hlength := length_le_length_flatMap_escape text.toList
  rw [readString, readChars_flatMap_escape]
  · simp
  · rw [List.length_append]
    omega

end Strings

section Numbers

/-- Whether a character behind a number would be taken as a part of it. -/
def extendsNumber (c : Char) : Bool :=
  '0' ≤ c && c ≤ '9' || c = '.' || c = 'e' || c = 'E'

/-- A number can end before such a text. -/
def Ends (rest : List Char) : Prop :=
  ∀ c ∈ rest.head?, extendsNumber c = false

theorem ends_cons {c : Char} (h : extendsNumber c = false) (rest : List Char) : Ends (c :: rest) := by
  rintro _ ⟨⟩
  exact h

theorem ends_of_isBlank {c : Char} (h : isBlank c = true) (rest : List Char) : Ends (c :: rest) := by
  apply ends_cons
  simp only [isBlank, Bool.or_eq_true, decide_eq_true_eq] at h
  rcases h with ((rfl | rfl) | rfl) | rfl <;> decide

theorem ends_of_blanks {blanks : List Char} (h : ∀ c ∈ blanks, isBlank c = true) : Ends blanks := by
  cases blanks with
  | nil => exact fun c hc => nomatch hc
  | cons c blanks => exact ends_of_isBlank (h c (List.mem_cons_self ..)) blanks

theorem readDigits_append {digits rest : List Char} (hdigits : ∀ c ∈ digits, ('0' ≤ c && c ≤ '9') = true)
    (hne : digits ≠ []) (hrest : Ends rest) : readDigits (digits ++ rest) = some (digits, rest) := by
  have hspan : (digits ++ rest).span (fun c => '0' ≤ c && c ≤ '9') = (digits, rest) := by
    rw [List.span_eq_takeWhile_dropWhile, List.takeWhile_append_of_pos hdigits,
      List.dropWhile_append_of_pos hdigits]
    cases rest with
    | nil => simp
    | cons c rest =>
        have hc := hrest c rfl
        simp only [extendsNumber, Bool.or_eq_false_iff] at hc
        simp [hc.1.1.1]
  rw [readDigits, hspan]
  simp [hne]

theorem readWhole_digits (n : Nat) {rest : List Char} (hrest : Ends rest) :
    readWhole (Decimal.digits n ++ rest) = some (Decimal.digits n, rest) := by
  have hwhole : ¬((Decimal.digits n).head? = some '0' ∧ (Decimal.digits n).length ≠ 1) := by
    rintro ⟨hhead, hlength⟩
    cases Decimal.eq_zero_of_head?_digits hhead
    exact hlength rfl
  rw [readWhole, readDigits_append (fun c => Decimal.isDigit_of_mem_digits) Nat.toDigits_ne_nil hrest]
  exact if_neg hwhole

theorem readFraction_of_ends {rest : List Char} (h : Ends rest) : readFraction rest = some ([], rest) := by
  rw [readFraction]
  rintro later rfl
  exact absurd (h _ rfl) (by decide)

theorem readExponent_of_ends {rest : List Char} (h : Ends rest) : readExponent rest = some ([], rest) := by
  cases rest with
  | nil => rfl
  | cons c rest =>
      have hc := h c rfl
      simp only [extendsNumber, Bool.or_eq_false_iff, decide_eq_false_iff_not] at hc
      simp [readExponent, hc]

theorem digits_append_ne_minus (n : Nat) (rest later : List Char) :
    Decimal.digits n ++ rest ≠ '-' :: later := by
  obtain ⟨c, digits, hdigits, hc⟩ := Decimal.exists_digits_eq_cons n
  rw [hdigits, List.cons_append, Ne, List.cons.injEq]
  rintro ⟨rfl, _⟩
  exact absurd hc (by decide)

/-- A whole number is read back from its digits. -/
theorem readNumber_chars (n : Int) {rest : List Char} (hrest : Ends rest) :
    readNumber (Decimal.chars n ++ rest) = some (.integer n, rest) := by
  have hwhole := readWhole_digits n.natAbs hrest
  have hmagnitude := Decimal.foldl_digits n.natAbs
  have hminus := digits_append_ne_minus n.natAbs rest
  have hfraction := readFraction_of_ends hrest
  have hexponent := readExponent_of_ends hrest
  rw [Decimal.chars]
  split_ifs with hneg
  · have hvalue : n = -n.natAbs := by omega
    generalize n.natAbs = magnitude at *
    subst hvalue
    have hnonzero : magnitude ≠ 0 := by omega
    rw [List.cons_append, readNumber]
    simp only [hwhole, hfraction, hexponent, Option.bind_eq_bind, Option.bind_some, hmagnitude]
    simp [hnonzero]
  · have hvalue : n = n.natAbs := by omega
    generalize n.natAbs = magnitude at *
    subst hvalue
    rw [readNumber]
    · simp only [hwhole, hfraction, hexponent, Option.bind_eq_bind, Option.bind_some, hmagnitude]
      simp
    · exact hminus

end Numbers

/-- What a piece of JSON text can stand for: a document, the items or fields of an array or object up to
its closing bracket, those behind the first, or one field. -/
inductive Phrase where
  | value (document : Json)
  | items (items : List Json)
  | moreItems (items : List Json)
  | fields (fields : List (String × Json))
  | moreFields (fields : List (String × Json))
  | field (name : String) (document : Json)

/-- The grammar of JSON text without fractions and exponents. -/
inductive Spells : List Char → Phrase → Prop
  | blank {c : Char} {piece : List Char} {phrase : Phrase} :
      isBlank c = true → Spells piece phrase → Spells (c :: piece) phrase
  | null : Spells ['n', 'u', 'l', 'l'] (.value .null)
  | yes : Spells ['t', 'r', 'u', 'e'] (.value (.bool true))
  | no : Spells ['f', 'a', 'l', 's', 'e'] (.value (.bool false))
  | integer (value : Int) : Spells (Decimal.chars value) (.value (.integer value))
  | string (value : String) : Spells (quote value) (.value (.string value))
  | array {piece : List Char} {items : List Json} :
      Spells piece (.items items) → Spells ('[' :: piece) (.value (.array items))
  | noItems : Spells [']'] (.items [])
  | items {first later : List Char} {item : Json} {items : List Json} :
      Spells first (.value item) → Spells later (.moreItems items) →
        Spells (first ++ later) (.items (item :: items))
  | lastItem : Spells [']'] (.moreItems [])
  | nextItem {first later : List Char} {item : Json} {items : List Json} :
      Spells first (.value item) → Spells later (.moreItems items) →
        Spells (',' :: first ++ later) (.moreItems (item :: items))
  | object {piece : List Char} {fields : List (String × Json)} :
      Spells piece (.fields fields) → Spells ('\x7b' :: piece) (.value (.object fields))
  | noFields : Spells ['\x7d'] (.fields [])
  | fields {first later : List Char} {name : String} {document : Json} {fields : List (String × Json)} :
      Spells first (.field name document) → Spells later (.moreFields fields) →
        Spells (first ++ later) (.fields ((name, document) :: fields))
  | lastField : Spells ['\x7d'] (.moreFields [])
  | nextField {first later : List Char} {name : String} {document : Json} {fields : List (String × Json)} :
      Spells first (.field name document) → Spells later (.moreFields fields) →
        Spells (',' :: first ++ later) (.moreFields ((name, document) :: fields))
  | field (name : String) {piece : List Char} {document : Json} :
      Spells piece (.value document) → Spells (quote name ++ ':' :: piece) (.field name document)

/-- A reader takes what a phrase stands for off the front of a text and leaves the rest. -/
def Phrase.ReadOff (fuel : Nat) (text rest : List Char) : Phrase → Prop
  | .value document => readValue fuel text = some (document, rest)
  | .items documents => readItems fuel text = some (documents, rest)
  | .moreItems documents => readMoreItems fuel text = some (documents, rest)
  | .fields entries => readFields fuel text = some (entries, rest)
  | .moreFields entries => readMoreFields fuel text = some (entries, rest)
  | .field name document => readField fuel text = some ((name, document), rest)

theorem readValue_trimBlanks (fuel : Nat) (text : List Char) :
    readValue fuel (trimBlanks text) = readValue fuel text := by
  cases fuel with
  | zero => rw [readValue, readValue]
  | succ fuel => rw [readValue, readValue, trimBlanks_trimBlanks]

theorem readField_trimBlanks (fuel : Nat) (text : List Char) :
    readField fuel (trimBlanks text) = readField fuel text := by
  cases fuel with
  | zero => rw [readField, readField]
  | succ fuel => rw [readField, readField, trimBlanks_trimBlanks]

/-- No reader minds blanks at the front. -/
theorem Phrase.readOff_trimBlanks (phrase : Phrase) (fuel : Nat) (text rest : List Char) :
    phrase.ReadOff fuel (trimBlanks text) rest ↔ phrase.ReadOff fuel text rest := by
  cases phrase with
  | value document => rw [ReadOff, ReadOff, readValue_trimBlanks]
  | field name document => rw [ReadOff, ReadOff, readField_trimBlanks]
  | items documents => cases fuel <;> simp [ReadOff, readItems, trimBlanks_trimBlanks]
  | moreItems documents => cases fuel <;> simp [ReadOff, readMoreItems, trimBlanks_trimBlanks]
  | fields entries => cases fuel <;> simp [ReadOff, readFields, trimBlanks_trimBlanks]
  | moreFields entries => cases fuel <;> simp [ReadOff, readMoreFields, trimBlanks_trimBlanks]

def opensNumber (c : Char) : Bool :=
  c = '-' || '0' ≤ c && c ≤ '9'

theorem exists_chars_eq_cons (n : Int) :
    ∃ c later, Decimal.chars n = c :: later ∧ opensNumber c = true := by
  rw [Decimal.chars]
  split_ifs with hneg
  · exact ⟨'-', _, rfl, by decide⟩
  · obtain ⟨c, later, hdigits, hc⟩ := Decimal.exists_digits_eq_cons n.natAbs
    exact ⟨c, later, hdigits, by rw [opensNumber, hc, Bool.or_true]⟩

theorem isBlank_of_opensNumber {c : Char} (h : opensNumber c = true) : isBlank c = false := by
  by_contra hblank
  simp only [isBlank, Bool.not_eq_false, Bool.or_eq_true, decide_eq_true_eq] at hblank
  rcases hblank with ((rfl | rfl) | rfl) | rfl <;> exact absurd h (by decide)

theorem readValue_of_opensNumber {c : Char} (h : opensNumber c = true) (fuel : Nat)
    (later : List Char) : readValue (fuel + 1) (c :: later) = readNumber (c :: later) := by
  rw [readValue, trimBlanks_cons_of_not_isBlank (isBlank_of_opensNumber h)]
  split
  all_goals first
    | rfl
    | next heq =>
        rw [List.cons.injEq] at heq
        rw [heq.1] at h
        exact absurd h (by decide)

/-- The first character behind the blanks of what stands for a phrase. -/
def Phrase.Opens (c : Char) : Phrase → Prop
  | .value _ => c ≠ ']'
  | .items _ => True
  | .moreItems _ => c = ',' ∨ c = ']'
  | .fields _ => True
  | .moreFields _ => c = ',' ∨ c = '\x7d'
  | .field _ _ => c = '"'

theorem Phrase.exists_opens_of_cons {c : Char} {phrase : Phrase} (hblank : isBlank c = false)
    (hopens : phrase.Opens c) (text : List Char) :
    ∃ c' later, trimBlanks (c :: text) = c' :: later ∧ phrase.Opens c' :=
  ⟨c, text, trimBlanks_cons_of_not_isBlank hblank text, hopens⟩

theorem Spells.exists_opens {piece : List Char} {phrase : Phrase} (h : Spells piece phrase)
    (rest : List Char) : ∃ c later, trimBlanks (piece ++ rest) = c :: later ∧ phrase.Opens c := by
  induction h generalizing rest with
  | blank hc _ ih =>
      rw [List.cons_append, trimBlanks_cons_of_isBlank hc]
      exact ih rest
  | integer value =>
      obtain ⟨c, later, hchars, hc⟩ := exists_chars_eq_cons value
      rw [hchars]
      refine Phrase.exists_opens_of_cons (isBlank_of_opensNumber hc) ?_ _
      rintro rfl
      exact absurd hc (by decide)
  | @items first later item items _ _ ihfirst _ =>
      obtain ⟨c, text, htrim, _⟩ := ihfirst (later ++ rest)
      exact ⟨c, text, by rw [List.append_assoc, htrim], trivial⟩
  | @fields first later name document fields _ _ ihfirst _ =>
      obtain ⟨c, text, htrim, _⟩ := ihfirst (later ++ rest)
      exact ⟨c, text, by rw [List.append_assoc, htrim], trivial⟩
  | _ => exact Phrase.exists_opens_of_cons (by decide) (by simp [Phrase.Opens]) _

theorem Spells.length_pos {piece : List Char} {phrase : Phrase} (h : Spells piece phrase) :
    0 < piece.length := by
  obtain ⟨c, later, htrim, _⟩ := h.exists_opens []
  cases piece with
  | nil => cases htrim
  | cons => exact Nat.succ_pos _

theorem Spells.value_ne_bracket {piece : List Char} {document : Json} (h : Spells piece (.value document))
    (rest later : List Char) : trimBlanks (piece ++ rest) ≠ ']' :: later := by
  intro hbracket
  obtain ⟨c, text, htrim, hopens⟩ := h.exists_opens rest
  rw [hbracket, List.cons.injEq] at htrim
  exact hopens htrim.1.symm

theorem Spells.field_ne_brace {piece : List Char} {name : String} {document : Json}
    (h : Spells piece (.field name document)) (rest later : List Char) :
    trimBlanks (piece ++ rest) ≠ '\x7d' :: later := by
  intro hbrace
  obtain ⟨c, text, htrim, hopens⟩ := h.exists_opens rest
  rw [hbrace, List.cons.injEq, hopens] at htrim
  exact absurd htrim.1 (by decide)

theorem Spells.ends_moreItems {piece : List Char} {items : List Json} (h : Spells piece (.moreItems items))
    (rest : List Char) : Ends (piece ++ rest) := by
  cases h with
  | blank hc _ => exact ends_of_isBlank hc _
  | lastItem => exact ends_cons (by decide) _
  | nextItem => exact ends_cons (by decide) _

theorem Spells.ends_moreFields {piece : List Char} {fields : List (String × Json)}
    (h : Spells piece (.moreFields fields)) (rest : List Char) : Ends (piece ++ rest) := by
  cases h with
  | blank hc _ => exact ends_of_isBlank hc _
  | lastField => exact ends_cons (by decide) _
  | nextField => exact ends_cons (by decide) _

theorem readItems_cons {fuel : Nat} {text rest rest' : List Char} {item : Json} {items : List Json}
    (htext : ∀ later, trimBlanks text ≠ ']' :: later) (hitem : readValue fuel text = some (item, rest))
    (hitems : readMoreItems fuel rest = some (items, rest')) :
    readItems (fuel + 1) text = some (item :: items, rest') := by
  rw [readItems]
  split
  · next heq => exact absurd heq (htext _)
  · rw [readValue_trimBlanks, hitem, Option.bind_eq_bind, Option.bind_some]
    simp only [hitems, Option.bind_eq_bind, Option.bind_some, Option.pure_def]

theorem readMoreItems_cons {fuel : Nat} {text rest rest' : List Char} {item : Json} {items : List Json}
    (hitem : readValue fuel text = some (item, rest))
    (hitems : readMoreItems fuel rest = some (items, rest')) :
    readMoreItems (fuel + 1) (',' :: text) = some (item :: items, rest') := by
  rw [readMoreItems, trimBlanks_cons_of_not_isBlank (by decide)]
  simp only [hitem, hitems, Option.bind_eq_bind, Option.bind_some, Option.pure_def]

theorem readFields_cons {fuel : Nat} {text rest rest' : List Char} {field : String × Json}
    {fields : List (String × Json)} (htext : ∀ later, trimBlanks text ≠ '\x7d' :: later)
    (hfield : readField fuel text = some (field, rest))
    (hfields : readMoreFields fuel rest = some (fields, rest')) :
    readFields (fuel + 1) text = some (field :: fields, rest') := by
  rw [readFields]
  split
  · next heq => exact absurd heq (htext _)
  · rw [readField_trimBlanks, hfield, Option.bind_eq_bind, Option.bind_some]
    simp only [hfields, Option.bind_eq_bind, Option.bind_some, Option.pure_def]

theorem readMoreFields_cons {fuel : Nat} {text rest rest' : List Char} {field : String × Json}
    {fields : List (String × Json)} (hfield : readField fuel text = some (field, rest))
    (hfields : readMoreFields fuel rest = some (fields, rest')) :
    readMoreFields (fuel + 1) (',' :: text) = some (field :: fields, rest') := by
  rw [readMoreFields, trimBlanks_cons_of_not_isBlank (by decide)]
  simp only [hfield, hfields, Option.bind_eq_bind, Option.bind_some, Option.pure_def]

theorem readField_quote {fuel : Nat} {text rest : List Char} {document : Json} (name : String)
    (hvalue : readValue fuel text = some (document, rest)) :
    readField (fuel + 1) (quote name ++ ':' :: text) = some ((name, document), rest) := by
  have hquote : quote name ++ ':' :: text = '"' :: (name.toList.flatMap escape ++ '"' :: ':' :: text) := by
    simp [quote]
  rw [readField, hquote, trimBlanks_cons_of_not_isBlank (by decide)]
  simp only [readString_escape, Option.bind_eq_bind, Option.bind_some,
    trimBlanks_cons_of_not_isBlank (c := ':') (by decide), hvalue, Option.pure_def]

/-- What has been shown for every fuel above zero holds for all fuel that covers a piece of text. -/
theorem Phrase.readOff_of_succ {phrase : Phrase} {piece text rest : List Char} (hpiece : 0 < piece.length)
    (h : ∀ fuel, piece.length ≤ fuel + 1 → phrase.ReadOff (fuel + 1) text rest) {fuel : Nat}
    (hfuel : piece.length ≤ fuel) : phrase.ReadOff fuel text rest := by
  cases fuel with
  | zero => omega
  | succ fuel => exact h fuel hfuel

/-- Whatever follows the grammar is read off the front of any text that does not lengthen a number. The
characters of a piece are fuel enough: of the two parts that a call hands on, each leaves one character to
the other. -/
theorem Spells.readOff_succ {piece : List Char} {phrase : Phrase} (h : Spells piece phrase)
    {rest : List Char} (hrest : Ends rest) (fuel : Nat) (hfuel : piece.length ≤ fuel + 1) :
    phrase.ReadOff (fuel + 1) (piece ++ rest) rest := by
  induction h generalizing rest fuel with
  | blank hc _ ih =>
      rw [← Phrase.readOff_trimBlanks, List.cons_append, trimBlanks_cons_of_isBlank hc,
        Phrase.readOff_trimBlanks]
      exact ih hrest _ (Nat.le_of_succ_le hfuel)
  | null => simp [Phrase.ReadOff, readValue, trimBlanks]
  | yes => simp [Phrase.ReadOff, readValue, trimBlanks]
  | no => simp [Phrase.ReadOff, readValue, trimBlanks]
  | integer value =>
      obtain ⟨c, later, hchars, hc⟩ := exists_chars_eq_cons value
      have hnumber := readNumber_chars value hrest
      rw [hchars] at hnumber ⊢
      exact (readValue_of_opensNumber hc _ _).trans hnumber
  | string value =>
      have hvalue := readString_escape value rest
      simp [Phrase.ReadOff, readValue, quote, trimBlanks, hvalue]
  | @array piece items hitems ih =>
      have hread : readItems fuel (piece ++ rest) = some (items, rest) :=
        Phrase.readOff_of_succ hitems.length_pos (ih hrest) (Nat.le_of_succ_le_succ hfuel)
      simp [Phrase.ReadOff, readValue, trimBlanks, hread]
  | @object piece fields hfields ih =>
      have hread : readFields fuel (piece ++ rest) = some (fields, rest) :=
        Phrase.readOff_of_succ hfields.length_pos (ih hrest) (Nat.le_of_succ_le_succ hfuel)
      simp [Phrase.ReadOff, readValue, trimBlanks, hread]
  | noItems => simp [Phrase.ReadOff, readItems, trimBlanks]
  | lastItem => simp [Phrase.ReadOff, readMoreItems, trimBlanks]
  | noFields => simp [Phrase.ReadOff, readFields, trimBlanks]
  | lastField => simp [Phrase.ReadOff, readMoreFields, trimBlanks]
  | items hfirst hlater ihfirst ihlater =>
      have hfirstPos := hfirst.length_pos
      have hlaterPos := hlater.length_pos
      rw [List.length_append] at hfuel
      rw [List.append_assoc]
      have hitem : (Phrase.value _).ReadOff fuel _ _ :=
        Phrase.readOff_of_succ hfirstPos (ihfirst (hlater.ends_moreItems rest)) (by omega)
      exact readItems_cons (hfirst.value_ne_bracket _) hitem
        (Phrase.readOff_of_succ hlaterPos (ihlater hrest) (by omega))
  | nextItem hfirst hlater ihfirst ihlater =>
      rw [List.cons_append, List.length_cons, List.length_append] at hfuel
      rw [List.cons_append, List.cons_append, List.append_assoc]
      have hitem : (Phrase.value _).ReadOff fuel _ _ :=
        Phrase.readOff_of_succ hfirst.length_pos (ihfirst (hlater.ends_moreItems rest)) (by omega)
      exact readMoreItems_cons hitem (Phrase.readOff_of_succ hlater.length_pos (ihlater hrest) (by omega))
  | fields hfirst hlater ihfirst ihlater =>
      have hfirstPos := hfirst.length_pos
      have hlaterPos := hlater.length_pos
      rw [List.length_append] at hfuel
      rw [List.append_assoc]
      have hfield : (Phrase.field _ _).ReadOff fuel _ _ :=
        Phrase.readOff_of_succ hfirstPos (ihfirst (hlater.ends_moreFields rest)) (by omega)
      exact readFields_cons (hfirst.field_ne_brace _) hfield
        (Phrase.readOff_of_succ hlaterPos (ihlater hrest) (by omega))
  | nextField hfirst hlater ihfirst ihlater =>
      rw [List.cons_append, List.length_cons, List.length_append] at hfuel
      rw [List.cons_append, List.cons_append, List.append_assoc]
      have hfield : (Phrase.field _ _).ReadOff fuel _ _ :=
        Phrase.readOff_of_succ hfirst.length_pos (ihfirst (hlater.ends_moreFields rest)) (by omega)
      exact readMoreFields_cons hfield (Phrase.readOff_of_succ hlater.length_pos (ihlater hrest) (by omega))
  | field name hvalue ih =>
      rw [List.length_append, List.length_cons] at hfuel
      rw [List.append_assoc, List.cons_append]
      exact readField_quote name (Phrase.readOff_of_succ hvalue.length_pos (ih hrest) (by omega))

/-- A text that follows the grammar is the document it stands for, whatever blanks are around it. -/
theorem ofText?_of_spells {piece blanks : List Char} {document : Json} (h : Spells piece (.value document))
    (hblanks : ∀ c ∈ blanks, isBlank c = true) :
    ofText? (String.ofList (piece ++ blanks)) = some document := by
  have hfuel : piece.length ≤ 2 * (piece ++ blanks).length + 1 := by
    rw [List.length_append]
    omega
  have hread : readValue (2 * (piece ++ blanks).length + 1) (piece ++ blanks) = some (document, blanks) :=
    h.readOff_succ (ends_of_blanks hblanks) _ hfuel
  have htrim : trimBlanks blanks = [] := List.dropWhile_eq_nil_iff.mpr hblanks
  rw [ofText?, String.toList_ofList]
  dsimp only
  rw [hread]
  simp [htrim]

section Writing

theorem Spells.of_blanks {blanks piece : List Char} {phrase : Phrase}
    (hblanks : ∀ c ∈ blanks, isBlank c = true) (h : Spells piece phrase) :
    Spells (blanks ++ piece) phrase := by
  induction blanks with
  | nil => exact h
  | cons c blanks ih =>
      rw [List.forall_mem_cons] at hblanks
      exact .blank hblanks.1 (ih hblanks.2)

theorem isBlank_of_mem_newline {level : Nat} {c : Char} (h : c ∈ newline level) :
    isBlank c = true := by
  rw [newline, List.mem_cons, List.mem_replicate] at h
  rcases h with rfl | ⟨_, rfl⟩ <;> decide

/-- Documents all of whose numbers are whole. -/
inductive Whole : Json → Prop
  | null : Whole .null
  | bool (value : Bool) : Whole (.bool value)
  | integer (value : Int) : Whole (.integer value)
  | string (value : String) : Whole (.string value)
  | array {items : List Json} : (∀ item ∈ items, Whole item) → Whole (.array items)
  | object {fields : List (String × Json)} : (∀ field ∈ fields, Whole field.2) → Whole (.object fields)

variable {write : Json → List Char} {writeField : String × Json → List Char} {closing : List Char}

theorem spells_moreItems (hclosing : Spells closing (.moreItems [])) {items : List Json}
    (h : ∀ item ∈ items, Spells (write item) (.value item)) :
    Spells (items.flatMap (fun item => ',' :: write item) ++ closing) (.moreItems items) := by
  induction items with
  | nil => exact hclosing
  | cons item items ih =>
      rw [List.forall_mem_cons] at h
      rw [List.flatMap_cons, List.append_assoc]
      exact .nextItem h.1 (ih h.2)

theorem spells_moreFields (hclosing : Spells closing (.moreFields [])) {fields : List (String × Json)}
    (h : ∀ field ∈ fields, Spells (writeField field) (.field field.1 field.2)) :
    Spells (fields.flatMap (fun field => ',' :: writeField field) ++ closing) (.moreFields fields) := by
  induction fields with
  | nil => exact hclosing
  | cons field fields ih =>
      rw [List.forall_mem_cons] at h
      rw [List.flatMap_cons, List.append_assoc]
      exact .nextField h.1 (ih h.2)

theorem compactItems_cons (item : Json) (later : List Json) :
    compactItems (item :: later) = compact item ++ later.flatMap fun item => ',' :: compact item := by
  induction later generalizing item with
  | nil => simp [compactItems]
  | cons next later ih => simp [compactItems, ih]

def compactField (field : String × Json) : List Char :=
  quote field.1 ++ ':' :: compact field.2

theorem compactFields_cons (field : String × Json) (later : List (String × Json)) :
    compactFields (field :: later) =
      compactField field ++ later.flatMap fun field => ',' :: compactField field := by
  induction later generalizing field with
  | nil => simp [compactFields, compactField]
  | cons next later ih => simp [compactFields, compactField, ih]

def prettyItem (level : Nat) (item : Json) : List Char :=
  newline level ++ pretty level item

theorem prettyItems_cons (level : Nat) (item : Json) (later : List Json) :
    prettyItems level (item :: later) =
      prettyItem level item ++ later.flatMap fun item => ',' :: prettyItem level item := by
  induction later generalizing item with
  | nil => simp [prettyItems, prettyItem]
  | cons next later ih => simp [prettyItems, prettyItem, ih]

def prettyField (level : Nat) (field : String × Json) : List Char :=
  newline level ++ (quote field.1 ++ ':' :: ' ' :: pretty level field.2)

theorem prettyFields_cons (level : Nat) (field : String × Json) (later : List (String × Json)) :
    prettyFields level (field :: later) =
      prettyField level field ++ later.flatMap fun field => ',' :: prettyField level field := by
  induction later generalizing field with
  | nil => simp [prettyFields, prettyField]
  | cons next later ih => simp [prettyFields, prettyField, ih]

theorem Whole.spells_compact {document : Json} (h : Whole document) :
    Spells document.compact (.value document) := by
  induction h with
  | null => exact .null
  | bool value =>
      cases value with
      | true => exact .yes
      | false => exact .no
  | integer value => exact .integer value
  | string value => exact .string value
  | @array items _ ih =>
      rw [compact, List.append_assoc, List.singleton_append]
      apply Spells.array
      cases items with
      | nil => exact .noItems
      | cons item later =>
          rw [List.forall_mem_cons] at ih
          rw [compactItems_cons, List.append_assoc]
          exact .items ih.1 (spells_moreItems .lastItem ih.2)
  | @object fields _ ih =>
      have hfields : ∀ field ∈ fields, Spells (compactField field) (.field field.1 field.2) :=
        fun field hfield => .field field.1 (ih field hfield)
      rw [compact, List.append_assoc, List.singleton_append]
      apply Spells.object
      cases fields with
      | nil => exact .noFields
      | cons field later =>
          rw [List.forall_mem_cons] at hfields
          rw [compactFields_cons, List.append_assoc]
          exact .fields hfields.1 (spells_moreFields .lastField hfields.2)

theorem Whole.spells_pretty {document : Json} (h : Whole document) (level : Nat) :
    Spells (document.pretty level) (.value document) := by
  induction h generalizing level with
  | null => exact .null
  | bool value =>
      cases value with
      | true => exact .yes
      | false => exact .no
  | integer value => exact .integer value
  | string value => exact .string value
  | @array items _ ih =>
      have hitems : ∀ item ∈ items, Spells (prettyItem (level + 1) item) (.value item) :=
        fun item hitem => .of_blanks (fun c => isBlank_of_mem_newline) (ih item hitem _)
      have hclosing : Spells (newline level ++ [']']) (.moreItems []) :=
        .of_blanks (fun c => isBlank_of_mem_newline) .lastItem
      cases items with
      | nil => exact .array .noItems
      | cons item later =>
          rw [List.forall_mem_cons] at hitems
          rw [pretty, prettyItems_cons]
          · simp only [List.append_assoc, List.cons_append, List.nil_append]
            exact .array (.items hitems.1 (spells_moreItems hclosing hitems.2))
          · simp
  | @object fields _ ih =>
      have hfields : ∀ field ∈ fields,
          Spells (prettyField (level + 1) field) (.field field.1 field.2) :=
        fun field hfield => .of_blanks (fun c => isBlank_of_mem_newline)
          (.field field.1 (.blank (by decide) (ih field hfield _)))
      have hclosing : Spells (newline level ++ ['\x7d']) (.moreFields []) :=
        .of_blanks (fun c => isBlank_of_mem_newline) .lastField
      cases fields with
      | nil => exact .object .noFields
      | cons field later =>
          rw [List.forall_mem_cons] at hfields
          rw [pretty, prettyFields_cons]
          · simp only [List.append_assoc, List.cons_append, List.nil_append]
            exact .object (.fields hfields.1 (spells_moreFields hclosing hfields.2))
          · simp

/-- **What is written as JSON is read back.** -/
theorem ofText?_text {document : Json} (h : Whole document) : ofText? document.text = some document := by
  have hread := ofText?_of_spells h.spells_compact (List.forall_mem_nil _)
  rwa [List.append_nil] at hread

theorem ofText?_prettyText {document : Json} (h : Whole document) :
    ofText? document.prettyText = some document := by
  have hread := ofText?_of_spells (h.spells_pretty 0) (List.forall_mem_nil _)
  rwa [List.append_nil] at hread

end Writing

end Json

end MarkMachine
