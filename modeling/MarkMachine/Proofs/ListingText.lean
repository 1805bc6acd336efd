import Mathlib.Data.List.Nodup
import MarkMachine.Proofs.Codec
import MarkMachine.Proofs.Decimal

/-! Listings as text. The line of an entry is blanks, digits, two blanks, a word and perhaps one more blank with
an operand behind it. Each of these parts goes on up to a character that cannot belong to it, however long it
is, so a line can be parted in one way only. A number operand begins with a digit or a minus sign and a label
operand with neither, so an operand shows of what kind it is, and with the operand known the word decides for
one instruction. No line has a line break but the one at its end. -/

namespace MarkMachine

/-! ### Characters of a kind -/

theorem takeWhile_append_of_head? {p : Char → Bool} {front back : List Char} (hfront : ∀ c ∈ front, p c = true)
    (hback : ∀ c ∈ back.head?, p c = false) : (front ++ back).takeWhile p = front := by
  rw [List.takeWhile_append_of_pos hfront]
  cases back with
  | nil => rw [List.takeWhile_nil, List.append_nil]
  | cons c back =>
      have hc : ¬p c = true := by simp [hback c rfl]
      rw [List.takeWhile_cons_of_neg hc, List.append_nil]

/-- A text can be parted in one way only into characters of a kind and others behind them. -/
theorem append_inj_of_head? {p : Char → Bool} {front front' back back' : List Char}
    (hfront : ∀ c ∈ front, p c = true) (hback : ∀ c ∈ back.head?, p c = false)
    (hfront' : ∀ c ∈ front', p c = true) (hback' : ∀ c ∈ back'.head?, p c = false)
    (h : front ++ back = front' ++ back') : front = front' ∧ back = back' := by
  have hfronts : front = front' := by
    calc front = (front ++ back).takeWhile p := (takeWhile_append_of_head? hfront hback).symm
      _ = (front' ++ back').takeWhile p := by rw [h]
      _ = front' := takeWhile_append_of_head? hfront' hback'
  rw [hfronts] at h
  exact ⟨hfronts, List.append_cancel_left h⟩

/-! ### Numbers and labels -/

namespace Decimal

theorem digits_injective : Function.Injective digits := by
  intro n m h
  rw [← worth_digits n, h, worth_digits m]

/-- Digits end at the next blank. -/
theorem digits_append_inj {n m : Nat} {rest rest' : List Char}
    (h : digits n ++ ' ' :: rest = digits m ++ ' ' :: rest') : n = m ∧ rest = rest' := by
  have hblank (rest : List Char) : ∀ c ∈ (' ' :: rest).head?, c.isDigit = false := by
    intro c hc
    cases hc
    rfl
  obtain ⟨hdigits, hrest⟩ :=
    append_inj_of_head? (digits_digits n).2 (hblank rest) (digits_digits m).2 (hblank rest') h
  exact ⟨digits_injective hdigits, List.tail_eq_of_cons_eq hrest⟩

/-- Blanks in front of digits end at the first digit. -/
theorem leftpad_digits_append_inj {columns n m : Nat} {rest rest' : List Char}
    (h : (digits n).leftpad columns ' ' ++ ' ' :: rest = (digits m).leftpad columns ' ' ++ ' ' :: rest') :
    n = m ∧ rest = rest' := by
  have hpad (count : Nat) : ∀ c ∈ List.replicate count ' ', (c == ' ') = true := by
    intro c hc
    rw [List.eq_of_mem_replicate hc]
    rfl
  have hdigit (n : Nat) (rest : List Char) : ∀ c ∈ (digits n ++ rest).head?, (c == ' ') = false := by
    intro c hc
    rw [List.head?_append_of_ne_nil _ (digits_digits n).1] at hc
    have hdigit := (digits_digits n).2 c (List.mem_of_mem_head? hc)
    rw [beq_eq_false_iff_ne]
    intro hblank
    rw [hblank] at hdigit
    cases hdigit
  unfold List.leftpad at h
  rw [List.append_assoc, List.append_assoc] at h
  obtain ⟨-, hnumbers⟩ := append_inj_of_head? (hpad _) (hdigit n _) (hpad _) (hdigit m _) h
  exact digits_append_inj hnumbers

theorem chars_toInt_injective : Function.Injective fun n : Int64 => chars n.toInt := by
  intro n m h
  have hn : read (chars n.toInt) = .ok n := read_of_spells (spells_chars n.toInt) rfl
  have hm : read (chars m.toInt) = .ok m := read_of_spells (spells_chars m.toInt) rfl
  apply Except.ok.inj
  calc .ok n = read (chars n.toInt) := hn.symm
    _ = read (chars m.toInt) := congrArg read h
    _ = .ok m := hm

end Decimal

namespace Label

/-- The characters that stand in the texts of labels. -/
def alphabet : List Char := ['<', 'e', 'm', 'p', 't', 'y', '>', 'S', 'T', 'L', 'E']

theorem mem_alphabet_of_mem_text {label : Label} {c : Char} (h : c ∈ label.text.toList) : c ∈ alphabet := by
  unfold text at h
  split_ifs at h
  · exact List.mem_append_left ['S', 'T', 'L', 'E'] h
  · rw [shorthand, String.toList_ofList, List.mem_map] at h
    obtain ⟨mark, -, rfl⟩ := h
    cases mark <;> decide

theorem text_eq_empty_iff {label : Label} : label.text = "<empty>" ↔ label = [] := by
  cases label with
  | nil => exact ⟨fun _ => rfl, fun _ => rfl⟩
  | cons mark label =>
      have hletter : mark.letter ≠ '<' := by cases mark <;> decide
      constructor
      · intro h
        have hhead := congrArg (fun text => text.toList.head?) h
        rw [text, if_neg (List.cons_ne_nil mark label), shorthand, String.toList_ofList] at hhead
        exact absurd (Option.some.inj hhead) hletter
      · intro h
        exact absurd h (List.cons_ne_nil mark label)

theorem text_injective : Function.Injective text := by
  intro label other h
  by_cases hlabel : label = []
  · have hother := text_eq_empty_iff.mp (h.symm.trans (text_eq_empty_iff.mpr hlabel))
    rw [hlabel, hother]
  · by_cases hother : other = []
    · exact absurd (text_eq_empty_iff.mp (h.trans (text_eq_empty_iff.mpr hother))) hlabel
    · unfold text at h
      rw [if_neg hlabel, if_neg hother] at h
      exact shorthand_injective h

end Label

/-! ### Operands -/

namespace Operand

/-- An operand as it is listed behind the word for an instruction. -/
def text : Operand → List Char
  | .none => []
  | .number value => ' ' :: Decimal.chars value.toInt
  | .label name => ' ' :: name.text.toList

/-- Numbers and labels have no characters in common. -/
theorem chars_ne_text (n : Int) (name : Label) : Decimal.chars n ≠ name.text.toList := by
  intro h
  have hspells := Decimal.spells_chars n
  obtain ⟨c, rest, hchars⟩ := List.exists_cons_of_ne_nil hspells.ne_nil
  have hc : c ∈ Decimal.chars n := by
    rw [hchars]
    exact List.mem_cons_self
  have hkind := hspells.isDigit_or_sign hc
  rw [h] at hc
  have hapart : ∀ c ∈ Label.alphabet, ¬(c.isDigit = true ∨ c = '+' ∨ c = '-') := by
    simp [Label.alphabet]
  exact hapart c (Label.mem_alphabet_of_mem_text hc) hkind

theorem text_injective : Function.Injective text := by
  intro operand other h
  cases operand with
  | none =>
      cases other with
      | none => rfl
      | number value => cases h
      | label name => cases h
  | number value =>
      cases other with
      | none => cases h
      | number value' =>
          have hchars := List.tail_eq_of_cons_eq h
          rw [Decimal.chars_toInt_injective hchars]
      | label name => exact absurd (List.tail_eq_of_cons_eq h) (chars_ne_text value.toInt name)
  | label name =>
      cases other with
      | none => cases h
      | number value => exact absurd (List.tail_eq_of_cons_eq h).symm (chars_ne_text value.toInt name)
      | label name' =>
          have htext := String.toList_inj.mp (List.tail_eq_of_cons_eq h)
          rw [Label.text_injective htext]

theorem head?_text (operand : Operand) : ∀ c ∈ operand.text.head?, c = ' ' := by
  intro c hc
  cases operand with
  | none => cases hc
  | number value =>
      cases hc
      rfl
  | label name =>
      cases hc
      rfl

theorem break_notMem_text (operand : Operand) : '\n' ∉ operand.text := by
  intro hmem
  cases operand with
  | none => cases hmem
  | number value =>
      have hchars := (List.mem_cons.mp hmem).resolve_left (by decide)
      exact absurd ((Decimal.spells_chars _).isDigit_or_sign hchars) (by decide)
  | label name =>
      have htext := (List.mem_cons.mp hmem).resolve_left (by decide)
      exact absurd (Label.mem_alphabet_of_mem_text htext) (by decide)

def instructions : Operand → List Instruction
  | .none =>
      [.duplicate, .swap, .discard, .arithmetic .add, .arithmetic .sub, .arithmetic .mul, .arithmetic .div,
        .arithmetic .mod, .store, .load, .ret, .stop, .outputChar, .outputNumber, .inputChar, .inputNumber,
        .debugPrint]
  | .number value => [.push value]
  | .label name => [.define name, .call name, .jump name, .jumpIfZero name, .jumpIfNegative name]

/-- Instructions with the same operand have different words. -/
theorem nodup_mnemonics (operand : Operand) : (operand.instructions.map Instruction.mnemonic).Nodup := by
  cases operand with
  | none => decide
  | number value => exact List.nodup_singleton _
  | label name =>
      simp only [instructions, List.map_cons, List.map_nil, Instruction.mnemonic]
      decide

end Operand

/-! ### Instructions -/

namespace Instruction

def operand : Instruction → Operand
  | .push value => .number value
  | .define label => .label label
  | .call label => .label label
  | .jump label => .label label
  | .jumpIfZero label => .label label
  | .jumpIfNegative label => .label label
  | _ => .none

theorem mem_instructions_operand (instruction : Instruction) :
    instruction ∈ instruction.operand.instructions := by
  cases instruction with
  | arithmetic operator => cases operator <;> simp [operand, Operand.instructions]
  | _ => simp [operand, Operand.instructions]

theorem eq_of_mnemonic_of_operand {instruction other : Instruction}
    (hmnemonic : instruction.mnemonic = other.mnemonic) (hoperand : instruction.operand = other.operand) :
    instruction = other := by
  have hmem := other.mem_instructions_operand
  rw [← hoperand] at hmem
  exact List.inj_on_of_nodup_map instruction.operand.nodup_mnemonics instruction.mem_instructions_operand hmem
    hmnemonic

theorem toList_text (instruction : Instruction) :
    instruction.text.toList = instruction.mnemonic.toList ++ instruction.operand.text := by
  cases instruction <;> simp [text, label?, mnemonic, operand, Operand.text, Decimal.text]

theorem isLower_of_mem_mnemonic (instruction : Instruction) :
    ∀ c ∈ instruction.mnemonic.toList, c.isLower = true := by
  cases instruction with
  | arithmetic operator => cases operator <;> exact List.all_eq_true.mp rfl
  | _ =>
      simp only [mnemonic]
      exact List.all_eq_true.mp rfl

/-- Different instructions have different texts. -/
theorem text_injective : Function.Injective text := by
  intro instruction other h
  have hblank (operand : Operand) : ∀ c ∈ operand.text.head?, c.isLower = false := by
    intro c hc
    rw [operand.head?_text c hc]
    rfl
  have htext := congrArg String.toList h
  rw [toList_text, toList_text] at htext
  obtain ⟨hmnemonic, hoperand⟩ := append_inj_of_head? instruction.isLower_of_mem_mnemonic (hblank _)
    other.isLower_of_mem_mnemonic (hblank _) htext
  exact eq_of_mnemonic_of_operand (String.toList_inj.mp hmnemonic) (Operand.text_injective hoperand)

theorem break_notMem_text (instruction : Instruction) : '\n' ∉ instruction.text.toList := by
  rw [toList_text, List.mem_append, not_or]
  refine ⟨fun hmnemonic => ?_, instruction.operand.break_notMem_text⟩
  exact absurd (instruction.isLower_of_mem_mnemonic _ hmnemonic) (by decide)

end Instruction

/-! ### Entries and listings -/

namespace Entry

/-- The line of an entry without the line break. -/
def body (entry : Entry) : List Char :=
  (Decimal.digits entry.position).leftpad positionColumns ' ' ++ [' ', ' '] ++ entry.instruction.text.toList

theorem line_eq (entry : Entry) : entry.line = entry.body ++ ['\n'] := rfl

theorem body_eq (entry : Entry) :
    entry.body = (Decimal.digits entry.position).leftpad positionColumns ' ' ++
      ' ' :: ' ' :: entry.instruction.text.toList := by
  simp [body]

theorem break_notMem_body (entry : Entry) : '\n' ∉ entry.body := by
  rw [body_eq]
  simp only [List.leftpad, List.mem_append, List.mem_replicate, List.mem_cons, not_or]
  refine ⟨⟨fun hpad => ?_, fun hdigit => ?_⟩, by decide, by decide, entry.instruction.break_notMem_text⟩
  · exact absurd hpad.2 (by decide)
  · exact absurd ((Decimal.digits_digits _).2 _ hdigit) (by decide)

/-- Different entries have different lines, whether or not the position fits in its columns. -/
theorem body_injective : Function.Injective body := by
  intro entry other h
  rw [body_eq, body_eq] at h
  obtain ⟨hposition, htexts⟩ := Decimal.leftpad_digits_append_inj h
  have htext : entry.instruction.text = other.instruction.text :=
    String.toList_inj.mp (List.tail_eq_of_cons_eq htexts)
  have hinstruction := Instruction.text_injective htext
  cases entry
  cases other
  simp only [Entry.mk.injEq]
  exact ⟨hposition, hinstruction⟩

end Entry

namespace Listing

/-- Cut at its line breaks, the text of a listing falls into the lines of its entries, with nothing behind the
last. -/
theorem splitOn_text (listing : Listing) :
    listing.text.toList.splitOn '\n' = listing.map Entry.body ++ [[]] := by
  rw [text, String.toList_ofList]
  induction listing with
  | nil => rfl
  | cons entry listing ih =>
      rw [List.flatMap_cons, Entry.line_eq, List.append_assoc, List.singleton_append,
        List.splitOn_append_cons_self_of_not_mem entry.break_notMem_body, ih, List.map_cons, List.cons_append]

theorem text_injective : Function.Injective text := by
  intro listing other h
  have hlines : listing.map Entry.body ++ [[]] = other.map Entry.body ++ [[]] := by
    rw [← splitOn_text, ← splitOn_text, h]
  exact List.map_injective_iff.mpr Entry.body_injective (List.append_cancel_right hlines)

/-- **The text of a listing is unambiguous.** Different listings have different texts, and this holds for all
listings, those of programs among them. Different instructions have different texts, and so have different
labels; the word for the empty label is the text of no other. Cut at its line breaks, a text falls into one
line for each entry, in order, with nothing behind the last line break. -/
theorem text_unambiguous :
    (∀ listing other : Listing, listing.text = other.text ↔ listing = other) ∧
    (∀ instruction other : Instruction, instruction.text = other.text ↔ instruction = other) ∧
    (∀ label other : Label, label.text = other.text ↔ label = other) ∧
    (∀ label : Label, label.text = "<empty>" ↔ label = []) ∧
    ∀ listing : Listing, listing.text.toList.splitOn '\n' = listing.map Entry.body ++ [[]] := by
  refine ⟨fun listing other => ?_, fun instruction other => ?_, fun label other => ?_,
    fun label => Label.text_eq_empty_iff, splitOn_text⟩
  · exact text_injective.eq_iff
  · exact Instruction.text_injective.eq_iff
  · exact Label.text_injective.eq_iff

end Listing

end MarkMachine
