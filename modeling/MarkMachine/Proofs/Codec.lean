import MarkMachine.Json.Codec
import MarkMachine.Proofs.Decoding
import MarkMachine.Proofs.JsonText

/-! Recovery from JSON. A label is recovered from its shorthand just if it has no line mark, and so is the
instruction that mentions it; values are always recovered. No program can spell a label with a line mark,
so listings lose nothing when they are written as JSON. -/

namespace MarkMachine

namespace Mark

theorem ofLetter?_eq_some_iff {letter : Char} {mark : Mark} :
    ofLetter? letter = some mark ↔ mark.letter = letter := by
  constructor
  · intro h
    unfold ofLetter? at h
    split at h <;> cases h <;> rfl
  · rintro rfl
    exact ofLetter?_letter mark

theorem letter_injective : Function.Injective letter := by
  intro mark other h
  have hmark := ofLetter?_letter mark
  rw [h, ofLetter?_letter] at hmark
  exact (Option.some.inj hmark).symm

end Mark

namespace Label

theorem line_notMem_of_read {marks : List Mark} {label : Label} {width : Nat}
    (h : read marks = .found label width) : .line ∉ label := by
  obtain ⟨_, _, _, _, hline, _⟩ := (recognises_read _ _ _).mp h
  exact hline

theorem ofLetter_eq_ok_iff {letter : Char} {mark : Mark} :
    ofLetter letter = .ok mark ↔ mark ≠ .line ∧ mark.letter = letter := by
  rw [← Mark.ofLetter?_eq_some_iff, ofLetter]
  cases hmark : Mark.ofLetter? letter with
  | none => simp
  | some other => cases other <;> cases mark <;> simp

theorem ofChars_cons_eq_ok_iff {letter : Char} {rest : List Char} {label : Label} :
    ofChars (letter :: rest) = .ok label ↔
      ∃ mark later, label = mark :: later ∧ ofLetter letter = .ok mark ∧ ofChars rest = .ok later := by
  rw [ofChars]
  cases hletter : ofLetter letter with
  | error bad => simp [bind, Except.bind]
  | ok mark =>
      cases hrest : ofChars rest with
      | error bad => simp [bind, Except.bind]
      | ok later => simp [bind, Except.bind, pure, Except.pure, eq_comm]

/-- The texts that are labels are the shorthands of labels without line marks. -/
theorem ofChars_eq_ok_iff {text : List Char} {label : Label} :
    ofChars text = .ok label ↔ .line ∉ label ∧ label.map Mark.letter = text := by
  induction text generalizing label with
  | nil =>
      rw [ofChars, List.map_eq_nil_iff]
      constructor
      · rintro ⟨⟩
        exact ⟨List.not_mem_nil, rfl⟩
      · rintro ⟨_, rfl⟩
        rfl
  | cons letter rest ih =>
      rw [ofChars_cons_eq_ok_iff]
      constructor
      · rintro ⟨mark, later, rfl, hmark, hlater⟩
        obtain ⟨hline, rfl⟩ := ofLetter_eq_ok_iff.mp hmark
        obtain ⟨hfree, rfl⟩ := ih.mp hlater
        exact ⟨List.not_mem_cons_of_ne_of_not_mem hline.symm hfree, rfl⟩
      · rintro ⟨hline, htext⟩
        obtain ⟨mark, later, rfl, rfl, rfl⟩ := List.map_eq_cons_iff.mp htext
        have hmark : mark ≠ .line := (List.ne_of_not_mem_cons hline).symm
        have hlater : Mark.line ∉ later := List.not_mem_of_not_mem_cons hline
        exact ⟨mark, later, rfl, ofLetter_eq_ok_iff.mpr ⟨hmark, rfl⟩, ih.mpr ⟨hlater, rfl⟩⟩

theorem ofText_eq_ok_iff {text : String} {label : Label} :
    ofText text = .ok label ↔ .line ∉ label ∧ shorthand label = text := by
  rw [ofText, ofChars_eq_ok_iff, shorthand]
  refine and_congr_right fun _ => ⟨fun h => ?_, fun h => ?_⟩
  · rw [h, String.ofList_toList]
  · rw [← h, String.toList_ofList]

theorem exists_ofLetter_iff {letter : Char} :
    (∃ mark, ofLetter letter = .ok mark) ↔ letter ∈ ['S', 'T', 'E'] := by
  simp only [ofLetter_eq_ok_iff, List.mem_cons, List.not_mem_nil, or_false]
  constructor
  · rintro ⟨mark, hmark, rfl⟩
    cases mark <;> simp [Mark.letter] at hmark ⊢
  · rintro (rfl | rfl | rfl)
    · exact ⟨.space, by decide, rfl⟩
    · exact ⟨.tab, by decide, rfl⟩
    · exact ⟨.extra, by decide, rfl⟩

theorem exists_ofText_iff {text : String} :
    (∃ label, ofText text = .ok label) ↔ ∀ letter ∈ text.toList, letter ∈ ['S', 'T', 'E'] := by
  unfold ofText
  induction text.toList with
  | nil => exact ⟨fun _ => List.forall_mem_nil _, fun _ => ⟨[], rfl⟩⟩
  | cons letter rest ih =>
      rw [List.forall_mem_cons, ← ih, ← exists_ofLetter_iff]
      simp only [ofChars_cons_eq_ok_iff]
      constructor
      · rintro ⟨_, mark, later, rfl, hmark, hlater⟩
        exact ⟨⟨mark, hmark⟩, later, hlater⟩
      · rintro ⟨⟨mark, hmark⟩, later, hlater⟩
        exact ⟨_, mark, later, rfl, hmark, hlater⟩

theorem shorthand_injective : Function.Injective shorthand := by
  intro label other h
  exact List.map_injective_iff.mpr Mark.letter_injective (String.ofList_injective h)

/-- A label is recovered if it has no line mark, and refused if it has one. -/
theorem ofJson?_toJson (label : Label) :
    ofJson? label.toJson = if .line ∈ label then none else some label := by
  rw [toJson, ofJson?]
  split_ifs with hline
  · cases htext : ofText (shorthand label) with
    | error bad => rfl
    | ok other =>
        obtain ⟨hother, hshorthand⟩ := ofText_eq_ok_iff.mp htext
        rw [shorthand_injective hshorthand] at hother
        exact absurd hline hother
  · rw [ofText_eq_ok_iff.mpr ⟨hline, rfl⟩]
    rfl

end Label

namespace Json

theorem find?_first {name other : String} (h : other ≠ name) (value otherValue : Json) :
    find? name [(name, value), (other, otherValue)] = some value := by
  simp [find?, h]

theorem find?_second (name other : String) (value otherValue : Json) :
    find? name [(other, otherValue), (name, value)] = some value := by
  simp [find?]

theorem int64?_toInt (n : Int64) : int64? (.integer n.toInt) = some n := by
  have hlow : Int64.minValue.toInt ≤ n.toInt := Int64.minValue_le_toInt n
  have hhigh : n.toInt ≤ Int64.maxValue.toInt := Int64.toInt_le n
  rw [int64?, if_pos ⟨hlow, hhigh⟩, Int64.ofInt_toInt]

theorem position?_natCast {n : Nat} (h : n < UInt64.size) : position? (.integer n) = some n := by
  rw [position?, if_pos ⟨Int.natCast_nonneg n, Int.ofNat_lt.mpr h⟩, Int.toNat_natCast]

variable {α : Type}

/-- What a reader makes of a document, of its text on one line and of its text over many lines. -/
def ReadsAs (read : Json → Option α) (document : Json) (result : Option α) : Prop :=
  read document = result ∧ (ofText? document.text).bind read = result ∧
    (ofText? document.prettyText).bind read = result

theorem Whole.readsAs {read : Json → Option α} {document : Json} {result : Option α} (h : Whole document)
    (hread : read document = result) : ReadsAs read document result := by
  refine ⟨hread, ?_, ?_⟩
  · rw [ofText?_text h, Option.bind_some, hread]
  · rw [ofText?_prettyText h, Option.bind_some, hread]

end Json

namespace Instruction

instance (instruction : Instruction) : Decidable instruction.LineFree :=
  inferInstanceAs (Decidable (∀ label, instruction.label? = some label → .line ∉ label))

theorem whole_toJson (instruction : Instruction) : instruction.toJson.Whole := by
  refine .object (List.forall_mem_cons.mpr ⟨.string _, ?_⟩)
  cases instruction <;>
    simp [operandField?, label?, Label.toJson, Operator.toJson, Json.Whole.integer, Json.Whole.string]

/-- An instruction is recovered if its label has no line mark, and refused if it has one. -/
theorem ofJson?_toJson (instruction : Instruction) :
    ofJson? instruction.toJson = if instruction.LineFree then some instruction else none := by
  cases instruction with
  | push value =>
      simp [toJson, ofJson?, ofName?, name, operandField?, Json.find?, LineFree, label?, Json.int64?_toInt]
  | arithmetic operator =>
      have hoperator : Operator.ofOperand? operator.toJson = some operator := by
        cases operator <;> rfl
      simp [toJson, ofJson?, ofName?, name, operandField?, Json.find?, LineFree, label?, hoperator]
  | define label | call label | jump label | jumpIfZero label | jumpIfNegative label =>
      by_cases hline : .line ∈ label <;>
        simp [toJson, ofJson?, ofName?, name, operandField?, Json.find?, LineFree, label?,
          Label.ofJson?_toJson, hline]
  | _ => simp [toJson, ofJson?, ofName?, name, operandField?, Json.find?, LineFree, label?]

theorem Form.lineFree {instruction : Instruction} {piece : List Mark} (h : instruction.Form piece) :
    instruction.LineFree := by
  intro label hlabel
  cases h with
  | plain hrow =>
      simp only [Opcode.primary, List.mem_cons, Opcode.plain.injEq, reduceCtorEq, List.not_mem_nil,
        false_or, or_false] at hrow
      rcases hrow with ⟨_, rfl⟩ | ⟨_, rfl⟩ | ⟨_, rfl⟩ | ⟨_, rfl⟩ | ⟨_, rfl⟩ | ⟨_, rfl⟩ | ⟨_, rfl⟩ |
        ⟨_, rfl⟩ | ⟨_, rfl⟩ | ⟨_, rfl⟩ | ⟨_, rfl⟩ | ⟨_, rfl⟩ <;> cases hlabel
  | operator => cases hlabel
  | label _ hbuild hline =>
      rw [hbuild] at hlabel
      cases hlabel
      exact hline
  | number => cases hlabel

end Instruction

namespace Value

theorem whole_toJson (value : Value) : value.toJson.Whole := by
  cases value <;> exact .object (by simp [Json.Whole.integer, Json.Whole.string])

theorem ofJson?_toJson (value : Value) : ofJson? value.toJson = some value := by
  cases value with
  | unset => rfl
  | integer n => simp [toJson, ofJson?, ofContent?, Json.find?, Json.choice?, Json.int64?_toInt]
  | character c => simp [toJson, ofJson?, ofContent?, Json.find?, Json.choice?, Json.char?]

end Value

namespace Entry

theorem ofJson?_object (position instruction : Json) :
    ofJson? (.object [("position", position), ("instruction", instruction)]) =
      position.position?.bind fun cursor =>
        (Instruction.ofJson? instruction).bind fun command => some ⟨cursor, command⟩ := by
  have hposition := Json.find?_first (show "instruction" ≠ "position" by decide) position instruction
  have hinstruction := Json.find?_second "instruction" "position" instruction position
  rw [ofJson?, hposition, hinstruction]
  rfl

theorem ofJson?_toJson {entry : Entry} (hposition : entry.position < UInt64.size)
    (hfree : entry.instruction.LineFree) : ofJson? entry.toJson = some entry := by
  rw [toJson, ofJson?_object, Json.position?_natCast hposition, Instruction.ofJson?_toJson, if_pos hfree]
  rfl

end Entry

namespace Listing

theorem whole_toJson (listing : Listing) : listing.toJson.Whole := by
  refine .array (List.forall_mem_map.mpr fun entry _ => .object ?_)
  simp [Json.Whole.integer, Instruction.whole_toJson]

theorem ofJson?_toJson {listing : Listing}
    (h : ∀ entry ∈ listing, entry.position < UInt64.size ∧ entry.instruction.LineFree) :
    ofJson? listing.toJson = some listing := by
  rw [toJson, ofJson?]
  induction listing with
  | nil => rfl
  | cons entry listing ih =>
      rw [List.forall_mem_cons] at h
      simp [Entry.ofJson?_toJson h.1.1 h.1.2, ih h.2]

/-- What stands in the listing of a program: labels without line marks, at places within the program. -/
theorem of_program {program : Program} {listing : Listing} (h : program.listing = .ok listing) :
    ∀ entry ∈ listing, entry.position < program.length ∧ entry.instruction.LineFree := by
  rw [Program.listing] at h
  cases hending : program.walk.ending with
  | error fault =>
      rw [hending] at h
      cases h
  | ok stop =>
      obtain ⟨words, tail, rfl, _, hspans, _⟩ := Program.exists_words_of_ending hending
      rw [hending, hspans] at h
      cases h
      refine List.forall_mem_map.mpr fun span hspan => ?_
      obtain ⟨before, word, after, rfl, rfl⟩ := Word.mem_layout_iff.mp hspan
      have hpos := word.spelled.length_pos
      refine ⟨?_, (Instruction.spelledBy_iff_form.mp word.spelled).lineFree⟩
      rw [Word.text_append, Word.text_cons]
      simp only [List.length_append]
      omega

end Listing

/-- **Listings lose nothing as JSON.** The listing of a program with no more marks than 64 bits can number is
recovered from the document and from either of its texts. The reasons: labels that are read have no line mark, an
instruction is recovered just if its label has none, every value is recovered, and the texts that are labels are
those over three letters. -/
theorem Listing.recovered_from_json :
    (∀ (program : Program) (listing : Listing), program.length ≤ UInt64.size →
      program.listing = .ok listing → listing.toJson.ReadsAs Listing.ofJson? (some listing)) ∧
    (∀ (marks : List Mark) (label : Label) (width : Nat),
      Label.read marks = .found label width → .line ∉ label) ∧
    (∀ instruction : Instruction, instruction.toJson.ReadsAs Instruction.ofJson?
      (if instruction.LineFree then some instruction else none)) ∧
    (∀ value : Value, value.toJson.ReadsAs Value.ofJson? (some value)) ∧
    (∀ text : String,
      ((∃ label, Label.ofText text = .ok label) ↔ ∀ letter ∈ text.toList, letter ∈ ['S', 'T', 'E']) ∧
      ∀ label, Label.ofText text = .ok label → shorthand label = text) := by
  refine ⟨fun program listing hlength hlisting => ?_, fun _ _ _ => Label.line_notMem_of_read,
    fun instruction => ?_, fun value => ?_, fun text => ⟨Label.exists_ofText_iff, fun label hlabel => ?_⟩⟩
  · have hentries := Listing.of_program hlisting
    refine listing.whole_toJson.readsAs (Listing.ofJson?_toJson fun entry hentry => ?_)
    exact ⟨Nat.lt_of_lt_of_le (hentries entry hentry).1 hlength, (hentries entry hentry).2⟩
  · exact instruction.whole_toJson.readsAs instruction.ofJson?_toJson
  · exact value.whole_toJson.readsAs value.ofJson?_toJson
  · exact (Label.ofText_eq_ok_iff.mp hlabel).2

/-- A negative number, a label and an operator are recovered, a jump to a line mark is not. -/
theorem Listing.recovered_from_json_three :
    let program : Program := [.space, .space, .tab, .tab, .tab, .tab, .line, .line, .tab, .space, .tab, .extra,
      .line, .tab, .space, .space, .tab]
    let listing : Listing := [⟨0, .push (-7)⟩, ⟨7, .jumpIfZero [.tab, .extra]⟩, ⟨13, .arithmetic .sub⟩]
    program.listing = .ok listing ∧ (Json.ofText? listing.toJson.text).bind Listing.ofJson? = some listing ∧
      Instruction.ofJson? (Instruction.jump [.line]).toJson = none := by
  have hlisting : Program.listing [.space, .space, .tab, .tab, .tab, .tab, .line, .line, .tab, .space, .tab,
      .extra, .line, .tab, .space, .space, .tab] =
        .ok [⟨0, .push (-7)⟩, ⟨7, .jumpIfZero [.tab, .extra]⟩, ⟨13, .arithmetic .sub⟩] := by
    decide
  have hjump : ¬(Instruction.jump [.line]).LineFree := by
    decide
  refine ⟨hlisting, (Listing.recovered_from_json.1 _ _ (by decide) hlisting).2.1, ?_⟩
  have hread := (Listing.recovered_from_json.2.2.1 (.jump [.line])).1
  rwa [if_neg hjump] at hread

end MarkMachine
