import MarkMachine.Listing
import MarkMachine.Proofs.Grammar

/-! Walks and the words of a program. Every list of marks is a text of words, which are instructions with
the marks that spell them, followed by something at which no instruction can be read; a walk lays the
words out and ends with what it makes of the rest. So the programs that can be read to their end are
the texts of words, with at most one line mark behind them, and a listing gives back what was
written. -/

namespace MarkMachine

/-- An instruction and marks that spell it. -/
structure Word where
  instruction : Instruction
  marks : List Mark
  spelled : instruction.SpelledBy marks

namespace Word

def text (words : List Word) : List Mark :=
  words.flatMap Word.marks

def layout (position : Nat) : List Word → List Span
  | [] => []
  | word :: rest =>
      ⟨position, word.instruction, position + word.marks.length⟩ ::
        layout (position + word.marks.length) rest

theorem text_cons (word : Word) (words : List Word) : text (word :: words) = word.marks ++ text words :=
  List.flatMap_cons

theorem text_append (first second : List Word) : text (first ++ second) = text first ++ text second :=
  List.flatMap_append

theorem length_text_cons (word : Word) (words : List Word) :
    (text (word :: words)).length = word.marks.length + (text words).length := by
  rw [text_cons, List.length_append]

theorem layout_append (position : Nat) (first second : List Word) :
    layout position (first ++ second) =
      layout position first ++ layout (position + (text first).length) second := by
  induction first generalizing position with
  | nil => rfl
  | cons word first ih =>
      rw [List.cons_append, layout, ih, layout, List.cons_append, length_text_cons, Nat.add_assoc]

theorem map_instruction_layout (position : Nat) (words : List Word) :
    (layout position words).map Span.instruction = words.map Word.instruction := by
  induction words generalizing position with
  | nil => rfl
  | cons word words ih => rw [layout, List.map_cons, ih, List.map_cons]

/-- Each span of a layout is that of a word, behind the words before it. -/
theorem mem_layout_iff {position : Nat} {words : List Word} {span : Span} :
    span ∈ layout position words ↔ ∃ before word after, words = before ++ word :: after ∧
      span = ⟨position + (text before).length, word.instruction,
        position + (text before).length + word.marks.length⟩ := by
  constructor
  · intro hspan
    induction words generalizing position with
    | nil => exact absurd hspan List.not_mem_nil
    | cons word words ih =>
        rcases List.mem_cons.mp hspan with rfl | hrest
        · exact ⟨[], word, words, rfl, rfl⟩
        · obtain ⟨before, other, after, rfl, rfl⟩ := ih hrest
          refine ⟨word :: before, other, after, rfl, ?_⟩
          rw [length_text_cons, Nat.add_assoc position]
  · rintro ⟨before, word, after, rfl, rfl⟩
    rw [layout_append]
    exact List.mem_append_right _ List.mem_cons_self

def ofInstruction (instruction : Instruction) (h : instruction.LineFree) : Word :=
  ⟨instruction, instruction.encode, Instruction.spelledBy_encode h⟩

end Word

namespace Walk

theorem ofMarks_skip (position : Nat) {skip : Nat} {marks : List Mark} (h : skip ≤ marks.length) :
    ofMarks position skip marks = ofMarks (position + skip) 0 (marks.drop skip) := by
  induction marks generalizing position skip with
  | nil =>
      obtain rfl : skip = 0 := Nat.le_zero.mp h
      rfl
  | cons mark marks ih =>
      cases skip with
      | zero => rfl
      | succ skip =>
          rw [ofMarks, ih (position + 1) (Nat.le_of_succ_le_succ h), List.drop_succ_cons]
          congr 1
          omega

theorem ofMarks_word (position : Nat) (word : Word) (rest : List Mark) :
    ofMarks position 0 (word.marks ++ rest) =
      cons ⟨position, word.instruction, position + word.marks.length⟩
        (ofMarks (position + word.marks.length) 0 rest) := by
  have hdecode := word.spelled.decode_append rest
  have hpos := word.spelled.length_pos
  cases hmarks : word.marks with
  | nil =>
      rw [hmarks] at hpos
      exact absurd hpos (Nat.lt_irrefl 0)
  | cons mark marks =>
      rw [hmarks, List.cons_append] at hdecode
      rw [List.cons_append, ofMarks, hdecode]
      simp only [List.length_cons, Nat.add_sub_cancel]
      rw [ofMarks_skip _ (by rw [List.length_append]; omega), List.drop_left]
      congr 2
      omega

/-- A walk lays out the words in front of it and goes on behind them. -/
theorem ofMarks_text (position : Nat) (words : List Word) (rest : List Mark) :
    ofMarks position 0 (Word.text words ++ rest) =
      ⟨Word.layout position words ++ (ofMarks (position + (Word.text words).length) 0 rest).spans,
        (ofMarks (position + (Word.text words).length) 0 rest).ending⟩ := by
  induction words generalizing position with
  | nil => rfl
  | cons word words ih =>
      rw [Word.text_cons, List.append_assoc, ofMarks_word, ih, List.length_append, ← Nat.add_assoc]
      rfl

/-- No instruction can be read at the front of these marks. -/
def Unreadable (marks : List Mark) : Prop :=
  ∀ instruction width, Instruction.decode marks ≠ .found instruction width

/-- What may be left of a program that has been read to its end. -/
def Padding (rest : List Mark) : Prop :=
  rest = [] ∨ rest = [.line]

instance (rest : List Mark) : Decidable (Padding rest) :=
  inferInstanceAs (Decidable (_ ∨ _))

theorem Padding.unreadable {rest : List Mark} (h : Padding rest) : Unreadable rest := by
  intro instruction width hdecode
  rcases h with rfl | rfl
  · rw [Instruction.decode_nil] at hdecode
    cases hdecode
  · rw [Instruction.decode_line] at hdecode
    cases hdecode

/-- How a walk ends at a cursor where no instruction can be read. -/
def endingAt (position : Nat) (rest : List Mark) : Except Fault Nat :=
  if Padding rest then .ok position
  else
    match Instruction.decode rest with
    | .overflow => .error (.numberOverflow position)
    | _ => .error (.malformed position)

theorem ofMarks_unreadable (position : Nat) {rest : List Mark} (h : Unreadable rest) :
    ofMarks position 0 rest = ⟨[], endingAt position rest⟩ := by
  cases rest with
  | nil => rfl
  | cons mark rest =>
      have hpadding : Padding (mark :: rest) ↔ mark :: rest = [.line] := by simp [Padding]
      rw [ofMarks, endingAt]
      cases hdecode : Instruction.decode (mark :: rest) with
      | found instruction width => exact absurd hdecode (h instruction width)
      | missing =>
          simp only [hpadding]
          split_ifs <;> rfl
      | overflow =>
          have hline : mark :: rest ≠ [.line] := by
            intro hline
            rw [hline, Instruction.decode_line] at hdecode
            cases hdecode
          simp [hpadding, hline]

/-- Any marks are a text of words and something unreadable behind it. -/
theorem exists_words (marks : List Mark) :
    ∃ words rest, marks = Word.text words ++ rest ∧ Unreadable rest := by
  induction hlength : marks.length using Nat.strongRecOn generalizing marks with
  | ind length ih =>
      cases hdecode : Instruction.decode marks with
      | found instruction width =>
          obtain ⟨piece, rest, rfl, rfl, hspelled⟩ := (Instruction.recognises_decode _ _ _).mp hdecode
          have hshorter : rest.length < length := by
            have hpos := hspelled.length_pos
            rw [← hlength, List.length_append]
            omega
          obtain ⟨words, last, rfl, hlast⟩ := ih rest.length hshorter rest rfl
          exact ⟨⟨instruction, piece, hspelled⟩ :: words, last, by
            rw [Word.text_cons, List.append_assoc], hlast⟩
      | missing => exact ⟨[], marks, rfl, fun _ _ h => by rw [hdecode] at h; cases h⟩
      | overflow => exact ⟨[], marks, rfl, fun _ _ h => by rw [hdecode] at h; cases h⟩

end Walk

namespace Program

/-- The walk of a program lays out the words in front of its unreadable rest. -/
theorem walk_text_append {words : List Word} {rest : List Mark} (h : Walk.Unreadable rest) :
    Program.walk (Word.text words ++ rest) =
      ⟨Word.layout 0 words, Walk.endingAt (Word.text words).length rest⟩ := by
  rw [Program.walk, Walk.ofMarks_text, Walk.ofMarks_unreadable _ h, List.append_nil, Nat.zero_add]

theorem walk_text_padding (words : List Word) {tail : List Mark} (h : Walk.Padding tail) :
    Program.walk (Word.text words ++ tail) = ⟨Word.layout 0 words, .ok (Word.text words).length⟩ := by
  rw [walk_text_append h.unreadable, Walk.endingAt, if_pos h]

/-- A program that can be read to its end is a text of words with padding behind it. -/
theorem exists_words_of_ending {program : Program} {stop : Nat} (h : program.walk.ending = .ok stop) :
    ∃ words tail, program = Word.text words ++ tail ∧ Walk.Padding tail ∧
      program.walk.spans = Word.layout 0 words ∧ stop = (Word.text words).length := by
  obtain ⟨words, rest, rfl, hrest⟩ := Walk.exists_words program
  rw [walk_text_append hrest] at h ⊢
  refine ⟨words, rest, rfl, ?_⟩
  unfold Walk.endingAt at h
  split_ifs at h with hpadding
  · exact ⟨hpadding, rfl, (Except.ok.inj h).symm⟩
  · split at h <;> cases h

theorem padding_of_ending {program : Program} {stop : Nat} (h : program.walk.ending = .ok stop) :
    Walk.Padding (program.drop stop) ∧ stop ≤ program.length := by
  obtain ⟨words, tail, rfl, htail, _, rfl⟩ := exists_words_of_ending h
  refine ⟨by rwa [List.drop_left], ?_⟩
  rw [List.length_append]
  omega

/-- A program that can be read to its end is read up to its end or before a last line mark. -/
theorem stop_of_ending {program : Program} {stop : Nat} (h : program.walk.ending = .ok stop) :
    stop = program.length ∨ stop + 1 = program.length ∧ program[stop]? = some .line := by
  obtain ⟨hpadding, hle⟩ := padding_of_ending h
  have hlength := List.length_drop (i := stop) (l := program)
  rcases hpadding with hnil | hline
  · rw [hnil, List.length_nil] at hlength
    exact .inl (by omega)
  · rw [hline, List.length_singleton] at hlength
    refine .inr ⟨by omega, ?_⟩
    rw [← List.head?_drop, hline]
    rfl

end Program

end MarkMachine
