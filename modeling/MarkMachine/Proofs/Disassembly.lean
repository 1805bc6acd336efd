import MarkMachine.Proofs.Walk

/-! Disassembly as the inverse of assembly. The instructions of a listing are those that were written, at
the places where their marks were put, and the spans of any walk follow each other without a gap from
the start of the program to where the walk stops. -/

namespace MarkMachine

/-- Spans that are not empty and follow each other without a gap from one cursor to another. -/
inductive Tiling : Nat → List Span → Nat → Prop
  | nil (cursor : Nat) : Tiling cursor [] cursor
  | cons {position next stop : Nat} {spans : List Span} (instruction : Instruction) :
      position < next → Tiling next spans stop → Tiling position (⟨position, instruction, next⟩ :: spans) stop

theorem Word.tiling_layout (position : Nat) (words : List Word) :
    Tiling position (Word.layout position words) (position + (Word.text words).length) := by
  induction words generalizing position with
  | nil => exact .nil position
  | cons word words ih =>
      have hpos := word.spelled.length_pos
      rw [Word.length_text_cons, ← Nat.add_assoc]
      exact .cons word.instruction (Nat.lt_add_of_pos_right hpos) (ih _)

theorem Listing.ofSpans_layout (position : Nat) (words : List Word) :
    Listing.ofSpans (Word.layout position words) = words.mapIdx fun index word =>
      ⟨position + ((words.take index).map fun word => word.marks.length).sum, word.instruction⟩ := by
  induction words generalizing position with
  | nil => rfl
  | cons word words ih =>
      rw [Word.layout, Listing.ofSpans, List.map_cons, List.mapIdx_cons]
      refine congrArg₂ List.cons rfl ((ih _).trans ?_)
      simp only [List.take_succ_cons, List.map_cons, List.sum_cons, Nat.add_assoc]

/-- Instructions without line marks in their labels can be written as words. -/
theorem Word.exists_of_lineFree {instructions : List Instruction}
    (h : ∀ instruction ∈ instructions, instruction.LineFree) :
    ∃ words : List Word, words.map Word.instruction = instructions ∧
      words.map Word.marks = instructions.map Instruction.encode := by
  refine ⟨instructions.pmap Word.ofInstruction h, ?_, ?_⟩
  · rw [List.map_pmap]
    exact (List.pmap_eq_map h).trans (List.map_id _)
  · rw [List.map_pmap]
    exact List.pmap_eq_map h

/-- The listing of a text is that of its words, whether or not there is padding behind it. -/
theorem Program.listing_text_padding (words : List Word) {tail : List Mark} (h : Walk.Padding tail) :
    Program.listing (Word.text words ++ tail) = .ok (Listing.ofSpans (Word.layout 0 words)) := by
  rw [Program.listing, Program.walk_text_padding words h]
  rfl

theorem Program.listing_encode {instructions : List Instruction}
    (h : ∀ instruction ∈ instructions, instruction.LineFree) {tail : List Mark} (htail : Walk.Padding tail) :
    Program.listing (instructions.flatMap Instruction.encode ++ tail) =
      .ok (instructions.mapIdx fun index instruction =>
        ⟨((instructions.take index).map fun instruction => instruction.encode.length).sum, instruction⟩) := by
  obtain ⟨words, rfl, hmarks⟩ := Word.exists_of_lineFree h
  have htext : (words.map Word.instruction).flatMap Instruction.encode = Word.text words := by
    rw [Word.text, List.flatMap_def, List.flatMap_def, ← hmarks]
  have hlengths : (words.map Word.instruction).map (fun instruction => instruction.encode.length) =
      words.map fun word => word.marks.length := by
    have hmap := congrArg (List.map List.length) hmarks
    rw [List.map_map, List.map_map] at hmap
    exact hmap.symm
  rw [htext, listing_text_padding words htail, Listing.ofSpans_layout]
  refine congrArg Except.ok (List.ext_getElem (by simp) fun index _ _ => ?_)
  simp only [List.getElem_mapIdx, List.getElem_map, Nat.zero_add, List.map_take, hlengths]

/-- A walk tiles the program from its start to where it stops, which is the end of the program or before
one last line mark, or the place where something cannot be read. -/
theorem Program.walk_tiling (program : Program) :
    ∃ stop, Tiling 0 program.walk.spans stop ∧
      (program.walk.ending = .ok stop ∧
          (stop = program.length ∨ stop + 1 = program.length ∧ program[stop]? = some .line) ∨
        program.walk.ending = .error (.malformed stop) ∨
        program.walk.ending = .error (.numberOverflow stop)) := by
  obtain ⟨words, rest, rfl, hrest⟩ := Walk.exists_words program
  rw [Program.walk_text_append hrest]
  refine ⟨(Word.text words).length, ?_, ?_⟩
  · have htiling := Word.tiling_layout 0 words
    rwa [Nat.zero_add] at htiling
  · by_cases hpadding : Walk.Padding rest
    · have hending : (Program.walk (Word.text words ++ rest)).ending = .ok (Word.text words).length := by
        rw [walk_text_padding words hpadding]
      exact .inl ⟨if_pos hpadding, stop_of_ending hending⟩
    · rw [Walk.endingAt, if_neg hpadding]
      split
      · exact .inr (.inr rfl)
      · exact .inr (.inl rfl)

/-- The programs that can be read to their end are the texts of words with at most one line mark behind
them. -/
theorem Program.ending_ok_iff (program : Program) :
    (∃ stop, program.walk.ending = .ok stop) ↔
      ∃ words : List Word, program = Word.text words ∨ program = Word.text words ++ [.line] := by
  constructor
  · rintro ⟨stop, hending⟩
    obtain ⟨words, tail, rfl, htail, _⟩ := exists_words_of_ending hending
    rcases htail with rfl | rfl
    · exact ⟨words, .inl (List.append_nil _)⟩
    · exact ⟨words, .inr rfl⟩
  · rintro ⟨words, rfl | rfl⟩
    · have hwalk := walk_text_padding words (.inl rfl)
      rw [List.append_nil] at hwalk
      exact ⟨_, congrArg Walk.ending hwalk⟩
    · exact ⟨_, congrArg Walk.ending (walk_text_padding words (.inr rfl))⟩

/-- **Walks read exactly the words, and listing undoes writing.** A program can be read to its end just if it is a
text of words with at most one line mark behind it. Instructions that are written one after the other are listed
again, each at the sum of the lengths before it. Any walk tiles the program up to its end, to that line mark, or
to the place of its fault. -/
theorem Program.listing_undoes_writing :
    (∀ program : Program, (∃ stop, program.walk.ending = .ok stop) ↔
      ∃ words : List Word, program = Word.text words ∨ program = Word.text words ++ [.line]) ∧
    (∀ instructions : List Instruction, (∀ instruction ∈ instructions, instruction.LineFree) →
      (∀ instruction ∈ instructions, instruction.SpelledBy instruction.encode) ∧
      ∀ tail : List Mark, tail = [] ∨ tail = [.line] →
        Program.listing (instructions.flatMap Instruction.encode ++ tail) =
          .ok (instructions.mapIdx fun index instruction =>
            ⟨((instructions.take index).map fun instruction => instruction.encode.length).sum,
              instruction⟩)) ∧
    ∀ program : Program, ∃ stop, Tiling 0 program.walk.spans stop ∧
      (program.walk.ending = .ok stop ∧
          (stop = program.length ∨ stop + 1 = program.length ∧ program[stop]? = some .line) ∨
        program.walk.ending = .error (.malformed stop) ∨
        program.walk.ending = .error (.numberOverflow stop)) := by
  refine ⟨ending_ok_iff, fun instructions h => ⟨fun instruction hmem => ?_, fun tail htail => ?_⟩,
    walk_tiling⟩
  · exact Instruction.spelledBy_encode (h instruction hmem)
  · exact listing_encode h htail

/-- A negative number, a label and an operator are listed back at 0, 7 and 12, before a line mark. -/
theorem Program.listing_undoes_writing_three :
    (∀ instruction ∈ [Instruction.push (-5), .jump [.tab], .arithmetic .mul], instruction.LineFree) ∧
      Program.listing [.space, .space, .tab, .tab, .space, .tab, .line, .line, .space, .line, .tab, .line,
          .tab, .space, .space, .line, .line] =
        .ok [⟨0, .push (-5)⟩, ⟨7, .jump [.tab]⟩, ⟨12, .arithmetic .mul⟩] := by
  have hfree : ∀ instruction ∈ [Instruction.push (-5), .jump [.tab], .arithmetic .mul],
      instruction.LineFree := by
    simp [Instruction.LineFree, Instruction.label?]
  have hlisting := (Program.listing_undoes_writing.2.1 _ hfree).2 [.line] (.inr rfl)
  exact ⟨hfree, hlisting⟩

end MarkMachine
