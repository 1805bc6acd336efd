import Mathlib.Data.List.Forall2
import Mathlib.Data.Set.Operations
import MarkMachine.Proofs.Disassembly
import MarkMachine.Proofs.Labels
import MarkMachine.Proofs.Pairing

/-! Places of a program by the count of the instructions before them. Two programs with the same
instructions, up to the names of labels, can differ in every cursor: numbers may be spelled at different
lengths, and so may labels. But the cursors before instructions of the same index, and those where the
walks stop, belong together, and labels of the same meaning lead to cursors that belong together. -/

namespace MarkMachine

/-- The cursors at which a walk reads an instruction, and then the one where it stops. -/
def Walk.cursors (walk : Walk) : List Nat :=
  walk.spans.map Span.position ++ walk.ending.toOption.toList

/-- Cursors of two programs before instructions of the same index, or where both walks stop. -/
def Program.SamePlace (first second : Program) (cursor cursor' : Nat) : Prop :=
  ∃ index : Nat, first.walk.cursors[index]? = some cursor ∧ second.walk.cursors[index]? = some cursor'

def Instruction.labelsOf (instructions : List Instruction) : Set Label :=
  {label | ∃ instruction ∈ instructions, instruction.label? = some label}

/-- Two programs that can be read to their end and have the same instructions, up to new names for labels
that keep different labels different. -/
def Program.Alike (names : Label → Label) (first second : Program) : Prop :=
  ∃ listing listing' : Listing, first.listing = .ok listing ∧ second.listing = .ok listing' ∧
    Set.InjOn names (Instruction.labelsOf (listing.map Entry.instruction)) ∧
    listing'.map Entry.instruction = (listing.map Entry.instruction).map (Instruction.rename names)

namespace Word

/-- The cursor before the word of an index. -/
def offset (words : List Word) (index : Nat) : Nat :=
  (text (words.take index)).length

theorem offset_zero (words : List Word) : offset words 0 = 0 := rfl

theorem offset_cons_succ (word : Word) (words : List Word) (index : Nat) :
    offset (word :: words) (index + 1) = word.marks.length + offset words index := by
  rw [offset, List.take_succ_cons, length_text_cons]
  rfl

theorem offset_length (words : List Word) : offset words words.length = (text words).length := by
  rw [offset, List.take_length]

theorem offset_lt_offset {words : List Word} {index later : Nat} (hlt : index < later)
    (hlater : later ≤ words.length) : offset words index < offset words later := by
  induction words generalizing index later with
  | nil =>
      rw [List.length_nil] at hlater
      omega
  | cons word words ih =>
      have hpos := word.spelled.length_pos
      rw [List.length_cons] at hlater
      obtain ⟨later, rfl⟩ : ∃ count, later = count + 1 := ⟨later - 1, by omega⟩
      rw [offset_cons_succ]
      cases index with
      | zero =>
          rw [offset_zero]
          omega
      | succ index =>
          have hrest := ih (show index < later by omega) (by omega)
          rw [offset_cons_succ]
          omega

theorem offset_inj {words : List Word} {index other : Nat} (hindex : index ≤ words.length)
    (hother : other ≤ words.length) : offset words index = offset words other ↔ index = other := by
  constructor
  · intro hoffset
    rcases Nat.lt_trichotomy index other with hlt | heq | hgt
    · have := offset_lt_offset hlt hother
      omega
    · exact heq
    · have := offset_lt_offset hgt hindex
      omega
  · rintro rfl
    rfl

/-- The cursors of a layout, with the one behind it, are the offsets of its words. -/
theorem getElem?_layout_cursors (position : Nat) (words : List Word) (index cursor : Nat) :
    ((layout position words).map Span.position ++ [position + (text words).length])[index]? = some cursor ↔
      index ≤ words.length ∧ cursor = position + offset words index := by
  induction words generalizing position index with
  | nil =>
      cases index with
      | zero => simp [layout, offset, text, eq_comm]
      | succ index => simp [layout]
  | cons word words ih =>
      cases index with
      | zero => simp [layout, offset_zero, eq_comm]
      | succ index =>
          have hrest := ih (position + word.marks.length) index
          rw [Nat.add_assoc, ← length_text_cons] at hrest
          rw [layout, List.map_cons, List.cons_append, List.getElem?_cons_succ, hrest, List.length_cons,
            Nat.add_le_add_iff_right, offset_cons_succ, Nat.add_assoc]

/-- Words that spell the same instructions, up to new names for labels that keep different labels
different. -/
structure Twins (names : Label → Label) (words words' : List Word) : Prop where
  instructions : words'.map Word.instruction = (words.map Word.instruction).map (Instruction.rename names)
  injOn : Set.InjOn names (Instruction.labelsOf (words.map Word.instruction))

theorem Twins.forall₂ {names : Label → Label} {words words' : List Word} (h : Twins names words words') :
    List.Forall₂ (fun word word' => word'.instruction = word.instruction.rename names) words words' := by
  have heq := h.instructions
  rw [List.map_map, ← List.forall₂_eq_eq_eq, List.forall₂_map_left_iff, List.forall₂_map_right_iff] at heq
  exact heq.flip

/-- Spans that belong together, by what is read and where they begin and end. -/
def Joined (names : Label → Label) (places : Nat → Nat → Prop) (span span' : Span) : Prop :=
  span'.instruction = span.instruction.rename names ∧ places span.position span'.position ∧
    places span.next span'.next

theorem forall₂_joined_layout {names : Label → Label} {places : Nat → Nat → Prop} {words words' : List Word}
    (h : List.Forall₂ (fun word word' => word'.instruction = word.instruction.rename names) words words')
    (position position' : Nat)
    (hplaces : ∀ index ≤ words.length,
      places (position + offset words index) (position' + offset words' index)) :
    List.Forall₂ (Joined names places) (layout position words) (layout position' words') := by
  induction h generalizing position position' with
  | nil => exact .nil
  | @cons word word' words words' hword hwords ih =>
      have hlater : ∀ index ≤ words.length, places (position + word.marks.length + offset words index)
          (position' + word'.marks.length + offset words' index) := by
        intro index hindex
        have hplace := hplaces (index + 1) (Nat.succ_le_succ hindex)
        rwa [offset_cons_succ, offset_cons_succ, ← Nat.add_assoc, ← Nat.add_assoc] at hplace
      refine .cons ⟨hword, hplaces 0 (Nat.zero_le _), ?_⟩ (ih _ _ hlater)
      exact hlater 0 (Nat.zero_le _)

end Word

/-- Label tables of joined spans lead labels of the same meaning to matching places. -/
theorem LabelTable.rel_getElem?_ofSpans {names : Label → Label} {places : Nat → Nat → Prop}
    {spans spans' : List Span} (h : List.Forall₂ (Word.Joined names places) spans spans') {label : Label}
    (hinj : ∀ span ∈ spans, ∀ other, span.instruction = .define other → names other = names label →
      other = label) :
    Option.Rel places (ofSpans spans)[label]? (ofSpans spans')[names label]? := by
  -- The tables are built up side by side, so the claim is generalised to any tables to begin with.
  suffices hnote : ∀ table table' : LabelTable, Option.Rel places table[label]? table'[names label]? →
      Option.Rel places (spans.foldl note table)[label]? (spans'.foldl note table')[names label]? by
    refine hnote ∅ ∅ ?_
    rw [Std.TreeMap.getElem?_emptyc, Std.TreeMap.getElem?_emptyc]
    exact .none
  induction h with
  | nil => exact fun _ _ htable => htable
  | @cons span span' spans spans' hspan hspans ih =>
      intro table table' htable
      refine ih (fun other hmem => hinj other (List.mem_cons_of_mem _ hmem)) _ _ ?_
      have hdefines : span'.defines (names label) = span.defines label := by
        rw [Span.defines, Span.defines, hspan.1, decide_eq_decide, Instruction.rename_eq_define_iff]
        constructor
        · rintro ⟨other, hother, hnames⟩
          rw [hother, hinj span List.mem_cons_self other hother hnames]
        · intro hlabel
          exact ⟨label, hlabel, rfl⟩
      rw [getElem?_note, getElem?_note, hdefines]
      split_ifs
      · exact .some hspan.2.2
      · exact htable

namespace Program

theorem getElem?_cursors {words : List Word} {tail : List Mark} (htail : Walk.Padding tail)
    {index cursor : Nat} :
    (Program.walk (Word.text words ++ tail)).cursors[index]? = some cursor ↔
      index ≤ words.length ∧ cursor = Word.offset words index := by
  have hcursors := Word.getElem?_layout_cursors 0 words index cursor
  rw [Nat.zero_add, Nat.zero_add] at hcursors
  rw [walk_text_padding words htail]
  exact hcursors

section Twins

variable {names : Label → Label} {words words' : List Word} {tail tail' : List Mark}
  (htail : Walk.Padding tail) (htail' : Walk.Padding tail') (htwins : Word.Twins names words words')
include htail htail' htwins

theorem samePlace_text_iff {cursor cursor' : Nat} :
    SamePlace (Word.text words ++ tail) (Word.text words' ++ tail') cursor cursor' ↔
      ∃ index ≤ words.length, cursor = Word.offset words index ∧ cursor' = Word.offset words' index := by
  have hlength := htwins.forall₂.length_eq
  simp only [SamePlace, getElem?_cursors htail, getElem?_cursors htail', ← hlength]
  constructor
  · rintro ⟨index, ⟨hindex, hcursor⟩, _, hcursor'⟩
    exact ⟨index, hindex, hcursor, hcursor'⟩
  · rintro ⟨index, hindex, hcursor, hcursor'⟩
    exact ⟨index, ⟨hindex, hcursor⟩, hindex, hcursor'⟩

theorem forall₂_joined_spans :
    List.Forall₂ (Word.Joined names (SamePlace (Word.text words ++ tail) (Word.text words' ++ tail')))
      (Word.layout 0 words) (Word.layout 0 words') := by
  refine Word.forall₂_joined_layout htwins.forall₂ 0 0 fun index hindex => ?_
  rw [samePlace_text_iff htail htail' htwins, Nat.zero_add, Nat.zero_add]
  exact ⟨index, hindex, rfl, rfl⟩

theorem alike_text : Alike names (Word.text words ++ tail) (Word.text words' ++ tail') := by
  have hlisting (words : List Word) :
      (Listing.ofSpans (Word.layout 0 words)).map Entry.instruction = words.map Word.instruction := by
    rw [Listing.ofSpans, List.map_map]
    exact Word.map_instruction_layout 0 words
  refine ⟨_, _, listing_text_padding words htail, listing_text_padding words' htail', ?_, ?_⟩
  · rw [hlisting]
    exact htwins.injOn
  · rw [hlisting, hlisting]
    exact htwins.instructions

end Twins

theorem exists_words_of_listing {program : Program} {listing : Listing} (h : program.listing = .ok listing) :
    ∃ words tail, program = Word.text words ++ tail ∧ Walk.Padding tail ∧
      listing.map Entry.instruction = words.map Word.instruction := by
  rw [Program.listing] at h
  cases hending : program.walk.ending with
  | error fault =>
      rw [hending] at h
      cases h
  | ok stop =>
      obtain ⟨words, tail, hprogram, htail, hspans, _⟩ := exists_words_of_ending hending
      rw [hending, hspans] at h
      cases h
      refine ⟨words, tail, hprogram, htail, ?_⟩
      rw [Listing.ofSpans, List.map_map]
      exact Word.map_instruction_layout 0 words

namespace Alike

variable {names : Label → Label} {first second : Program}

/-- Programs that are alike are texts of twin words. -/
theorem exists_twins (h : Alike names first second) :
    ∃ words words' tail tail', first = Word.text words ++ tail ∧ second = Word.text words' ++ tail' ∧
      Walk.Padding tail ∧ Walk.Padding tail' ∧ Word.Twins names words words' := by
  obtain ⟨listing, listing', hfirst, hsecond, hinj, hsame⟩ := h
  obtain ⟨words, tail, rfl, htail, hwords⟩ := exists_words_of_listing hfirst
  obtain ⟨words', tail', rfl, htail', hwords'⟩ := exists_words_of_listing hsecond
  rw [hwords] at hinj hsame
  rw [hwords'] at hsame
  exact ⟨words, words', tail, tail', rfl, rfl, htail, htail', hsame, hinj⟩

theorem exists_ending (h : Alike names first second) :
    ∃ stop stop', first.walk.ending = .ok stop ∧ second.walk.ending = .ok stop' := by
  obtain ⟨words, words', tail, tail', rfl, rfl, htail, htail', _⟩ := h.exists_twins
  rw [walk_text_padding words htail, walk_text_padding words' htail']
  exact ⟨_, _, rfl, rfl⟩

theorem samePlace_zero (h : Alike names first second) : first.SamePlace second 0 0 := by
  obtain ⟨words, words', tail, tail', rfl, rfl, htail, htail', htwins⟩ := h.exists_twins
  exact (samePlace_text_iff htail htail' htwins).mpr ⟨0, Nat.zero_le _, rfl, rfl⟩

/-- A cursor belongs to one place only. -/
theorem samePlace_inj (h : Alike names first second) {cursor cursor' other other' : Nat}
    (hplace : first.SamePlace second cursor cursor') (hother : first.SamePlace second other other') :
    cursor = other ↔ cursor' = other' := by
  obtain ⟨words, words', tail, tail', rfl, rfl, htail, htail', htwins⟩ := h.exists_twins
  have hlength := htwins.forall₂.length_eq
  rw [samePlace_text_iff htail htail' htwins] at hplace hother
  obtain ⟨index, hindex, rfl, rfl⟩ := hplace
  obtain ⟨place, hindex', rfl, rfl⟩ := hother
  rw [Word.offset_inj hindex hindex', Word.offset_inj (hlength ▸ hindex) (hlength ▸ hindex')]

/-- Whether the last step began at a cursor is told alike in both programs. -/
theorem eq_some_iff (h : Alike names first second) {last last' : Option Nat}
    (hlast : Option.Rel (first.SamePlace second) last last') {cursor cursor' : Nat}
    (hplace : first.SamePlace second cursor cursor') : last = some cursor ↔ last' = some cursor' := by
  cases hlast with
  | none => simp
  | some hbegan =>
      rw [Option.some.injEq, Option.some.injEq]
      exact h.samePlace_inj hbegan hplace

/-- The walks stop at the same place. -/
theorem ending_of_samePlace (h : Alike names first second) {stop stop' : Nat}
    (hplace : first.SamePlace second stop stop') (hending : first.walk.ending = .ok stop) :
    second.walk.ending = .ok stop' := by
  obtain ⟨words, words', tail, tail', rfl, rfl, htail, htail', htwins⟩ := h.exists_twins
  have hlength := htwins.forall₂.length_eq
  rw [walk_text_padding words htail, ← Word.offset_length] at hending
  rw [walk_text_padding words' htail', ← Word.offset_length, ← hlength]
  rw [samePlace_text_iff htail htail' htwins] at hplace
  obtain ⟨index, hindex, rfl, rfl⟩ := hplace
  have hstop := (Word.offset_inj (Nat.le_refl _) hindex).mp (Except.ok.inj hending)
  rw [hstop]

theorem forall₂_joined (h : Alike names first second) :
    List.Forall₂ (Word.Joined names (first.SamePlace second)) first.walk.spans second.walk.spans := by
  obtain ⟨words, words', tail, tail', rfl, rfl, htail, htail', htwins⟩ := h.exists_twins
  rw [walk_text_padding words htail, walk_text_padding words' htail']
  exact forall₂_joined_spans htail htail' htwins

/-- At the place of an instruction stands the same instruction in the other program. -/
theorem exists_joined (h : Alike names first second) {span : Span} (hspan : span ∈ first.walk.spans)
    {cursor' : Nat} (hplace : first.SamePlace second span.position cursor') :
    ∃ span' ∈ second.walk.spans, span'.position = cursor' ∧
      Word.Joined names (first.SamePlace second) span span' := by
  obtain ⟨hlength, hjoined⟩ := List.forall₂_iff_get.mp h.forall₂_joined
  obtain ⟨index, rfl⟩ := List.get_of_mem hspan
  have hspan' := hjoined index index.isLt (hlength ▸ index.isLt)
  exact ⟨_, List.get_mem _ _, (h.samePlace_inj hspan'.2.1 hplace).mp rfl, hspan'⟩

/-- A label that the first program mentions leads to the same place as its new name. -/
theorem rel_labels (h : Alike names first second) {span : Span} (hspan : span ∈ first.walk.spans)
    {label : Label} (hlabel : span.instruction.label? = some label) :
    Option.Rel (first.SamePlace second) (LabelTable.ofSpans first.walk.spans)[label]?
      (LabelTable.ofSpans second.walk.spans)[names label]? := by
  refine LabelTable.rel_getElem?_ofSpans h.forall₂_joined fun definition hmem other hother hnames => ?_
  obtain ⟨words, words', tail, tail', rfl, rfl, htail, htail', htwins⟩ := h.exists_twins
  rw [walk_text_padding words htail] at hspan hmem
  have hmentioned {span : Span} (hspan : span ∈ Word.layout 0 words) {label : Label}
      (hlabel : span.instruction.label? = some label) :
      label ∈ Instruction.labelsOf (words.map Word.instruction) := by
    rw [← Word.map_instruction_layout 0]
    exact ⟨_, List.mem_map_of_mem hspan, hlabel⟩
  refine htwins.injOn (hmentioned hmem ?_) (hmentioned hspan hlabel) hnames
  rw [hother]
  rfl

end Alike

end Program

end MarkMachine
