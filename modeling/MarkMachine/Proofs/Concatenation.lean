import MarkMachine.Proofs.Disassembly
import MarkMachine.Proofs.Labels

/-! Programs put one behind the other. An instruction that has been read is read again with any marks behind
it, and reading does not ask where the marks ahead stand. So where the walk of a first program comes to its
very end, the walk of a second one behind it goes as it would go alone, only further on. This fails where
padding is left, as more marks can make an instruction of it. The listings follow each other like the walks,
and a label leads where the second program says, or else where the first one does. -/

namespace MarkMachine

def Span.shift (distance : Nat) (span : Span) : Span :=
  ⟨distance + span.position, span.instruction, distance + span.next⟩

def Entry.shift (distance : Nat) (entry : Entry) : Entry :=
  ⟨distance + entry.position, entry.instruction⟩

/-- The same fault at a place further on by a distance; trouble with input or output has no place. -/
def Fault.shift (distance : Nat) : Fault → Fault
  | .malformed position => .malformed (distance + position)
  | .stackUnderflow instruction position => .stackUnderflow instruction (distance + position)
  | .callStackUnderflow position => .callStackUnderflow (distance + position)
  | .unknownLabel label position => .unknownLabel label (distance + position)
  | .divisionByZero instruction position => .divisionByZero instruction (distance + position)
  | .numberOverflow position => .numberOverflow (distance + position)
  | .device fault => .device fault

namespace Walk

def shift (distance : Nat) (walk : Walk) : Walk where
  spans := walk.spans.map (Span.shift distance)
  ending := (walk.ending.map (distance + ·)).mapError (Fault.shift distance)

def append (first second : Walk) : Walk where
  spans := first.spans ++ second.spans
  ending := second.ending

theorem shift_cons (distance : Nat) (span : Span) (walk : Walk) :
    (cons span walk).shift distance = cons (span.shift distance) (walk.shift distance) := rfl

/-- What a walk reads does not depend on where its marks stand. -/
theorem ofMarks_add (distance position skip : Nat) (marks : List Mark) :
    ofMarks (distance + position) skip marks = (ofMarks position skip marks).shift distance := by
  induction marks generalizing position skip with
  | nil => rfl
  | cons mark marks ih =>
      cases skip with
      | succ skip => rw [ofMarks, ofMarks, Nat.add_assoc, ih]
      | zero =>
          rw [ofMarks, ofMarks]
          cases Instruction.decode (mark :: marks) with
          | found instruction width =>
              dsimp only
              rw [Nat.add_assoc distance position 1, ih, Nat.add_assoc, shift_cons, Span.shift]
          | missing =>
              dsimp only
              split_ifs <;> rfl
          | overflow => rfl

end Walk

namespace LabelTable

/-- Later spans decide where a label leads, if they define it. -/
theorem getElem?_ofSpans_append (spans more : List Span) (label : Label) :
    (ofSpans (spans ++ more))[label]? = (ofSpans more)[label]?.or (ofSpans spans)[label]? := by
  have hnote : ofSpans (spans ++ more) = more.foldl note (ofSpans spans) := List.foldl_append
  rw [hnote, getElem?_foldl_note, ← getElem?_ofSpans]

theorem getElem?_ofSpans_shift (distance : Nat) (spans : List Span) (label : Label) :
    (ofSpans (spans.map (Span.shift distance)))[label]? =
      (ofSpans spans)[label]?.map (distance + ·) := by
  have hdefines : Span.defines label ∘ Span.shift distance = Span.defines label := rfl
  rw [getElem?_ofSpans, getElem?_ofSpans, List.filter_map, hdefines, List.getLast?_map, Option.map_map,
    Option.map_map]
  rfl

end LabelTable

theorem Listing.ofSpans_shift (distance : Nat) (spans : List Span) :
    Listing.ofSpans (spans.map (Span.shift distance)) =
      (Listing.ofSpans spans).map (Entry.shift distance) := by
  rw [Listing.ofSpans, Listing.ofSpans, List.map_map, List.map_map]
  rfl

namespace Program

/-- A program whose walk comes to its very end is a text of words. -/
theorem exists_words_of_ending_length {program : Program} (h : program.walk.ending = .ok program.length) :
    ∃ words, program = Word.text words ∧ program.walk.spans = Word.layout 0 words := by
  obtain ⟨words, tail, hprogram, _, hspans, hstop⟩ := exists_words_of_ending h
  have htail : tail = [] := by
    rw [hprogram, List.length_append] at hstop
    exact List.eq_nil_of_length_eq_zero (by omega)
  rw [htail, List.append_nil] at hprogram
  exact ⟨words, hprogram, hspans⟩

/-- A walk that comes to the very end of a program goes on as that of the program behind it. -/
theorem walk_append {first : Program} (h : first.walk.ending = .ok first.length) (second : Program) :
    Program.walk (first ++ second) = first.walk.append (second.walk.shift first.length) := by
  obtain ⟨words, hfirst, hspans⟩ := exists_words_of_ending_length h
  have hbehind : Walk.ofMarks (0 + first.length) 0 second = second.walk.shift first.length := by
    rw [Nat.add_comm]
    exact Walk.ofMarks_add first.length 0 0 second
  rw [Walk.append, hspans, ← hbehind, hfirst]
  exact Walk.ofMarks_text 0 words second

theorem eq_ofSpans_of_labels {program : Program} {table : LabelTable} (h : program.labels = .ok table) :
    table = LabelTable.ofSpans program.walk.spans := by
  rw [labels] at h
  cases hending : program.walk.ending with
  | error fault =>
      rw [hending] at h
      cases h
  | ok stop =>
      rw [hending] at h
      exact (Except.ok.inj h).symm

section VeryEnd

variable {first : Program} (hending : first.walk.ending = .ok first.length) (second : Program)
include hending

theorem ending_append :
    (Program.walk (first ++ second)).ending =
      (second.walk.ending.map (first.length + ·)).mapError (Fault.shift first.length) := by
  rw [walk_append hending]
  rfl

theorem listing_append :
    Program.listing (first ++ second) =
      (second.listing.map fun more =>
        Listing.ofSpans first.walk.spans ++ more.map (Entry.shift first.length)).mapError
          (Fault.shift first.length) := by
  have hspans : Listing.ofSpans (Program.walk (first ++ second)).spans =
      Listing.ofSpans first.walk.spans ++
        (Listing.ofSpans second.walk.spans).map (Entry.shift first.length) := by
    rw [walk_append hending, ← Listing.ofSpans_shift]
    exact List.map_append
  rw [listing, listing, hspans, ending_append hending]
  cases second.walk.ending <;> rfl

theorem labels_append :
    Program.labels (first ++ second) =
      (second.labels.map fun _ => LabelTable.ofSpans (Program.walk (first ++ second)).spans).mapError
        (Fault.shift first.length) := by
  rw [labels, labels, ending_append hending]
  cases second.walk.ending <;> rfl

theorem getElem?_labels_append (label : Label) :
    (LabelTable.ofSpans (Program.walk (first ++ second)).spans)[label]? =
      ((LabelTable.ofSpans second.walk.spans)[label]?.map (first.length + ·)).or
        (LabelTable.ofSpans first.walk.spans)[label]? := by
  rw [walk_append hending, ← LabelTable.getElem?_ofSpans_shift]
  exact LabelTable.getElem?_ofSpans_append _ _ label

end VeryEnd

/-- **Programs that follow each other are read in turn.** Behind a program whose walk comes to its very end, any
other one is read as it is by itself, only further on, and so is its fault. The listing is that of the first with
that of the second behind it; and a label leads where the second program has it lead, or else where the first
has. -/
theorem concatenation_reads_in_turn {first : Program} (hending : first.walk.ending = .ok first.length)
    (second : Program) :
    Program.walk (first ++ second) = first.walk.append (second.walk.shift first.length) ∧
    (∃ listing, first.listing = .ok listing ∧
      Program.listing (first ++ second) =
        (second.listing.map fun more => listing ++ more.map (Entry.shift first.length)).mapError
          (Fault.shift first.length)) ∧
    ∃ table, first.labels = .ok table ∧
      (∀ more, second.labels = .ok more →
        ∃ joined, Program.labels (first ++ second) = .ok joined ∧
          ∀ label : Label, joined[label]? = (more[label]?.map (first.length + ·)).or table[label]?) ∧
      ∀ fault, second.labels = .error fault →
        Program.labels (first ++ second) = .error (fault.shift first.length) := by
  have hlabels := labels_append hending second
  refine ⟨walk_append hending second, ⟨_, ?_, listing_append hending second⟩,
    LabelTable.ofSpans first.walk.spans, ?_, ?_, ?_⟩
  · rw [listing, hending]
    rfl
  · rw [labels, hending]
    rfl
  · intro more hmore
    rw [hmore] at hlabels
    refine ⟨_, hlabels, fun label => ?_⟩
    rw [getElem?_labels_append hending, eq_ofSpans_of_labels hmore]
  · intro fault hfault
    rw [hlabels, hfault]
    rfl

/-- A program that defines two labels, and behind it one that defines the second of them again, jumps to the
first and ends in padding. -/
theorem concatenation_reads_in_turn_twice :
    let first : Program := [.line, .space, .space, .tab, .line, .line, .space, .space, .line]
    let second : Program := [.line, .space, .space, .line, .line, .space, .line, .tab, .line, .line]
    first.walk.ending = .ok first.length ∧
      Program.listing (first ++ second) =
        .ok [⟨0, .define [.tab]⟩, ⟨5, .define []⟩, ⟨9, .define []⟩, ⟨13, .jump [.tab]⟩] ∧
      ∃ table, Program.labels (first ++ second) = .ok table ∧ table[[Mark.tab]]? = some 5 ∧
        table[([] : Label)]? = some 13 := by
  intro first second
  have hending : first.walk.ending = .ok first.length := by
    decide +kernel
  obtain ⟨_, ⟨listing, hlisting, hboth⟩, table, htable, hjoined, _⟩ :=
    concatenation_reads_in_turn hending second
  have hmore : second.labels = .ok (LabelTable.ofSpans second.walk.spans) := rfl
  obtain ⟨joined, hlabels, hlookup⟩ := hjoined _ hmore
  cases hlisting
  cases htable
  refine ⟨hending, hboth, joined, hlabels, ?_, ?_⟩
  · rw [hlookup]
    decide +kernel
  · rw [hlookup]
    decide +kernel

end Program

end MarkMachine
