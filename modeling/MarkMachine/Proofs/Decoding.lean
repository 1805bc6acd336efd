import Mathlib.Data.Nat.Digits.Defs
import MarkMachine.Proofs.Step
import MarkMachine.Proofs.Walk

/-! Decoding at any cursor of any marks. The forms that an instruction can take are those of the two tables:
a pattern alone, the pattern of the operators with a selector, a pattern with a label, or the pattern of
numbers with a sign and binary digits, which are worth the number over all the integers. Decoding finds an
instruction just where one of its forms stands, and looks at nothing else; it speaks of too large a number
only behind the pattern of numbers. -/

namespace MarkMachine

namespace Numeral

theorem magnitudeFrom_eq_add (start : Nat) (digits : List Mark) :
    magnitudeFrom start digits =
      start * 2 ^ digits.length + Nat.ofDigits 2 (digits.reverse.map Mark.bit) := by
  induction digits generalizing start with
  | nil => simp [magnitudeFrom]
  | cons digit digits ih =>
      simp only [magnitudeFrom_cons, ih, List.reverse_cons, List.map_append, Nat.ofDigits_append,
        List.map_cons, List.map_nil, Nat.ofDigits_singleton, List.length_map, List.length_reverse,
        List.length_cons]
      ring

theorem magnitude_eq_ofDigits (digits : List Mark) :
    magnitude digits = Nat.ofDigits 2 (digits.reverse.map Mark.bit) := by
  simp [magnitude, magnitudeFrom_eq_add]

/-- A sign and a magnitude make the number that they are worth over the integers, if 64 bits hold it. -/
theorem signed?_eq_some_iff {sign : Mark} {magnitude : Nat} {value : Int64} :
    signed? sign magnitude = some value ↔
      value.toInt = if sign = .space then (magnitude : Int) else -magnitude := by
  have hmax := Int64.toInt_maxValue
  have hmin := Int64.toInt_minValue
  have hlow := value.le_toInt
  have hhigh := value.toInt_lt
  have hvalue {n : Int} (hle : -2 ^ 63 ≤ n) (hlt : n < 2 ^ 63) :
      Int64.ofInt n = value ↔ value.toInt = n := by
    rw [← Int64.toInt_inj, Int64.toInt_ofInt_of_le hle hlt, eq_comm]
  unfold signed?
  split_ifs with hsign hfits hfits
  · rw [Option.some.injEq]
    apply hvalue <;> omega
  · simp only [false_iff]
    omega
  · rw [Option.some.injEq]
    apply hvalue <;> omega
  · simp only [false_iff]
    omega

end Numeral

namespace Instruction

/-- The forms of an instruction, as the tables have them. -/
inductive Form : Instruction → List Mark → Prop
  | plain {pattern : List Mark} {instruction : Instruction}
      (hrow : .plain pattern instruction ∈ Opcode.primary) : Form instruction pattern
  | operator {pattern selector : List Mark} {operator : Operator}
      (hrow : .operator pattern ∈ Opcode.primary) (hselector : (selector, operator) ∈ Opcode.operators) :
      Form (.arithmetic operator) (pattern ++ selector)
  | label {pattern : List Mark} {build : Label → Instruction} {label : Label}
      (hrow : .label pattern build ∈ Opcode.primary) (hlabel : (build label).label? = some label)
      (hline : .line ∉ label) : Form (build label) (pattern ++ label ++ [.line])
  | number {value : Int64} (sign : Mark) {digits : List Mark} (hline : .line ∉ digits)
      (hvalue : value.toInt = (if sign = .space then 1 else -1) *
        (Nat.ofDigits 2 (digits.reverse.map Mark.bit) : Nat)) :
      Form (.push value) ([.space, .space, sign] ++ digits ++ [.line])

theorem label?_of_mem_primary {pattern : List Mark} {build : Label → Instruction}
    (h : .label pattern build ∈ Opcode.primary) (label : Label) : (build label).label? = some label := by
  simp only [Opcode.primary, List.mem_cons, Opcode.label.injEq, reduceCtorEq, false_or, or_false,
    List.not_mem_nil] at h
  rcases h with ⟨_, rfl⟩ | ⟨_, rfl⟩ | ⟨_, rfl⟩ | ⟨_, rfl⟩ | ⟨_, rfl⟩ <;> rfl

theorem number_mem_primary_iff {pattern : List Mark} {build : Int64 → Instruction} :
    .number pattern build ∈ Opcode.primary ↔ pattern = [.space, .space] ∧ build = .push := by
  simp [Opcode.primary]

theorem spelledBy_iff_form {instruction : Instruction} {marks : List Mark} :
    instruction.SpelledBy marks ↔ instruction.Form marks := by
  have hworth (sign : Mark) (digits : List Mark) (value : Int64) :
      Numeral.signed? sign (Numeral.magnitude digits) = some value ↔
        value.toInt = (if sign = .space then 1 else -1) *
          (Nat.ofDigits 2 (digits.reverse.map Mark.bit) : Nat) := by
    rw [Numeral.signed?_eq_some_iff, Numeral.magnitude_eq_ofDigits]
    split_ifs <;> simp
  constructor
  · rintro ⟨row, hrow, hspells⟩
    cases hspells with
    | plain => exact .plain hrow
    | operator pattern hselector => exact .operator hrow hselector
    | label pattern build hlabel =>
        obtain ⟨hline, rfl⟩ := hlabel
        rw [Label.write, ← List.append_assoc]
        exact .label hrow (label?_of_mem_primary hrow _) hline
    | number pattern build hnumber =>
        obtain ⟨rfl, rfl⟩ := number_mem_primary_iff.mp hrow
        obtain ⟨sign, digits, hline, hvalue, rfl⟩ := hnumber
        exact .number sign hline ((hworth sign digits _).mp hvalue)
  · intro hform
    cases hform with
    | plain hrow => exact ⟨_, hrow, .plain _ _⟩
    | operator hrow hselector => exact ⟨_, hrow, .operator _ hselector⟩
    | label hrow _ hline =>
        rw [List.append_assoc]
        exact ⟨_, hrow, .label _ _ ⟨hline, rfl⟩⟩
    | number sign hline hvalue =>
        refine ⟨_, number_mem_primary_iff.mpr ⟨rfl, rfl⟩, .number [.space, .space] .push ?_⟩
        exact ⟨sign, _, hline, (hworth sign _ _).mpr hvalue, rfl⟩

end Instruction

namespace Reading

variable {α β : Type}

theorem overflow_mem_of_firstOf {readings : List (Reading α)} (h : firstOf readings = .overflow) :
    .overflow ∈ readings := by
  rw [← h]
  exact firstOf_mem (by simp [h])

theorem map_eq_overflow_iff {reading : Reading α} {f : α → β} :
    reading.map f = .overflow ↔ reading = .overflow := by
  cases reading <;> simp [map]

theorem widen_eq_overflow_iff {reading : Reading α} {extra : Nat} :
    reading.widen extra = .overflow ↔ reading = .overflow := by
  cases reading <;> simp [widen]

theorem behind_eq_overflow_iff {pattern marks : List Mark} {read : List Mark → Reading α} :
    behind pattern read marks = .overflow ↔
      pattern <+: marks ∧ read (marks.drop pattern.length) = .overflow := by
  unfold behind
  split_ifs with hpattern
  · simp [widen_eq_overflow_iff, List.isPrefixOf_iff_prefix.mp hpattern]
  · simpa using fun h => absurd (List.isPrefixOf_iff_prefix.mpr h) hpattern

end Reading

theorem Label.read_ne_overflow (marks : List Mark) : Label.read marks ≠ .overflow := by
  by_cases hline : Mark.line ∈ marks
  · obtain ⟨label, rest, rfl, hlabel⟩ := List.eq_append_cons_of_mem hline
    simp [Label.read_append hlabel]
  · simp [Label.read_eq_missing hline]

namespace Opcode

theorem readOperator_ne_overflow (marks : List Mark) (operators : List (List Mark × Operator)) :
    readOperator marks operators ≠ .overflow := by
  intro hread
  rw [readOperator_eq_firstOf] at hread
  obtain ⟨row, _, hrow⟩ := List.mem_map.mp (Reading.overflow_mem_of_firstOf hread)
  simp [Reading.behind_eq_overflow_iff] at hrow

/-- Only a row with a number can find one that is too large. -/
theorem read_eq_overflow {row : Opcode} {operators : List (List Mark × Operator)} {marks : List Mark}
    (h : row.read operators marks = .overflow) :
    row.pattern <+: marks ∧ ∃ build, row = .number row.pattern build := by
  cases row with
  | plain pattern instruction => simp [read_plain, Reading.behind_eq_overflow_iff] at h
  | number pattern build =>
      rw [read_number, Reading.behind_eq_overflow_iff] at h
      exact ⟨h.1, build, rfl⟩
  | label pattern build =>
      simp [read_label, Reading.behind_eq_overflow_iff, Reading.map_eq_overflow_iff,
        Label.read_ne_overflow] at h
  | operator pattern =>
      simp [read_operator, Reading.behind_eq_overflow_iff, Reading.map_eq_overflow_iff,
        readOperator_ne_overflow] at h

end Opcode

namespace Instruction

theorem decode_eq_overflow {marks : List Mark} (h : decode marks = .overflow) :
    [.space, .space] <+: marks := by
  rw [decode, Opcode.decodeWith_eq_firstOf Opcode.primary_apart] at h
  obtain ⟨row, hrow, hread⟩ := List.mem_map.mp (Reading.overflow_mem_of_firstOf h)
  obtain ⟨hpattern, build, hnumber⟩ := Opcode.read_eq_overflow hread
  rw [hnumber] at hrow
  rwa [(number_mem_primary_iff.mp hrow).1] at hpattern

/-- A form of an instruction stands between two cursors of a program. -/
def StandsAt (instruction : Instruction) (program : Program) (cursor next : Nat) : Prop :=
  cursor < next ∧ next ≤ program.length ∧ instruction.Form ((program.take next).drop cursor)

theorem decodeAt_eq_found_iff {program : Program} {cursor : Nat} {instruction : Instruction}
    {width : Nat} :
    decodeAt program cursor = .found instruction width ↔
      instruction.StandsAt program cursor (cursor + width) := by
  rw [decodeAt, recognises_decode, StandsAt, List.drop_take, Nat.add_sub_cancel_left]
  constructor
  · rintro ⟨piece, rest, hmarks, rfl, hspelled⟩
    have hpos := hspelled.length_pos
    have hlength := congrArg List.length hmarks
    rw [List.length_drop, List.length_append] at hlength
    refine ⟨by omega, by omega, ?_⟩
    rw [hmarks, List.take_left]
    exact spelledBy_iff_form.mp hspelled
  · rintro ⟨_, hle, hform⟩
    refine ⟨_, (program.drop cursor).drop width, (List.take_append_drop _ _).symm, ?_,
      spelledBy_iff_form.mpr hform⟩
    rw [List.length_take, List.length_drop]
    omega

/-- What is found at a cursor is found wherever the same marks stand. -/
theorem decodeAt_elsewhere {program : Program} {cursor : Nat} {instruction : Instruction} {width : Nat}
    (h : decodeAt program cursor = .found instruction width) (before after : List Mark) :
    decodeAt (before ++ (program.take (cursor + width)).drop cursor ++ after) before.length =
      .found instruction width := by
  obtain ⟨_, hle, hform⟩ := decodeAt_eq_found_iff.mp h
  have hdecode := (spelledBy_iff_form.mpr hform).decode_append after
  rw [List.length_drop, List.length_take, Nat.min_eq_left hle, Nat.add_sub_cancel_left] at hdecode
  rw [decodeAt, List.append_assoc, List.drop_left, hdecode]

end Instruction

theorem Walk.ofMarks_of_overflow (position : Nat) {marks : List Mark}
    (h : Instruction.decode marks = .overflow) :
    Walk.ofMarks position 0 marks = ⟨[], .error (.numberOverflow position)⟩ := by
  cases marks with
  | nil => simp [Instruction.decode_nil] at h
  | cons mark marks => simp [Walk.ofMarks, h]

theorem Session.step_of_overflow {session : Session} (hhalted : session.machine.halted = false)
    (hlast : session.machine.lastPc ≠ some session.machine.pc)
    (hdecode : Instruction.decode session.machine.ahead = .overflow) :
    ∃ after, step session = .error (.numberOverflow session.machine.pc) after := by
  have hdone : session.machine.isDone = false := by
    cases hahead : session.machine.ahead with
    | nil => simp [hahead, Instruction.decode_nil] at hdecode
    | cons mark marks => simp [Machine.isDone, hhalted, hahead]
  rw [step, if_neg (by simp [hdone]), if_neg hlast]
  simp only [hdecode]
  exact ⟨_, rfl⟩

/-- **Decoding finds exactly the forms of instructions.** An instruction of some width is found at a cursor just if a
form of it stands there and takes so many marks, and no two of them stand at one cursor. What is found depends on
its own marks only. Too large a number is only ever found behind two space marks, and a walk or a step that
comes there reports it with that very cursor. -/
theorem Instruction.decodeAt_exact (program : Program) (cursor : Nat) :
    (∀ instruction width, decodeAt program cursor = .found instruction width ↔
      instruction.StandsAt program cursor (cursor + width)) ∧
    (∀ (first second : Instruction) (next next' : Nat), first.StandsAt program cursor next →
      second.StandsAt program cursor next' → first = second ∧ next = next') ∧
    (∀ instruction width before after, decodeAt program cursor = .found instruction width →
      decodeAt (before ++ (program.take (cursor + width)).drop cursor ++ after) before.length =
        .found instruction width) ∧
    (decodeAt program cursor = .overflow → [.space, .space] <+: program.drop cursor ∧
      Walk.ofMarks cursor 0 (program.drop cursor) = ⟨[], .error (.numberOverflow cursor)⟩ ∧
      ∀ session : Session, session.machine.program = program → session.machine.pc = cursor →
        session.machine.halted = false → session.machine.lastPc ≠ some cursor →
          ∃ after, Session.step session = .error (.numberOverflow cursor) after) := by
  refine ⟨fun _ _ => decodeAt_eq_found_iff, ?_, fun _ _ before after h => decodeAt_elsewhere h before after,
    fun hoverflow => ⟨decode_eq_overflow hoverflow, Walk.ofMarks_of_overflow cursor hoverflow, ?_⟩⟩
  · intro first second next next' hfirst hsecond
    have hfound {instruction : Instruction} {stop : Nat} (h : instruction.StandsAt program cursor stop) :
        decodeAt program cursor = .found instruction (stop - cursor) := by
      rwa [decodeAt_eq_found_iff, Nat.add_sub_of_le (Nat.le_of_lt h.1)]
    have hsame := (hfound hfirst).symm.trans (hfound hsecond)
    rw [Reading.found.injEq] at hsame
    have hlt := hfirst.1
    have hlt' := hsecond.1
    exact ⟨hsame.1, by omega⟩
  · rintro session rfl rfl hhalted hlast
    exact Session.step_of_overflow hhalted hlast hoverflow

/-- A number under a line mark for its sign, with a line mark before it and a tab mark behind it: it is
minus two also without those. -/
theorem Instruction.decodeAt_exact_push :
    Instruction.StandsAt (.push (-2)) [.line, .space, .space, .line, .tab, .extra, .line, .tab] 1 7 ∧
      decodeAt [.space, .space, .line, .tab, .extra, .line] 0 = .found (.push (-2)) 6 := by
  have hfound : decodeAt [.line, .space, .space, .line, .tab, .extra, .line, .tab] 1 =
      .found (.push (-2)) 6 := by
    decide
  obtain ⟨hiff, _, helsewhere, _⟩ :=
    decodeAt_exact [.line, .space, .space, .line, .tab, .extra, .line, .tab] 1
  exact ⟨(hiff _ _).mp hfound, helsewhere _ _ [] [] hfound⟩

end MarkMachine
