import Mathlib.Data.List.TakeWhile
import MarkMachine.Proofs.Tables

/-! Number operands at any cursor. The sign, what the digits up to the next line mark are worth without any
bound, and whether that line mark is there settle what is read. The digits are gathered in 64 bits and the
sign is heeded only then, so the limits are those of 64 bits before the line mark and those of the sign
behind it. What is written for a number is read again as that number anywhere, and nothing shorter is. -/

namespace MarkMachine

namespace Numeral

theorem takeWhile_append_line {digits : List Mark} (h : .line ∉ digits) (rest : List Mark) :
    (digits ++ .line :: rest).takeWhile (· ≠ .line) = digits := by
  rw [List.takeWhile_append_of_pos, List.takeWhile_cons_of_neg (by simp), List.append_nil]
  intro mark hmark
  simpa using ne_of_mem_of_not_mem hmark h

/-- A line mark, if there is one, follows the digits in front of it. -/
theorem getElem?_length_takeWhile (marks : List Mark) :
    marks[(marks.takeWhile (· ≠ .line)).length]? = some .line ↔ .line ∈ marks := by
  constructor
  · exact List.mem_of_getElem?
  · intro hline
    obtain ⟨digits, rest, rfl, hdigits⟩ := List.eq_append_cons_of_mem hline
    rw [takeWhile_append_line hdigits, List.getElem?_append_right (Nat.le_refl _), Nat.sub_self]
    rfl

theorem signed?_eq_none_iff (sign : Mark) (magnitude : Nat) :
    signed? sign magnitude = none ↔
      if sign = .space then 2 ^ 63 ≤ magnitude else 2 ^ 63 < magnitude := by
  have hmax := Int64.toInt_maxValue
  have hmin := Int64.toInt_minValue
  unfold signed?
  split_ifs <;> simp <;> omega

theorem exists_signed?_eq {sign : Mark} {magnitude : Nat}
    (h : if sign = .space then magnitude < 2 ^ 63 else magnitude ≤ 2 ^ 63) :
    ∃ value, signed? sign magnitude = some value ∧
      value.toInt = if sign = .space then (magnitude : Int) else -magnitude := by
  cases hsigned : signed? sign magnitude with
  | none =>
      rw [signed?_eq_none_iff] at hsigned
      split_ifs at h hsigned <;> omega
  | some value => exact ⟨value, rfl, signed?_eq_some_iff.mp hsigned⟩

/-- What is read behind a sign, by what the digits are worth without any bound. -/
theorem read_cons (sign : Mark) (rest : List Mark) :
    read (sign :: rest) =
      let digits := rest.takeWhile (· ≠ .line)
      if 2 ^ 64 ≤ magnitude digits then .overflow
      else if .line ∈ rest then
        match signed? sign (magnitude digits) with
        | some value => .found value (digits.length + 2)
        | none => .overflow
      else .missing := by
  have hsize : UInt64.size = 2 ^ 64 := rfl
  dsimp only
  by_cases hline : Mark.line ∈ rest
  · obtain ⟨digits, rest, rfl, hdigits⟩ := List.eq_append_cons_of_mem hline
    rw [takeWhile_append_line hdigits, read_append hdigits, if_pos hline]
    cases hsigned : signed? sign (magnitude digits) with
    | none => exact (ite_self _).symm
    | some value => exact (if_neg (Nat.not_le.mpr (magnitude_lt_of_signed? hsigned))).symm
  · have hdigits : rest.takeWhile (· ≠ .line) = rest := by
      rw [List.takeWhile_eq_self_iff]
      intro mark hmark
      simpa using ne_of_mem_of_not_mem hmark hline
    rw [hdigits, read_unended hline, if_neg hline, hsize]
    by_cases hlarge : 2 ^ 64 ≤ magnitude rest
    · rw [if_pos hlarge, if_neg (Nat.not_lt.mpr hlarge)]
    · rw [if_neg hlarge, if_pos (Nat.not_le.mp hlarge)]

end Numeral

/-- Behind two space marks the number operand alone decides. -/
theorem Instruction.decodeAt_push {program : Program} {start : Nat}
    (h : [.space, .space] <+: program.drop start) :
    decodeAt program start = ((Numeral.read (program.drop (start + 2))).map .push).widen 2 := by
  have hrow : .number [.space, .space] .push ∈ Opcode.primary := number_mem_primary_iff.mpr ⟨rfl, rfl⟩
  obtain ⟨rest, hrest⟩ := h
  have hafter : program.drop (start + 2) = rest := by
    rw [← List.drop_drop, ← hrest]
    rfl
  rw [hafter, decodeAt, decode, Opcode.decodeWith_eq_read Opcode.primary_apart hrow ⟨rest, hrest⟩,
    Opcode.read_number, ← hrest, Reading.behind_append]
  rfl

/-- **Number operands are read exactly.** An operand is a mark for the sign, the marks up to the next line mark as
binary digits, and that line mark. The number is what the digits are worth, with the sign. A worth of 2⁶⁴ or more
is too large even if no line mark ends the digits, a smaller one only if it is ended and 64 bits do not hold the
number. What is too large is reported, by a walk and by a step, at the start of its instruction. -/
theorem Numeral.read_at_cursor (program : Program) (cursor : Nat) :
    let digits := (program.drop (cursor + 1)).takeWhile (· ≠ .line)
    let worth : Nat := Nat.ofDigits 2 (digits.reverse.map Mark.bit)
    let stop := cursor + 1 + digits.length
    let reading := read (program.drop cursor)
    (program[cursor]? = none → reading = .missing) ∧
    (∀ sign, program[cursor]? = some sign →
      (2 ^ 64 ≤ worth → reading = .overflow) ∧
      (worth < 2 ^ 64 → program[stop]? ≠ some .line → reading = .missing) ∧
      (worth < 2 ^ 64 → program[stop]? = some .line →
        (sign = .space → worth < 2 ^ 63 → ∃ value width,
          reading = .found value width ∧ cursor + width = stop + 1 ∧ value.toInt = worth) ∧
        (sign ≠ .space → worth ≤ 2 ^ 63 → ∃ value width,
          reading = .found value width ∧ cursor + width = stop + 1 ∧ value.toInt = -worth) ∧
        (sign = .space → 2 ^ 63 ≤ worth → reading = .overflow) ∧
        (sign ≠ .space → 2 ^ 63 < worth → reading = .overflow))) ∧
    (∀ start, start + 2 = cursor → [.space, .space] <+: program.drop start → reading = .overflow →
      Walk.ofMarks start 0 (program.drop start) = ⟨[], .error (.numberOverflow start)⟩ ∧
      ∀ session : Session, session.machine.program = program → session.machine.pc = start →
        session.machine.halted = false → session.machine.lastPc ≠ some start →
          ∃ after, Session.step session = .error (.numberOverflow start) after) := by
  intro digits worth stop reading
  have hworth : magnitude digits = worth := magnitude_eq_ofDigits digits
  have hstop : program[stop]? = some .line ↔ .line ∈ program.drop (cursor + 1) := by
    rw [← getElem?_length_takeWhile, List.getElem?_drop]
  refine ⟨?_, ?_, ?_⟩
  · intro hsign
    have hnil : program.drop cursor = [] := List.drop_eq_nil_iff.mpr (List.getElem?_eq_none_iff.mp hsign)
    exact congrArg read hnil
  · intro sign hsign
    obtain ⟨hlt, hmark⟩ := List.getElem?_eq_some_iff.mp hsign
    have hread : reading = read (sign :: program.drop (cursor + 1)) := by
      rw [← hmark, ← List.drop_eq_getElem_cons hlt]
    rw [read_cons] at hread
    dsimp only at hread
    rw [hworth] at hread
    refine ⟨?_, ?_, ?_⟩
    · intro hlarge
      rw [hread, if_pos hlarge]
    · intro hsmall hunended
      rw [hread, if_neg (Nat.not_le.mpr hsmall), if_neg (mt hstop.mpr hunended)]
    · intro hsmall hended
      rw [if_neg (Nat.not_le.mpr hsmall), if_pos (hstop.mp hended)] at hread
      refine ⟨?_, ?_, ?_, ?_⟩
      · intro hspace hfits
        have hlimit : if sign = .space then worth < 2 ^ 63 else worth ≤ 2 ^ 63 := by rwa [if_pos hspace]
        obtain ⟨value, hsigned, hvalue⟩ := exists_signed?_eq hlimit
        rw [if_pos hspace] at hvalue
        refine ⟨value, digits.length + 2, ?_, by omega, hvalue⟩
        rw [hread, hsigned]
      · intro hminus hfits
        have hlimit : if sign = .space then worth < 2 ^ 63 else worth ≤ 2 ^ 63 := by rwa [if_neg hminus]
        obtain ⟨value, hsigned, hvalue⟩ := exists_signed?_eq hlimit
        rw [if_neg hminus] at hvalue
        refine ⟨value, digits.length + 2, ?_, by omega, hvalue⟩
        rw [hread, hsigned]
      · intro hspace hlarge
        rw [hread, (signed?_eq_none_iff sign worth).mpr (by rwa [if_pos hspace])]
      · intro hminus hlarge
        rw [hread, (signed?_eq_none_iff sign worth).mpr (by rwa [if_neg hminus])]
  · rintro start rfl hpattern hoverflow
    have hdecode : Instruction.decodeAt program start = .overflow := by
      rw [Instruction.decodeAt_push hpattern]
      change ((reading.map Instruction.push).widen 2) = _
      rw [hoverflow]
      rfl
    refine ⟨Walk.ofMarks_of_overflow start hdecode, ?_⟩
    rintro session rfl rfl hhalted hlast
    exact Session.step_of_overflow hhalted hlast hdecode

/-- Under a line mark for its sign the least number of 64 bits has the magnitude 2⁶³. -/
theorem Numeral.read_at_cursor_least :
    ∃ value width, read (List.drop 2 ([.space, .space, .line, .tab] ++ List.replicate 63 .extra ++ [.line])) =
      .found value width ∧ 2 + width = 68 ∧ value.toInt = -2 ^ 63 := by
  obtain ⟨_, hsigned, _⟩ :=
    read_at_cursor ([.space, .space, .line, .tab] ++ List.replicate 63 .extra ++ [.line]) 2
  obtain ⟨value, width, hread, hwidth, hvalue⟩ :=
    ((hsigned .line rfl).2.2 (by decide +kernel) rfl).2.1 (by decide) (by decide +kernel)
  exact ⟨value, width, hread, hwidth, hvalue⟩

namespace Numeral

theorem length_bits (n width : Nat) : (bits n width).length = width := by
  induction width with
  | zero => rfl
  | succ width ih => rw [bits, List.length_cons, ih]

/-- A number below a power of two is written with no more digits than the exponent. -/
theorem length_digits_le {n width : Nat} (h : n < 2 ^ width) : (digits n).length ≤ width := by
  unfold digits
  split_ifs with hzero
  · exact Nat.zero_le width
  · rw [length_bits]
    exact (Nat.log2_lt hzero).mpr h

theorem magnitude_lt_two_pow (digits : List Mark) : magnitude digits < 2 ^ digits.length := by
  have hbits : ∀ bit ∈ digits.reverse.map Mark.bit, bit < 2 := by
    intro bit hbit
    obtain ⟨mark, _, rfl⟩ := List.mem_map.mp hbit
    cases mark <;> decide
  calc magnitude digits = Nat.ofDigits 2 (digits.reverse.map Mark.bit) := magnitude_eq_ofDigits digits
    _ < 2 ^ (digits.reverse.map Mark.bit).length := Nat.ofDigits_lt_base_pow_length (by decide) hbits
    _ = 2 ^ digits.length := by rw [List.length_map, List.length_reverse]

theorem natAbs_of_signed? {sign : Mark} {magnitude : Nat} {value : Int64}
    (h : signed? sign magnitude = some value) : value.toInt.natAbs = magnitude := by
  have hvalue := signed?_eq_some_iff.mp h
  split_ifs at hvalue <;> omega

theorem length_write (value : Int64) :
    (write value).length = (digits value.toInt.natAbs).length + 2 := by
  simp [write]

/-- What is written for a number is no longer than anything else that spells it. -/
theorem SpelledBy.length_write_le {value : Int64} {marks : List Mark} (h : SpelledBy value marks) :
    (write value).length ≤ marks.length := by
  obtain ⟨sign, spelled, _, hsigned, rfl⟩ := h
  have hdigits : (digits value.toInt.natAbs).length ≤ spelled.length := by
    rw [natAbs_of_signed? hsigned]
    exact length_digits_le (magnitude_lt_two_pow spelled)
  rw [length_write, List.length_cons, List.length_append, List.length_singleton]
  omega

/-- **Numbers are written as short as can be.** Behind two space marks, with any marks before and behind, what
is written for a number is decoded as pushing that number and is taken to its end. It is read as the number
to its end also by itself, and so is nothing that has fewer marks. -/
theorem write_shortest (value : Int64) :
    (∀ before after : List Mark,
      Instruction.decodeAt (before ++ [.space, .space] ++ write value ++ after) before.length =
        .found (.push value) (2 + (write value).length)) ∧
    read (write value) = .found value (write value).length ∧
    ∀ marks, read marks = .found value marks.length → (write value).length ≤ marks.length := by
  refine ⟨?_, ?_, ?_⟩
  · intro before after
    have hfree : (Instruction.push value).LineFree := by
      rintro _ ⟨⟩
    have hdecode := (Instruction.spelledBy_encode hfree).decode_append after
    rw [Instruction.decodeAt, List.append_assoc, List.append_assoc, List.drop_left, ← List.append_assoc]
    rw [Instruction.encode, List.length_append] at hdecode
    exact hdecode
  · exact (recognises_read _ _ _).mpr ⟨write value, [], (List.append_nil _).symm, rfl, spelledBy_write value⟩
  · intro marks hread
    obtain ⟨piece, rest, rfl, hlength, hspelled⟩ := (recognises_read _ _ _).mp hread
    rw [← hlength]
    exact hspelled.length_write_le

/-- Minus two is written with four marks; with other marks for the sign and the zeros, one of them in front,
it takes five. -/
theorem write_shortest_minus_two :
    read [.extra, .extra, .tab, .extra, .line] = .found (-2) 5 ∧ (write (-2)).length ≤ 5 := by
  have hread : read [.extra, .extra, .tab, .extra, .line] = .found (-2) 5 := by decide
  exact ⟨hread, (write_shortest (-2)).2.2 _ hread⟩

end Numeral

end MarkMachine
