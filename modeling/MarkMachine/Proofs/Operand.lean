import MarkMachine.Label
import MarkMachine.Numeral
import Mathlib.Tactic.Ring
import Mathlib.Tactic.SplitIfs

/-! Readers and what they recognise. A reader recognises a relation between values and their spellings
when it finds a value exactly where a spelling of it begins, and takes just that spelling; a table of
readers of which at most one answers at any cursor recognises what any of its rows does. The operands
are recognised so: a label by its own marks and a line mark, a number by a sign, any digits worth it
under that sign, and a line mark. -/

namespace MarkMachine

namespace Reading

variable {α β : Type}

/-- The first of some readings that found something or overflowed. -/
def firstOf : List (Reading α) → Reading α
  | [] => .missing
  | reading :: rest => reading.orElse fun _ => firstOf rest

theorem firstOf_mem {readings : List (Reading α)} (h : firstOf readings ≠ .missing) :
    firstOf readings ∈ readings := by
  induction readings with
  | nil => exact absurd rfl h
  | cons reading rest ih =>
      cases reading with
      | missing => exact List.mem_cons_of_mem _ (ih h)
      | found value width => exact List.mem_cons_self
      | overflow => exact List.mem_cons_self

theorem firstOf_eq_missing_iff {readings : List (Reading α)} :
    firstOf readings = .missing ↔ ∀ reading ∈ readings, reading = .missing := by
  induction readings with
  | nil => simp [firstOf]
  | cons reading rest ih => cases reading <;> simp [firstOf, orElse, ih]

/-- Where at most one reading came to anything, that one is the first. -/
theorem firstOf_eq_of_mem {readings : List (Reading α)} {reading : Reading α}
    (hapart : readings.Pairwise fun first second => first = .missing ∨ second = .missing)
    (hmem : reading ∈ readings) (hne : reading ≠ .missing) : firstOf readings = reading := by
  induction readings with
  | nil => exact absurd hmem List.not_mem_nil
  | cons head rest ih =>
      rw [List.pairwise_cons] at hapart
      rcases List.mem_cons.mp hmem with rfl | hrest
      · cases reading with
        | missing => exact absurd rfl hne
        | found value width => rfl
        | overflow => rfl
      · have hhead : head = .missing := (hapart.1 reading hrest).resolve_right hne
        rw [hhead]
        exact ih hapart.2 hrest

theorem map_eq_found_iff {reading : Reading α} {f : α → β} {value : β} {width : Nat} :
    reading.map f = .found value width ↔ ∃ source, reading = .found source width ∧ f source = value := by
  cases reading with
  | missing => simp [map]
  | overflow => simp [map]
  | found source width' =>
      simp only [map, found.injEq]
      constructor
      · rintro ⟨rfl, rfl⟩
        exact ⟨source, ⟨rfl, rfl⟩, rfl⟩
      · rintro ⟨_, ⟨rfl, rfl⟩, rfl⟩
        exact ⟨rfl, rfl⟩

theorem widen_eq_found_iff {reading : Reading α} {extra : Nat} {value : α} {width : Nat} :
    reading.widen extra = .found value width ↔
      ∃ inner, reading = .found value inner ∧ width = extra + inner := by
  cases reading with
  | missing => simp [widen]
  | overflow => simp [widen]
  | found source inner =>
      simp only [widen, found.injEq]
      constructor
      · rintro ⟨rfl, rfl⟩
        exact ⟨inner, ⟨rfl, rfl⟩, rfl⟩
      · rintro ⟨_, ⟨rfl, rfl⟩, rfl⟩
        exact ⟨rfl, rfl⟩

theorem widen_zero (reading : Reading α) : reading.widen 0 = reading := by
  cases reading <;> simp [widen]

theorem widen_widen (reading : Reading α) (inner outer : Nat) :
    (reading.widen inner).widen outer = reading.widen (outer + inner) := by
  cases reading <;> simp [widen, Nat.add_assoc]

theorem behind_append (pattern : List Mark) (read : List Mark → Reading α) (rest : List Mark) :
    behind pattern read (pattern ++ rest) = (read rest).widen pattern.length := by
  have hpattern : pattern.isPrefixOf (pattern ++ rest) = true :=
    List.isPrefixOf_iff_prefix.mpr (List.prefix_append pattern rest)
  rw [behind, if_pos hpattern, List.drop_left]

theorem behind_eq_missing {pattern marks : List Mark} (h : ¬pattern <+: marks)
    (read : List Mark → Reading α) : behind pattern read marks = .missing := by
  rw [behind, if_neg]
  exact fun hpattern => h (List.isPrefixOf_iff_prefix.mp hpattern)

theorem map_behind (pattern : List Mark) (read : List Mark → Reading α) (f : α → β) (marks : List Mark) :
    (behind pattern read marks).map f = behind pattern (fun rest => (read rest).map f) marks := by
  unfold behind
  split_ifs
  · dsimp only
    cases read (marks.drop pattern.length) <;> rfl
  · rfl

/-- Going on behind what was found behind a pattern is reading more behind the pattern. -/
theorem behind_andThen (pattern : List Mark) (read : List Mark → Reading α)
    (next : α → List Mark → Reading β) (marks : List Mark) :
    ((behind pattern read marks).andThen fun value width => next value (marks.drop width)) =
      behind pattern (fun rest => (read rest).andThen fun value width => next value (rest.drop width))
        marks := by
  unfold behind
  split_ifs
  · dsimp only
    cases read (marks.drop pattern.length) with
    | found value width =>
        show (next value (marks.drop (pattern.length + width))).widen (pattern.length + width) =
          ((next value ((marks.drop pattern.length).drop width)).widen width).widen pattern.length
        rw [widen_widen, List.drop_drop]
    | missing => rfl
    | overflow => rfl
  · rfl

/-- Where nothing more is read behind what was found, going on is a change of the value. -/
theorem map_andThen {γ : Type} {f : α → γ} {next : γ → Nat → Reading β} {g : α → β}
    (h : ∀ value width, next (f value) width = .found (g value) 0) (reading : Reading α) :
    (reading.map f).andThen next = reading.map g := by
  cases reading with
  | found value width =>
      show (next (f value) width).widen width = .found (g value) width
      rw [h, widen, Nat.add_zero]
  | missing => rfl
  | overflow => rfl

/-- A reader finds exactly what a relation says is spelled at the front, and takes the spelling. -/
def Recognises (read : List Mark → Reading α) (spells : α → List Mark → Prop) : Prop :=
  ∀ marks value width, read marks = .found value width ↔
    ∃ piece rest, marks = piece ++ rest ∧ piece.length = width ∧ spells value piece

theorem Recognises.congr {read read' : List Mark → Reading α} {spells spells' : α → List Mark → Prop}
    (h : Recognises read spells) (hread : ∀ marks, read' marks = read marks)
    (hspells : ∀ value piece, spells' value piece ↔ spells value piece) : Recognises read' spells' := by
  intro marks value width
  simp only [hread, hspells]
  exact h marks value width

theorem Recognises.map {read : List Mark → Reading α} {spells : α → List Mark → Prop}
    (h : Recognises read spells) (f : α → β) :
    Recognises (fun marks => (read marks).map f) fun value piece =>
      ∃ source, spells source piece ∧ f source = value := by
  intro marks value width
  rw [map_eq_found_iff]
  constructor
  · rintro ⟨source, hread, hf⟩
    obtain ⟨piece, rest, hmarks, hlength, hspells⟩ := (h marks source width).mp hread
    exact ⟨piece, rest, hmarks, hlength, source, hspells, hf⟩
  · rintro ⟨piece, rest, hmarks, hlength, source, hspells, hf⟩
    exact ⟨source, (h marks source width).mpr ⟨piece, rest, hmarks, hlength, hspells⟩, hf⟩

theorem Recognises.behind {read : List Mark → Reading α} {spells : α → List Mark → Prop}
    (h : Recognises read spells) (pattern : List Mark) :
    Recognises (Reading.behind pattern read) fun value piece =>
      ∃ operand, piece = pattern ++ operand ∧ spells value operand := by
  intro marks value width
  constructor
  · intro hread
    by_cases hpattern : pattern <+: marks
    · obtain ⟨after, rfl⟩ := hpattern
      rw [behind_append, widen_eq_found_iff] at hread
      obtain ⟨inner, hinner, rfl⟩ := hread
      obtain ⟨operand, rest, rfl, rfl, hspells⟩ := (h after value inner).mp hinner
      exact ⟨pattern ++ operand, rest, (List.append_assoc ..).symm, List.length_append, operand, rfl,
        hspells⟩
    · rw [behind_eq_missing hpattern] at hread
      cases hread
  · rintro ⟨_, rest, rfl, rfl, operand, rfl, hspells⟩
    have hinner : read (operand ++ rest) = .found value operand.length :=
      (h _ _ _).mpr ⟨operand, rest, rfl, rfl, hspells⟩
    rw [List.append_assoc, behind_append, hinner, widen, List.length_append]

/-- Reading nothing finds the empty spelling everywhere. -/
theorem recognises_nothing (value : α) :
    Recognises (fun _ => .found value 0) fun found piece => found = value ∧ piece = [] := by
  intro marks found width
  simp only [Reading.found.injEq]
  constructor
  · rintro ⟨rfl, rfl⟩
    exact ⟨[], marks, rfl, rfl, rfl, rfl⟩
  · rintro ⟨_, _, _, rfl, rfl, rfl⟩
    exact ⟨rfl, rfl⟩

/-- Of the rows of a table at most one answers at any cursor. -/
def Exclusive {ρ : Type} (read : ρ → List Mark → Reading α) (rows : List ρ) : Prop :=
  rows.Pairwise fun first second => ∀ marks, read first marks = .missing ∨ read second marks = .missing

/-- A table whose rows exclude each other finds what any of its rows spells. -/
theorem recognises_firstOf {ρ : Type} {read : ρ → List Mark → Reading α}
    {spells : ρ → α → List Mark → Prop} {rows : List ρ}
    (hrows : ∀ row ∈ rows, Recognises (read row) (spells row)) (hexclusive : Exclusive read rows) :
    Recognises (fun marks => firstOf (rows.map (read · marks))) fun value piece =>
      ∃ row ∈ rows, spells row value piece := by
  intro marks value width
  have hapart : (rows.map (read · marks)).Pairwise fun first second =>
      first = .missing ∨ second = .missing :=
    List.pairwise_map.mpr (hexclusive.imp fun h => h marks)
  constructor
  · intro (hfirst : firstOf (rows.map (read · marks)) = .found value width)
    have hmem : firstOf (rows.map (read · marks)) ∈ rows.map (read · marks) :=
      firstOf_mem (by simp [hfirst])
    rw [hfirst, List.mem_map] at hmem
    obtain ⟨row, hrow, hread⟩ := hmem
    obtain ⟨piece, rest, hmarks, hlength, hspells⟩ := (hrows row hrow marks value width).mp hread
    exact ⟨piece, rest, hmarks, hlength, row, hrow, hspells⟩
  · rintro ⟨piece, rest, hmarks, hlength, row, hrow, hspells⟩
    have hread : read row marks = .found value width :=
      (hrows row hrow marks value width).mpr ⟨piece, rest, hmarks, hlength, hspells⟩
    refine firstOf_eq_of_mem hapart ?_ (by simp)
    exact List.mem_map.mpr ⟨row, hrow, hread⟩

/-- Neither of two patterns begins the other. -/
def Apart (first second : List Mark) : Prop :=
  ¬first <+: second ∧ ¬second <+: first

instance (first second : List Mark) : Decidable (Apart first second) :=
  inferInstanceAs (Decidable (_ ∧ _))

theorem Apart.not_prefix {first second : List Mark} (h : Apart first second) (marks : List Mark) :
    ¬first <+: marks ∨ ¬second <+: marks := by
  by_cases hfirst : first <+: marks
  · refine .inr fun hsecond => ?_
    rcases List.prefix_or_prefix_of_prefix hfirst hsecond with hprefix | hprefix
    · exact h.1 hprefix
    · exact h.2 hprefix
  · exact .inl hfirst

end Reading

namespace Label

theorem read_append {label : Label} (hline : .line ∉ label) (rest : List Mark) :
    read (label ++ .line :: rest) = .found label (label.length + 1) := by
  induction label with
  | nil => rfl
  | cons mark label ih =>
      have htail : Mark.line ∉ label := fun h => hline (List.mem_cons_of_mem _ h)
      cases mark with
      | line => exact absurd List.mem_cons_self hline
      | _ => simp only [List.cons_append, read, ih htail, Reading.widen, Reading.map, List.length_cons,
          Nat.add_comm 1]

theorem read_eq_missing {marks : List Mark} (hline : .line ∉ marks) : read marks = .missing := by
  induction marks with
  | nil => rfl
  | cons mark marks ih =>
      have htail : Mark.line ∉ marks := fun h => hline (List.mem_cons_of_mem _ h)
      cases mark with
      | line => exact absurd List.mem_cons_self hline
      | _ => simp only [read, ih htail, Reading.widen, Reading.map]

/-- A label operand is a label without line marks and a line mark. -/
def SpelledBy (label : Label) (marks : List Mark) : Prop :=
  .line ∉ label ∧ marks = label.write

theorem recognises_read : Reading.Recognises read SpelledBy := by
  intro marks label width
  constructor
  · intro hread
    by_cases hline : Mark.line ∈ marks
    · obtain ⟨front, rest, rfl, hfront⟩ := List.eq_append_cons_of_mem hline
      rw [read_append hfront, Reading.found.injEq] at hread
      obtain ⟨rfl, rfl⟩ := hread
      exact ⟨Label.write front, rest, by simp [write], by simp [write], hfront, rfl⟩
    · rw [read_eq_missing hline] at hread
      cases hread
  · rintro ⟨_, rest, rfl, rfl, hline, rfl⟩
    rw [write, List.append_assoc, List.singleton_append, read_append hline, List.length_append,
      List.length_singleton]

end Label

namespace Numeral

/-- The number that digits stand for, when those before them are worth `start`. -/
def magnitudeFrom (start : Nat) (digits : List Mark) : Nat :=
  digits.foldl (fun magnitude digit => 2 * magnitude + digit.bit) start

def magnitude (digits : List Mark) : Nat :=
  magnitudeFrom 0 digits

theorem magnitudeFrom_cons (start : Nat) (digit : Mark) (digits : List Mark) :
    magnitudeFrom start (digit :: digits) = magnitudeFrom (2 * start + digit.bit) digits := rfl

theorem le_magnitudeFrom (start : Nat) (digits : List Mark) : start ≤ magnitudeFrom start digits := by
  induction digits generalizing start with
  | nil => exact Nat.le_refl start
  | cons digit digits ih =>
      have hrest := ih (2 * start + digit.bit)
      rw [magnitudeFrom_cons]
      omega

theorem readMagnitude_cons {digit : Mark} (hdigit : digit ≠ .line) (start : Nat) (rest : List Mark) :
    readMagnitude start (digit :: rest) =
      if 2 * start + digit.bit < UInt64.size then (readMagnitude (2 * start + digit.bit) rest).widen 1
      else .overflow := by
  cases digit with
  | line => exact absurd rfl hdigit
  | _ => rfl

/-- Digits are worth their number to what is read behind them, unless it passes 64 bits. -/
theorem readMagnitude_append {start : Nat} {digits : List Mark} (hstart : start < UInt64.size)
    (hline : .line ∉ digits) (rest : List Mark) :
    readMagnitude start (digits ++ rest) =
      if magnitudeFrom start digits < UInt64.size then
        (readMagnitude (magnitudeFrom start digits) rest).widen digits.length
      else .overflow := by
  induction digits generalizing start with
  | nil =>
      rw [if_pos (show magnitudeFrom start [] < UInt64.size from hstart), List.length_nil, Reading.widen_zero]
      rfl
  | cons digit digits ih =>
      rw [List.mem_cons, not_or] at hline
      have hgrow := le_magnitudeFrom (2 * start + digit.bit) digits
      rw [List.cons_append, readMagnitude_cons (Ne.symm hline.1), magnitudeFrom_cons]
      by_cases hnext : 2 * start + digit.bit < UInt64.size
      · rw [if_pos hnext, ih hnext hline.2]
        split_ifs
        · rw [Reading.widen_widen, List.length_cons, Nat.add_comm 1]
        · rfl
      · rw [if_neg hnext, if_neg (by omega)]

/-- A number operand is a sign, digits without line marks that are worth the number under that sign,
and a line mark. -/
def SpelledBy (value : Int64) (marks : List Mark) : Prop :=
  ∃ sign digits, .line ∉ digits ∧ signed? sign (magnitude digits) = some value ∧
    marks = sign :: (digits ++ [.line])

theorem magnitude_lt_of_signed? {sign : Mark} {magnitude : Nat} {value : Int64}
    (h : signed? sign magnitude = some value) : magnitude < UInt64.size := by
  have hsize : UInt64.size = 2 ^ 64 := rfl
  have hmax := Int64.toInt_maxValue
  have hmin := Int64.toInt_minValue
  unfold signed? at h
  split_ifs at h <;> omega

/-- A number operand that a line mark ends is worth its digits under its sign, if that fits. -/
theorem read_append {digits : List Mark} (hline : .line ∉ digits) (sign : Mark) (rest : List Mark) :
    read (sign :: (digits ++ .line :: rest)) =
      match signed? sign (magnitude digits) with
      | some value => .found value (digits.length + 2)
      | none => .overflow := by
  have hdigits : readMagnitude 0 (digits ++ .line :: rest) =
      if magnitude digits < UInt64.size then .found (magnitude digits) (digits.length + 1) else .overflow :=
    readMagnitude_append (by decide) hline (.line :: rest)
  cases hsigned : signed? sign (magnitude digits) with
  | none =>
      rw [read, hdigits]
      split_ifs <;> simp only [hsigned]
  | some value =>
      rw [if_pos (magnitude_lt_of_signed? hsigned)] at hdigits
      simp only [read, hdigits, hsigned, Nat.add_comm 1]

/-- Without a line mark to end it a number operand is not there, or too large before that shows. -/
theorem read_unended {digits : List Mark} (hline : .line ∉ digits) (sign : Mark) :
    read (sign :: digits) = if magnitude digits < UInt64.size then .missing else .overflow := by
  have hdigits : readMagnitude 0 (digits ++ []) =
      if magnitude digits < UInt64.size then .missing else .overflow :=
    readMagnitude_append (by decide) hline []
  rw [List.append_nil] at hdigits
  rw [read, hdigits]
  split_ifs <;> rfl

theorem recognises_read : Reading.Recognises read SpelledBy := by
  intro marks value width
  constructor
  · intro hread
    cases marks with
    | nil => cases hread
    | cons sign marks =>
        by_cases hline : Mark.line ∈ marks
        · obtain ⟨digits, rest, rfl, hdigits⟩ := List.eq_append_cons_of_mem hline
          rw [read_append hdigits] at hread
          cases hsigned : signed? sign (magnitude digits) with
          | none =>
              rw [hsigned] at hread
              cases hread
          | some number =>
              rw [hsigned] at hread
              cases hread
              exact ⟨sign :: (digits ++ [.line]), rest, by simp, by simp, sign, digits, hdigits, hsigned,
                rfl⟩
        · rw [read_unended hline] at hread
          split_ifs at hread
  · rintro ⟨_, rest, rfl, rfl, sign, digits, hdigits, hsigned, rfl⟩
    rw [List.cons_append, List.append_assoc, List.singleton_append, read_append hdigits, hsigned]
    simp

theorem magnitudeFrom_bits (start n width : Nat) :
    magnitudeFrom start (bits n width) = start * 2 ^ width + n % 2 ^ width := by
  induction width generalizing start with
  | zero => simp [bits, magnitudeFrom, Nat.mod_one]
  | succ width ih =>
      have hbit : (if n.testBit width then Mark.tab else .space).bit = (n.testBit width).toNat := by
        cases n.testBit width <;> rfl
      rw [bits, magnitudeFrom_cons, ih, hbit, Nat.toNat_testBit, Nat.mod_pow_succ, Nat.pow_succ]
      ring

theorem magnitude_digits (n : Nat) : magnitude (digits n) = n := by
  unfold digits
  split_ifs with hzero
  · exact hzero.symm
  · rw [magnitude, magnitudeFrom_bits, Nat.zero_mul, Nat.zero_add, Nat.mod_eq_of_lt Nat.lt_log2_self]

theorem line_notMem_bits (n width : Nat) : .line ∉ bits n width := by
  induction width with
  | zero => exact List.not_mem_nil
  | succ width ih =>
      rw [bits, List.mem_cons, not_or]
      refine ⟨?_, ih⟩
      split_ifs <;> decide

theorem line_notMem_digits (n : Nat) : .line ∉ digits n := by
  unfold digits
  split_ifs
  · exact List.not_mem_nil
  · exact line_notMem_bits n _

/-- The written sign and magnitude are those of the number, for the least number too. -/
theorem signed?_natAbs (value : Int64) :
    signed? (if value < 0 then .tab else .space) value.toInt.natAbs = some value := by
  have hlow := value.le_toInt
  have hhigh := value.toInt_lt
  have hmax := Int64.toInt_maxValue
  have hmin := Int64.toInt_minValue
  have hzero : (0 : Int64).toInt = 0 := rfl
  by_cases hneg : value < 0
  · have hlt := Int64.lt_iff_toInt_lt.mp hneg
    have hvalue : -(value.toInt.natAbs : Int) = value.toInt := by omega
    rw [if_pos hneg, signed?, if_neg (by decide), if_pos (by omega), hvalue, Int64.ofInt_toInt]
  · have hle := mt Int64.lt_iff_toInt_lt.mpr hneg
    have hvalue : (value.toInt.natAbs : Int) = value.toInt := by omega
    rw [if_neg hneg, signed?, if_pos rfl, if_pos (by omega), hvalue, Int64.ofInt_toInt]

/-- Only the bits of digits count, and only from the first that is not zero. -/
theorem magnitude_eq_foldl (digits : List Mark) :
    magnitude digits =
      ((digits.map Mark.bit).dropWhile (· = 0)).foldl (fun magnitude bit => 2 * magnitude + bit) 0 := by
  induction digits with
  | nil => rfl
  | cons digit digits ih =>
      rw [List.map_cons, List.dropWhile_cons, magnitude, magnitudeFrom_cons]
      split_ifs with hzero
      · rw [of_decide_eq_true hzero, ← ih]
        rfl
      · rw [List.foldl_cons, List.foldl_map]
        rfl

theorem magnitude_of_signed?_zero {sign : Mark} {magnitude : Nat} (h : signed? sign magnitude = some 0) :
    magnitude = 0 := by
  have hzero : (0 : Int64).toInt = 0 := rfl
  have hmax := Int64.toInt_maxValue
  have hmin := Int64.toInt_minValue
  unfold signed? at h
  split_ifs at h
  · have hvalue := congrArg Int64.toInt (Option.some.inj h)
    rw [Int64.toInt_ofInt_of_le (by omega) (by omega), hzero] at hvalue
    omega
  · have hvalue := congrArg Int64.toInt (Option.some.inj h)
    rw [Int64.toInt_ofInt_of_le (by omega) (by omega), hzero] at hvalue
    omega

/-- A number keeps its worth under other marks for its bits, with more or fewer leading zeros, and under
another sign of the same meaning; zero does under any sign. -/
theorem spelledBy_of_respelled {value : Int64} {sign sign' : Mark} {digits digits' : List Mark}
    (hvalue : signed? sign (magnitude digits) = some value) (hline : .line ∉ digits')
    (hdigits : (digits'.map Mark.bit).dropWhile (· = 0) = (digits.map Mark.bit).dropWhile (· = 0))
    (hsign : (sign' = .space ↔ sign = .space) ∨ value = 0) :
    SpelledBy value (sign' :: (digits' ++ [.line])) := by
  refine ⟨sign', digits', hline, ?_, rfl⟩
  rw [magnitude_eq_foldl, hdigits, ← magnitude_eq_foldl]
  rcases hsign with hsign | rfl
  · rw [← hvalue, signed?, signed?]
    exact if_congr hsign rfl rfl
  · rw [magnitude_of_signed?_zero hvalue]
    cases sign' <;> rfl

theorem spelledBy_write (value : Int64) : SpelledBy value (write value) := by
  refine ⟨_, digits value.toInt.natAbs, line_notMem_digits _, ?_, rfl⟩
  rw [magnitude_digits]
  exact signed?_natAbs value

end Numeral

end MarkMachine
