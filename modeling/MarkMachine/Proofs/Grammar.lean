import MarkMachine.Opcode
import MarkMachine.Proofs.Operand

/-! The grammar of instructions, and decoding as the search for what it allows. An instruction is spelled
by the pattern of one row of the instruction table with that row's operand behind it. As no pattern
begins another, at most one row has anything to say at a cursor, so the order of the rows is of no
account. Decoding finds an instruction exactly where a spelling of it begins, and takes just that
spelling. -/

namespace MarkMachine

namespace Opcode

open Reading

def pattern (row : Opcode) : List Mark :=
  row.signature.pattern

/-- What a row of the instruction table spells: its pattern with an operand of its kind behind it. -/
inductive Spells (operators : List (List Mark × Operator)) : Opcode → Instruction → List Mark → Prop
  | plain (pattern : List Mark) (instruction : Instruction) :
      Spells operators (.plain pattern instruction) instruction pattern
  | number {value : Int64} {operand : List Mark} (pattern : List Mark) (build : Int64 → Instruction) :
      Numeral.SpelledBy value operand →
        Spells operators (.number pattern build) (build value) (pattern ++ operand)
  | label {label : Label} {operand : List Mark} (pattern : List Mark) (build : Label → Instruction) :
      Label.SpelledBy label operand →
        Spells operators (.label pattern build) (build label) (pattern ++ operand)
  | operator {operator : Operator} {selector : List Mark} (pattern : List Mark) :
      (selector, operator) ∈ operators →
        Spells operators (.operator pattern) (.arithmetic operator) (pattern ++ selector)

theorem Spells.pattern_prefix {operators : List (List Mark × Operator)} {row : Opcode}
    {instruction : Instruction} {piece : List Mark} (h : row.Spells operators instruction piece) :
    row.pattern <+: piece := by
  cases h with
  | plain => exact List.prefix_refl _
  | number => exact List.prefix_append _ _
  | label => exact List.prefix_append _ _
  | operator => exact List.prefix_append _ _

theorem readOperator_eq_firstOf (marks : List Mark) (operators : List (List Mark × Operator)) :
    readOperator marks operators =
      firstOf (operators.map fun row => behind row.1 (fun _ => .found row.2 0) marks) := by
  induction operators with
  | nil => rfl
  | cons row rows ih =>
      rw [readOperator, ih, Signature.read, map_behind, List.map_cons, firstOf]
      rfl

/-- The rows of an operator table exclude each other when their patterns stand apart. -/
theorem exclusive_operators {operators : List (List Mark × Operator)}
    (hapart : operators.Pairwise fun first second => Apart first.1 second.1) :
    Exclusive (fun row : List Mark × Operator => behind row.1 fun _ => .found row.2 0) operators := by
  refine hapart.imp fun h marks => ?_
  exact (h.not_prefix marks).imp (behind_eq_missing · _) (behind_eq_missing · _)

theorem recognises_readOperator {operators : List (List Mark × Operator)}
    (hapart : operators.Pairwise fun first second => Apart first.1 second.1) :
    Recognises (readOperator · operators) fun operator selector => (selector, operator) ∈ operators := by
  refine (recognises_firstOf (fun row _ => (recognises_nothing row.2).behind row.1)
    (exclusive_operators hapart)).congr (readOperator_eq_firstOf · operators) fun operator selector => ?_
  constructor
  · intro hrow
    exact ⟨_, hrow, [], (List.append_nil _).symm, rfl, rfl⟩
  · rintro ⟨row, hrow, _, rfl, rfl, rfl⟩
    rwa [List.append_nil]

section Rows

variable (operators : List (List Mark × Operator)) (marks : List Mark)

theorem read_eq_behind (row : Opcode) :
    row.read operators marks = behind row.pattern (fun rest =>
      (Operand.read row.signature.operand rest).andThen fun operand width =>
        row.build operators operand (rest.drop width)) marks := by
  rw [read, Signature.read]
  exact behind_andThen row.pattern _ (row.build operators) marks

theorem read_plain (pattern : List Mark) (instruction : Instruction) :
    (plain pattern instruction).read operators marks =
      behind pattern (fun _ => .found instruction 0) marks :=
  read_eq_behind operators marks _

theorem read_number (pattern : List Mark) (build : Int64 → Instruction) :
    (number pattern build).read operators marks =
      behind pattern (fun rest => (Numeral.read rest).map build) marks := by
  rw [read_eq_behind]
  congr 1
  funext rest
  exact map_andThen (fun _ _ => rfl) (Numeral.read rest)

theorem read_label (pattern : List Mark) (build : Label → Instruction) :
    (label pattern build).read operators marks =
      behind pattern (fun rest => (Label.read rest).map build) marks := by
  rw [read_eq_behind]
  congr 1
  funext rest
  exact map_andThen (fun _ _ => rfl) (Label.read rest)

theorem read_operator (pattern : List Mark) :
    (operator pattern).read operators marks =
      behind pattern (fun rest => (readOperator rest operators).map .arithmetic) marks := by
  rw [read_eq_behind]
  congr 1
  funext rest
  exact widen_zero _

end Rows

theorem read_eq_missing {row : Opcode} {marks : List Mark} (h : ¬row.pattern <+: marks)
    (operators : List (List Mark × Operator)) : row.read operators marks = .missing := by
  rw [read_eq_behind]
  exact behind_eq_missing h _

theorem recognises_read {operators : List (List Mark × Operator)}
    (hapart : operators.Pairwise fun first second => Apart first.1 second.1) (row : Opcode) :
    Recognises (row.read operators) (row.Spells operators) := by
  cases row with
  | plain pattern instruction =>
      refine ((recognises_nothing instruction).behind pattern).congr (read_plain operators · _ _)
        fun _ _ => ?_
      constructor
      · rintro ⟨⟩
        exact ⟨[], (List.append_nil pattern).symm, rfl, rfl⟩
      · rintro ⟨_, rfl, rfl, rfl⟩
        rw [List.append_nil]
        exact .plain pattern _
  | number pattern build =>
      refine ((Numeral.recognises_read.map build).behind pattern).congr (read_number operators · _ _)
        fun _ _ => ?_
      constructor
      · rintro ⟨⟩
        exact ⟨_, rfl, _, ‹_›, rfl⟩
      · rintro ⟨_, rfl, _, hvalue, rfl⟩
        exact .number pattern build hvalue
  | label pattern build =>
      refine ((Label.recognises_read.map build).behind pattern).congr (read_label operators · _ _)
        fun _ _ => ?_
      constructor
      · rintro ⟨⟩
        exact ⟨_, rfl, _, ‹_›, rfl⟩
      · rintro ⟨_, rfl, _, hlabel, rfl⟩
        exact .label pattern build hlabel
  | operator pattern =>
      refine (((recognises_readOperator hapart).map .arithmetic).behind pattern).congr
        (read_operator operators · _) fun _ _ => ?_
      constructor
      · rintro ⟨⟩
        exact ⟨_, rfl, _, ‹_›, rfl⟩
      · rintro ⟨_, rfl, _, hoperator, rfl⟩
        exact .operator pattern hoperator

theorem exclusive_rows {rows : List Opcode}
    (hrows : rows.Pairwise fun first second => Apart first.pattern second.pattern)
    (operators : List (List Mark × Operator)) : Exclusive (read operators) rows := by
  refine hrows.imp fun h marks => ?_
  exact (h.not_prefix marks).imp (read_eq_missing · operators) (read_eq_missing · operators)

/-- The first row that is found decides, whatever it comes to, since no other is found beside it. -/
theorem decodeWith_eq_firstOf {rows : List Opcode}
    (hrows : rows.Pairwise fun first second => Apart first.pattern second.pattern)
    (operators : List (List Mark × Operator)) (marks : List Mark) :
    decodeWith operators marks rows = firstOf (rows.map fun row => row.read operators marks) := by
  induction rows with
  | nil => rfl
  | cons row rows ih =>
      rw [List.pairwise_cons] at hrows
      rw [decodeWith, List.map_cons, firstOf]
      by_cases hmissing : row.signature.read marks = .missing
      · have hread : row.read operators marks = .missing := by rw [read, hmissing, andThen]
        rw [hread, hmissing]
        exact ih hrows.2
      · have hpattern : row.pattern <+: marks := by
          by_contra hpattern
          exact hmissing (behind_eq_missing hpattern _)
        have hothers : firstOf (rows.map fun row => row.read operators marks) = .missing := by
          rw [firstOf_eq_missing_iff]
          intro reading hreading
          obtain ⟨other, hother, rfl⟩ := List.mem_map.mp hreading
          have hapart := hrows.1 other hother
          apply read_eq_missing
          exact (hapart.not_prefix marks).resolve_left (not_not_intro hpattern)
        rw [hothers]
        cases hsignature : row.signature.read marks with
        | missing => exact absurd hsignature hmissing
        | found operand width => cases row.read operators marks <;> rfl
        | overflow => cases row.read operators marks <;> rfl

/-- Decoding with tables whose patterns stand apart finds exactly what their rows spell. -/
theorem recognises_decodeWith {operators : List (List Mark × Operator)} {rows : List Opcode}
    (hoperators : operators.Pairwise fun first second => Apart first.1 second.1)
    (hrows : rows.Pairwise fun first second => Apart first.pattern second.pattern) :
    Recognises (decodeWith operators · rows) fun instruction piece =>
      ∃ row ∈ rows, row.Spells operators instruction piece :=
  (recognises_firstOf (fun row _ => recognises_read hoperators row) (exclusive_rows hrows operators)).congr
    (decodeWith_eq_firstOf hrows operators ·) fun _ _ => Iff.rfl

theorem operators_apart : operators.Pairwise fun first second => Apart first.1 second.1 := by
  decide

theorem primary_apart : primary.Pairwise fun first second => Apart first.pattern second.pattern := by
  decide

theorem pattern_ne_nil {row : Opcode} (h : row ∈ primary) : row.pattern ≠ [] := by
  revert row
  decide

/-- At any cursor, also past the end, a row is read by way of its signature there. -/
theorem read_drop_eq_readAt {row : Opcode} (h : row ∈ primary) (operators : List (List Mark × Operator))
    (program : List Mark) (cursor : Nat) :
    row.read operators (program.drop cursor) =
      (row.signature.readAt program cursor).andThen fun operand width =>
        row.build operators operand (program.drop (cursor + width)) := by
  unfold Signature.readAt
  split_ifs with hcursor
  · simp only [read, List.drop_drop]
  · have hend : program.drop cursor = [] := List.drop_eq_nil_of_le (by omega)
    rw [hend]
    apply read_eq_missing
    rw [List.prefix_nil]
    exact pattern_ne_nil h

end Opcode

namespace Instruction

/-- The marks that spell an instruction, as the instruction table has them. -/
def SpelledBy (instruction : Instruction) (marks : List Mark) : Prop :=
  ∃ row ∈ Opcode.primary, row.Spells Opcode.operators instruction marks

theorem recognises_decode : Reading.Recognises decode SpelledBy :=
  Opcode.recognises_decodeWith Opcode.operators_apart Opcode.primary_apart

theorem SpelledBy.length_pos {instruction : Instruction} {piece : List Mark}
    (h : instruction.SpelledBy piece) : 0 < piece.length := by
  obtain ⟨row, hrow, hspells⟩ := h
  have hpattern := List.length_pos_iff.mpr (Opcode.pattern_ne_nil hrow)
  exact Nat.lt_of_lt_of_le hpattern hspells.pattern_prefix.length_le

theorem SpelledBy.decode_append {instruction : Instruction} {piece : List Mark}
    (h : instruction.SpelledBy piece) (rest : List Mark) :
    decode (piece ++ rest) = .found instruction piece.length :=
  (recognises_decode _ _ _).mpr ⟨piece, rest, rfl, rfl, h⟩

theorem decode_nil : decode [] = .missing := by
  decide

theorem decode_line : decode [.line] = .missing := by
  decide

/-- The label of an instruction, if it has one, has no line mark. -/
def LineFree (instruction : Instruction) : Prop :=
  ∀ label, instruction.label? = some label → .line ∉ label

theorem spelledBy_encode {instruction : Instruction} (h : instruction.LineFree) :
    instruction.SpelledBy instruction.encode := by
  have hlabel {label : Label} (hlabel : instruction.label? = some label) :
      Label.SpelledBy label label.write := ⟨h label hlabel, rfl⟩
  cases instruction with
  | push value => exact ⟨_, by simp [Opcode.primary], .number _ .push (Numeral.spelledBy_write value)⟩
  | arithmetic operator =>
      refine ⟨_, by simp [Opcode.primary], .operator [.tab, .space] ?_⟩
      cases operator <;> simp [Opcode.operators, operatorCode]
  | define label => exact ⟨_, by simp [Opcode.primary], .label _ .define (hlabel rfl)⟩
  | call label => exact ⟨_, by simp [Opcode.primary], .label _ .call (hlabel rfl)⟩
  | jump label => exact ⟨_, by simp [Opcode.primary], .label _ .jump (hlabel rfl)⟩
  | jumpIfZero label => exact ⟨_, by simp [Opcode.primary], .label _ .jumpIfZero (hlabel rfl)⟩
  | jumpIfNegative label => exact ⟨_, by simp [Opcode.primary], .label _ .jumpIfNegative (hlabel rfl)⟩
  | _ => exact ⟨_, by simp [Opcode.primary, encode], .plain _ _⟩

end Instruction

end MarkMachine
