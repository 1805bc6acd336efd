import Mathlib.Data.List.Pairwise
import MarkMachine.Proofs.Decoding

/-! The order of the two tables. As no pattern of a table begins another, at any cursor at most one row has
its pattern there, and what is read with the table is what that row reads, even if it then finds nothing or
too large a number. So the rows can be tried in any order. -/

namespace MarkMachine

namespace Reading

variable {α : Type}

/-- Where at most one reading came to anything, their order is of no account. -/
theorem firstOf_perm {readings others : List (Reading α)} (hperm : readings.Perm others)
    (hapart : readings.Pairwise fun first second => first = .missing ∨ second = .missing) :
    firstOf readings = firstOf others := by
  by_cases hmissing : firstOf others = .missing
  · rw [hmissing, firstOf_eq_missing_iff]
    intro reading hreading
    exact firstOf_eq_missing_iff.mp hmissing reading (hperm.mem_iff.mp hreading)
  · apply firstOf_eq_of_mem hapart _ hmissing
    exact hperm.mem_iff.mpr (firstOf_mem hmissing)

theorem firstOf_map_perm {ρ : Type} {read : ρ → List Mark → Reading α} {rows rows' : List ρ}
    (hperm : rows.Perm rows') (hexclusive : Exclusive read rows) (marks : List Mark) :
    firstOf (rows.map (read · marks)) = firstOf (rows'.map (read · marks)) := by
  apply firstOf_perm (hperm.map _)
  exact List.pairwise_map.mpr (hexclusive.imp fun h => h marks)

theorem Apart.symm {first second : List Mark} (h : Apart first second) : Apart second first :=
  ⟨h.2, h.1⟩

end Reading

namespace Opcode

open Reading

variable {operators operators' : List (List Mark × Operator)} {rows rows' : List Opcode}

theorem readOperator_perm (hperm : operators.Perm operators')
    (hapart : operators.Pairwise fun first second => Apart first.1 second.1) (marks : List Mark) :
    readOperator marks operators = readOperator marks operators' := by
  rw [readOperator_eq_firstOf, readOperator_eq_firstOf]
  exact firstOf_map_perm hperm (exclusive_operators hapart) marks

/-- A row reads the same with the operators in any order. -/
theorem read_perm (hperm : operators.Perm operators')
    (hapart : operators.Pairwise fun first second => Apart first.1 second.1) (row : Opcode)
    (marks : List Mark) : row.read operators marks = row.read operators' marks := by
  cases row with
  | plain pattern instruction => rw [read_plain, read_plain]
  | number pattern build => rw [read_number, read_number]
  | label pattern build => rw [read_label, read_label]
  | operator pattern => simp only [read_operator, readOperator_perm hperm hapart]

/-- Decoding comes to the same with the rows of both tables in any order. -/
theorem decodeWith_perm (hoperators : operators.Perm operators') (hrows : rows.Perm rows')
    (hoperatorsApart : operators.Pairwise fun first second => Apart first.1 second.1)
    (hrowsApart : rows.Pairwise fun first second => Apart first.pattern second.pattern) (marks : List Mark) :
    decodeWith operators marks rows = decodeWith operators' marks rows' := by
  have hrowsApart' : rows'.Pairwise fun first second => Apart first.pattern second.pattern :=
    (hrows.pairwise_iff fun h => h.symm).mp hrowsApart
  calc decodeWith operators marks rows
      = firstOf (rows.map fun row => row.read operators marks) :=
        decodeWith_eq_firstOf hrowsApart operators marks
    _ = firstOf (rows'.map fun row => row.read operators marks) :=
        firstOf_map_perm hrows (exclusive_rows hrowsApart operators) marks
    _ = firstOf (rows'.map fun row => row.read operators' marks) := by
        simp only [read_perm hoperators hoperatorsApart]
    _ = decodeWith operators' marks rows' := (decodeWith_eq_firstOf hrowsApart' operators' marks).symm

/-- A row whose pattern is there decides alone, also where it finds nothing behind the pattern. -/
theorem decodeWith_eq_read (hrows : rows.Pairwise fun first second => Apart first.pattern second.pattern)
    {row : Opcode} (hrow : row ∈ rows) {marks : List Mark} (hpattern : row.pattern <+: marks) :
    decodeWith operators marks rows = row.read operators marks := by
  have hsymm : Std.Symm fun first second : Opcode => Apart first.pattern second.pattern :=
    ⟨fun _ _ h => h.symm⟩
  have hothers : ∀ other ∈ rows, other ≠ row → other.read operators marks = .missing := by
    intro other hother hne
    have hapart : Apart other.pattern row.pattern := hrows.forall hother hrow hne
    apply read_eq_missing
    exact (hapart.not_prefix marks).resolve_right (not_not_intro hpattern)
  rw [decodeWith_eq_firstOf hrows]
  by_cases hread : row.read operators marks = .missing
  · rw [hread, firstOf_eq_missing_iff]
    intro reading hreading
    obtain ⟨other, hother, rfl⟩ := List.mem_map.mp hreading
    by_cases heq : other = row
    · rw [heq, hread]
    · exact hothers other hother heq
  · apply firstOf_eq_of_mem _ (List.mem_map_of_mem hrow) hread
    exact List.pairwise_map.mpr ((exclusive_rows hrows operators).imp fun h => h marks)

end Opcode

/-- **The order of the tables is of no account.** With the rows of the instruction table and those of the
operator table in any order, decoding comes to the same at every cursor of every program, be it an
instruction with its width, nothing, or too large a number. For no pattern of a table begins another, so the
row whose pattern is at the cursor decides alone, whatever it makes of the marks behind the pattern. -/
theorem Instruction.decodeAt_any_order {rows : List Opcode} {operators : List (List Mark × Operator)}
    (hrows : rows.Perm Opcode.primary) (hoperators : operators.Perm Opcode.operators)
    (program : Program) (cursor : Nat) :
    Opcode.decodeWith operators (program.drop cursor) rows = decodeAt program cursor ∧
    (rows.Pairwise fun first second => Reading.Apart first.pattern second.pattern) ∧
    (operators.Pairwise fun first second => Reading.Apart first.1 second.1) ∧
    (∀ row ∈ rows, row.pattern <+: program.drop cursor →
      decodeAt program cursor = row.read operators (program.drop cursor)) := by
  have hrowsApart : rows.Pairwise fun first second => Reading.Apart first.pattern second.pattern :=
    (hrows.pairwise_iff fun h => h.symm).mpr Opcode.primary_apart
  have hoperatorsApart : operators.Pairwise fun first second => Reading.Apart first.1 second.1 :=
    (hoperators.pairwise_iff fun h => h.symm).mpr Opcode.operators_apart
  have hdecode : Opcode.decodeWith operators (program.drop cursor) rows = decodeAt program cursor :=
    Opcode.decodeWith_perm hoperators hrows hoperatorsApart hrowsApart (program.drop cursor)
  refine ⟨hdecode, hrowsApart, hoperatorsApart, ?_⟩
  intro row hrow hpattern
  rw [← hdecode]
  exact Opcode.decodeWith_eq_read hrowsApart hrow hpattern

/-- With both tables turned round, the pattern of the operators without an operator behind it is nothing,
though a label would begin inside it. -/
theorem Instruction.decodeAt_any_order_reversed :
    Opcode.primary.reverse.Perm Opcode.primary ∧ Opcode.operators.reverse.Perm Opcode.operators ∧
      Opcode.decodeWith Opcode.operators.reverse
        (List.drop 1 [.extra, .tab, .space, .tab, .line, .space, .space, .line]) Opcode.primary.reverse =
          .missing := by
  refine ⟨List.reverse_perm _, List.reverse_perm _, ?_⟩
  rw [(decodeAt_any_order (List.reverse_perm _) (List.reverse_perm _) _ _).1]
  decide

end MarkMachine
