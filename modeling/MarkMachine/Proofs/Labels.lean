import Std.Data.TreeMap.Lemmas
import MarkMachine.Listing
import Mathlib.Tactic.SplitIfs

/-! Label tables as look-ups in the spans they come from: a label leads behind the last span that defines
it, and nowhere if there is none. -/

namespace MarkMachine

def Span.defines (label : Label) (span : Span) : Bool :=
  span.instruction = .define label

namespace LabelTable

theorem getElem?_note (table : LabelTable) (span : Span) (label : Label) :
    (table.note span)[label]? = if span.defines label then some span.next else table[label]? := by
  obtain ⟨position, instruction, next⟩ := span
  cases instruction with
  | define other =>
      rw [note, Std.TreeMap.getElem?_insert]
      simp only [Std.LawfulEqCmp.compare_eq_iff_eq, Span.defines, Instruction.define.injEq,
        decide_eq_true_eq]
  | _ => rfl

/-- Noting spans makes each label lead behind the last of them that defines it. -/
theorem getElem?_foldl_note (table : LabelTable) (spans : List Span) (label : Label) :
    (spans.foldl note table)[label]? =
      ((spans.filter (Span.defines label)).getLast?.map Span.next).or table[label]? := by
  induction spans generalizing table with
  | nil => rfl
  | cons span spans ih =>
      rw [List.foldl_cons, ih, getElem?_note, List.filter_cons]
      split_ifs
      · rw [List.getLast?_cons]
        cases (spans.filter (Span.defines label)).getLast? <;> rfl
      · rfl

theorem getElem?_ofSpans (spans : List Span) (label : Label) :
    (ofSpans spans)[label]? = (spans.filter (Span.defines label)).getLast?.map Span.next := by
  rw [ofSpans, getElem?_foldl_note, Std.TreeMap.getElem?_emptyc, Option.or_none]

/-- Where a label leads is behind one of the spans. -/
theorem exists_span_of_getElem? {spans : List Span} {label : Label} {cursor : Nat}
    (h : (ofSpans spans)[label]? = some cursor) : ∃ span ∈ spans, span.next = cursor := by
  rw [getElem?_ofSpans, Option.map_eq_some_iff] at h
  obtain ⟨span, hlast, hnext⟩ := h
  exact ⟨span, (List.mem_filter.mp (List.mem_of_getLast? hlast)).1, hnext⟩

end LabelTable

end MarkMachine
