import Mathlib.Data.List.Infix
import MarkMachine.Program

/-! Marks in a source text. The first character of a spelling stands nowhere else in any spelling, so two
spellings never overlap. Therefore reading from left to right, which passes over a whole spelling at a
time, misses none: it finds what a search at every offset finds. Texts that are joined are read one after the
other unless a spelling lies across the junction, and none lies across the place where a mark begins. So
commentary that holds no whole spelling cannot make one up with the marks around it, even if it ends in the
first half of one. -/

namespace MarkMachine

namespace Scan

variable {α β : Type}

/-- What is found at the offsets of a list, one after the other. -/
def everywhere (look : List α → Option β) (list : List α) : List β :=
  (List.range list.length).filterMap fun offset => look (list.drop offset)

theorem everywhere_cons (look : List α → Option β) (x : α) (rest : List α) :
    everywhere look (x :: rest) = (look (x :: rest)).toList ++ everywhere look rest := by
  simp only [everywhere, List.length_cons, List.range_succ_eq_map, List.filterMap_cons, List.drop_zero,
    List.filterMap_map]
  cases look (x :: rest) <;> rfl

/-- A search can begin behind offsets where nothing is found. -/
theorem everywhere_drop {look : List α → Option β} {list : List α} (count : Nat)
    (h : ∀ offset < count, look (list.drop offset) = none) :
    everywhere look list = everywhere look (list.drop count) := by
  induction count generalizing list with
  | zero => rfl
  | succ count ih =>
      cases list with
      | nil => rfl
      | cons x rest =>
          have hfirst : look (x :: rest) = none := h 0 (Nat.succ_pos count)
          rw [everywhere_cons, hfirst, List.drop_succ_cons]
          exact ih fun offset hoffset => h (offset + 1) (Nat.succ_lt_succ hoffset)

/-- Reading from left to right finds everything if nothing is recognised inside an item. -/
theorem items_eq_everywhere {read : List α → Option (β × Nat)}
    (hread : ∀ list item width, read list = some (item, width) →
      0 < width ∧ ∀ offset, 0 < offset → offset < width → read (list.drop offset) = none)
    (list : List α) : items read list = everywhere (fun rest => (read rest).map Prod.fst) list := by
  induction hlength : list.length using Nat.strongRecOn generalizing list with
  | ind length ih =>
      cases list with
      | nil => rfl
      | cons x rest =>
          simp only [List.length_cons] at hlength
          rw [everywhere_cons]
          cases hfound : read (x :: rest) with
          | none =>
              rw [items_of_read_eq_none hfound, ih rest.length (by omega) rest rfl]
              rfl
          | some found =>
              obtain ⟨item, width⟩ := found
              obtain ⟨hpos, hinside⟩ := hread _ _ _ hfound
              obtain ⟨width, rfl⟩ : ∃ w, width = w + 1 := ⟨width - 1, by omega⟩
              have hskip : everywhere (fun rest => (read rest).map Prod.fst) rest =
                  everywhere (fun rest => (read rest).map Prod.fst) (rest.drop width) := by
                apply everywhere_drop
                intro offset hoffset
                have hnone := hinside (offset + 1) (Nat.succ_pos offset) (by omega)
                rw [List.drop_succ_cons] at hnone
                simp only [hnone, Option.map_none]
              rw [items_of_read_eq_some hfound (by simp) hpos, List.drop_succ_cons, hskip,
                ih (rest.drop width).length (by simp only [List.length_drop]; omega) _ rfl]
              rfl

end Scan

namespace Mark

def initial : Mark → Char
  | .space => '便'
  | .tab => '感'
  | .line => '\n'
  | .extra => 'か'

theorem spelling_eq_cons (mark : Mark) : mark.spelling = mark.initial :: mark.spelling.tail := by
  cases mark <;> rfl

theorem initial_inj {mark other : Mark} (h : mark.initial = other.initial) : mark = other := by
  revert h
  cases mark <;> cases other <;> decide

/-- No spelling begins inside another. -/
theorem initial_notMem_tail (mark other : Mark) : mark.initial ∉ other.spelling.tail := by
  cases mark <;> cases other <;> decide

theorem head?_of_spelled {mark : Mark} {text : List Char} (h : mark.spelling <+: text) :
    text.head? = some mark.initial := by
  rw [spelling_eq_cons] at h
  obtain ⟨rest, rfl⟩ := h
  rfl

theorem eq_of_spelled {mark other : Mark} {text : List Char} (h : mark.spelling <+: text)
    (hother : other.spelling <+: text) : mark = other := by
  have hhead := head?_of_spelled h
  rw [head?_of_spelled hother, Option.some.injEq] at hhead
  exact initial_inj hhead.symm

theorem spelledAt?_eq_some_iff {text : List Char} {mark : Mark} {width : Nat} :
    spelledAt? text = some (mark, width) ↔ mark.spelling <+: text ∧ width = mark.spelling.length := by
  simp only [spelledAt?, Option.map_eq_some_iff, Prod.mk.injEq]
  constructor
  · rintro ⟨mark, hfound, rfl, rfl⟩
    have hspelled := List.find?_some hfound
    exact ⟨List.isPrefixOf_iff_prefix.mp hspelled, rfl⟩
  · rintro ⟨hspelled, rfl⟩
    refine ⟨mark, ?_, rfl, rfl⟩
    cases hfound : all.find? fun mark => mark.spelling.isPrefixOf text with
    | none =>
        have hnone := List.find?_eq_none.mp hfound mark (mem_all mark)
        exact absurd (List.isPrefixOf_iff_prefix.mpr hspelled) hnone
    | some other =>
        have hother := List.find?_some hfound
        rw [eq_of_spelled hspelled (List.isPrefixOf_iff_prefix.mp hother)]

theorem spelledAt?_eq_none_iff {text : List Char} :
    spelledAt? text = none ↔ ∀ mark : Mark, ¬mark.spelling <+: text := by
  constructor
  · intro hnone mark hspelled
    rw [spelledAt?_eq_some_iff.mpr ⟨hspelled, rfl⟩] at hnone
    cases hnone
  · intro hnone
    cases hfound : spelledAt? text with
    | none => rfl
    | some found => exact absurd (spelledAt?_eq_some_iff.mp hfound).1 (hnone found.1)

theorem spelledAt?_inside {text : List Char} {mark : Mark} {width : Nat}
    (h : spelledAt? text = some (mark, width)) {offset : Nat} (hpos : 0 < offset) (hlt : offset < width) :
    spelledAt? (text.drop offset) = none := by
  obtain ⟨⟨rest, rfl⟩, rfl⟩ := spelledAt?_eq_some_iff.mp h
  rw [spelledAt?_eq_none_iff]
  intro other hother
  have hhead := head?_of_spelled hother
  rw [List.head?_drop, List.getElem?_append_left hlt, spelling_eq_cons,
    List.getElem?_cons, if_neg (by omega)] at hhead
  exact initial_notMem_tail other mark (List.mem_of_getElem? hhead)

/-- The mark spelled at the front of a text. -/
def at? (text : List Char) : Option Mark :=
  (spelledAt? text).map Prod.fst

theorem at?_eq_some_iff {text : List Char} {mark : Mark} : at? text = some mark ↔ mark.spelling <+: text := by
  simp [at?, spelledAt?_eq_some_iff]

/-- A mark is spelled across the junction of two texts: its spelling begins in the first and ends in the
second. -/
def Straddles (mark : Mark) (first second : List Char) : Prop :=
  ∃ front back, mark.spelling = front ++ back ∧ front ≠ [] ∧ back ≠ [] ∧ front <:+ first ∧ back <+: second

theorem Straddles.cons {mark : Mark} {first second : List Char} (h : mark.Straddles first second) (c : Char) :
    mark.Straddles (c :: first) second := by
  obtain ⟨front, back, hspelling, hfront, hback, hfirst, hsecond⟩ := h
  exact ⟨front, back, hspelling, hfront, hback, hfirst.trans (List.suffix_cons c first), hsecond⟩

/-- The front of a text is read as before when another is joined to it. -/
theorem at?_append {first second : List Char} (hfirst : first ≠ [])
    (h : ∀ mark : Mark, ¬mark.Straddles first second) : at? (first ++ second) = at? first := by
  ext mark
  simp only [at?_eq_some_iff]
  constructor
  · intro hspelled
    obtain ⟨rest, hrest⟩ := hspelled
    obtain ⟨inner, hinner, _⟩ | ⟨outer, houter, hsecond⟩ := List.append_eq_append_iff.mp hrest
    · exact ⟨inner, hinner.symm⟩
    · by_cases hempty : outer = []
      · rw [houter, hempty, List.append_nil]
      · exact absurd ⟨first, outer, houter, hfirst, hempty, List.suffix_refl _, rest, hsecond.symm⟩ (h mark)
  · intro hspelled
    exact hspelled.trans (List.prefix_append first second)

theorem exists_tail_eq {mark : Mark} {front back : List Char} (h : mark.spelling = front ++ back)
    (hfront : front ≠ []) : ∃ rest, front = mark.initial :: rest ∧ mark.spelling.tail = rest ++ back := by
  cases front with
  | nil => exact absurd rfl hfront
  | cons c rest =>
      have hcons := mark.spelling_eq_cons
      rw [h, List.cons_append, List.tail_cons, List.cons.injEq] at hcons
      refine ⟨rest, by rw [hcons.1], ?_⟩
      rw [h]
      rfl

/-- No mark is spelled across the place where another begins. -/
theorem not_straddles_of_head? {mark : Mark} {second : List Char} (h : second.head? = some mark.initial)
    (first : List Char) (other : Mark) : ¬other.Straddles first second := by
  intro hstraddles
  obtain ⟨front, back, hspelling, hfront, hback, -, rest, rfl⟩ := hstraddles
  obtain ⟨inner, -, htail⟩ := exists_tail_eq hspelling hfront
  rw [List.head?_append_of_ne_nil _ hback] at h
  apply initial_notMem_tail mark other
  rw [htail]
  exact List.mem_append_right inner (List.mem_of_mem_head? h)

end Mark

namespace Program

/-- Reading a text finds all marks that are spelled in it. -/
theorem ofChars_eq_everywhere (text : List Char) : ofChars text = Scan.everywhere Mark.at? text := by
  refine Scan.items_eq_everywhere (fun list mark width hread => ⟨?_, fun offset hpos hlt => ?_⟩) text
  · rw [(Mark.spelledAt?_eq_some_iff.mp hread).2, Mark.spelling_eq_cons]
    exact Nat.succ_pos _
  · exact Mark.spelledAt?_inside hread hpos hlt

/-- Texts that are joined are read one after the other if no mark is spelled across the junction. -/
theorem ofChars_append {first second : List Char} (h : ∀ mark : Mark, ¬mark.Straddles first second) :
    ofChars (first ++ second) = ofChars first ++ ofChars second := by
  simp only [ofChars_eq_everywhere]
  induction first with
  | nil => rfl
  | cons c first ih =>
      have hlater := ih fun mark hmark => h mark (hmark.cons c)
      have hhere := Mark.at?_append (List.cons_ne_nil c first) h
      rw [List.cons_append] at hhere ⊢
      rw [Scan.everywhere_cons, Scan.everywhere_cons, hhere, hlater, List.append_assoc]

theorem ofChars_spelling_append (mark : Mark) (rest : List Char) :
    ofChars (mark.spelling ++ rest) = mark :: ofChars rest := by
  have hread : Mark.spelledAt? (mark.spelling ++ rest) = some (mark, mark.spelling.length) :=
    Mark.spelledAt?_eq_some_iff.mpr ⟨List.prefix_append _ _, rfl⟩
  have hpos : 0 < mark.spelling.length := by
    rw [Mark.spelling_eq_cons]
    exact Nat.succ_pos _
  rw [ofChars, Scan.items_of_read_eq_some hread (by rw [Mark.spelling_eq_cons]; simp) hpos, List.drop_left]
  rfl

end Program

/-- A text without the whole spelling of any mark. -/
def Commentary (text : List Char) : Prop :=
  ∀ mark : Mark, ¬mark.spelling <:+: text

namespace Program

theorem ofChars_of_commentary {text : List Char} (h : Commentary text) : ofChars text = [] := by
  rw [ofChars_eq_everywhere, Scan.everywhere, List.filterMap_eq_nil_iff]
  intro offset _
  rw [Option.eq_none_iff_forall_ne_some]
  intro mark hmark
  have hspelled := Mark.at?_eq_some_iff.mp hmark
  exact h mark (hspelled.isInfix.trans (List.drop_suffix offset text).isInfix)

/-- Commentary is passed over at the end of a text and before a mark. -/
theorem ofChars_append_of_commentary {text rest : List Char} (h : Commentary text)
    (hrest : rest = [] ∨ ∃ mark : Mark, mark.spelling <+: rest) :
    ofChars (text ++ rest) = ofChars rest := by
  rcases hrest with rfl | ⟨mark, hmark⟩
  · rw [List.append_nil, ofChars_of_commentary h]
    rfl
  · have hjunction := Mark.not_straddles_of_head? (Mark.head?_of_spelled hmark) text
    rw [ofChars_append hjunction, ofChars_of_commentary h, List.nil_append]

theorem ofChars_pieces {first : List Char} (hfirst : Commentary first) {pieces : List (Mark × String)}
    (h : ∀ piece ∈ pieces, Commentary piece.2.toList) :
    ofChars (first ++ pieces.flatMap fun piece => piece.1.spelling ++ piece.2.toList) =
      pieces.map Prod.fst := by
  induction pieces generalizing first with
  | nil =>
      rw [List.flatMap_nil, ofChars_append_of_commentary hfirst (.inl rfl)]
      rfl
  | cons piece pieces ih =>
      obtain ⟨mark, text⟩ := piece
      have hlater := ih (h _ List.mem_cons_self) fun other hother => h other (List.mem_cons_of_mem _ hother)
      rw [List.flatMap_cons, List.append_assoc, ofChars_append_of_commentary hfirst, ofChars_spelling_append,
        hlater, List.map_cons]
      exact .inr ⟨mark, List.prefix_append _ _⟩

theorem ofChars_toChars (program : Program) : ofChars program.toChars = program := by
  induction program with
  | nil => rfl
  | cons mark program ih =>
      calc ofChars (toChars (mark :: program))
          = ofChars (mark.spelling ++ toChars program) := by rw [toChars, List.flatMap_cons, toChars]
        _ = mark :: ofChars (toChars program) := ofChars_spelling_append mark _
        _ = mark :: program := by rw [ih]

/-- **Reading undoes writing through any commentary.** Write the marks of a program one after the other, with
texts before, between and behind them in which no mark is spelled as a whole. Such a text may hold parts of
spellings, and end in the beginning of one. Then just the marks are read. In particular they are read from
the source text without commentary. -/
theorem ofSource_through_commentary :
    (∀ (first : String) (pieces : List (Mark × String)), Commentary first.toList →
      (∀ piece ∈ pieces, Commentary piece.2.toList) →
      ofSource (first ++ String.join (pieces.map fun piece => toSource [piece.1] ++ piece.2)) =
        pieces.map Prod.fst) ∧
    ∀ program : Program, ofSource program.toSource = program := by
  constructor
  · intro first pieces hfirst h
    have htext : (first ++ String.join (pieces.map fun piece => toSource [piece.1] ++ piece.2)).toList =
        first.toList ++ pieces.flatMap fun piece => piece.1.spelling ++ piece.2.toList := by
      simp [String.toList_join, List.flatMap_map, toSource, toChars]
    rw [ofSource, htext]
    exact ofChars_pieces hfirst h
  · intro program
    rw [ofSource, toSource, String.toList_ofList]
    exact ofChars_toChars program

/-- Each text here ends in the beginning of a spelling, twice of the very one that follows. -/
theorem ofSource_through_commentary_partial :
    Commentary "便".toList ∧ Commentary "かな".toList ∧ Commentary "感極まってきまし".toList ∧
      ofSource ("便" ++ String.join ([(Mark.space, "かな"), (Mark.extra, "感極まってきまし")].map fun piece =>
        toSource [piece.1] ++ piece.2)) = [.space, .extra] := by
  have hfirst : Commentary "便".toList := by
    intro mark
    cases mark <;> decide
  have hsecond : Commentary "かな".toList := by
    intro mark
    cases mark <;> decide
  have hthird : Commentary "感極まってきまし".toList := by
    intro mark
    cases mark <;> decide
  refine ⟨hfirst, hsecond, hthird, ofSource_through_commentary.1 _ _ hfirst ?_⟩
  exact List.forall_mem_cons.mpr ⟨hsecond, List.forall_mem_cons.mpr ⟨hthird, nofun⟩⟩

end Program

end MarkMachine
