import MarkMachine.Proofs.ParsingExpression

/-! The places where marks are spelled. No two spellings share a character, so none stands in the way of another
and reading a text finds them all. Two texts that are joined have the marks of the one and then those of the
other, unless a spelling begins in the first and ends in the second. Its parts are commentary to the texts they
stand in, and there is room for only one, so the joined text has just that mark more, between the others. -/

namespace MarkMachine

namespace Mark

/-- No two spellings share a character. -/
theorem add_length_le_of_spelled {mark other : Mark} {text : List Char} {offset later : Nat}
    (h : mark.spelling <+: text.drop offset) (hother : other.spelling <+: text.drop later)
    (hlt : offset < later) : offset + mark.spelling.length ≤ later := by
  by_contra hinside
  have hread : spelledAt? (text.drop offset) = some (mark, mark.spelling.length) :=
    spelledAt?_eq_some_iff.mpr ⟨h, rfl⟩
  have hnone : spelledAt? ((text.drop offset).drop (later - offset)) = none :=
    spelledAt?_inside hread (by omega) (by omega)
  rw [List.drop_drop, Nat.add_sub_cancel' (Nat.le_of_lt hlt)] at hnone
  exact spelledAt?_eq_none_iff.mp hnone other hother

/-- No mark is spelled across a junction if none begins before it. -/
theorem not_straddles_of_notMem {first : List Char} (h : ∀ mark : Mark, mark.initial ∉ first)
    (second : List Char) (mark : Mark) : ¬mark.Straddles first second := by
  intro hstraddles
  obtain ⟨front, back, hspelling, hfront, -, hfirst, -⟩ := hstraddles
  obtain ⟨rest, rfl, -⟩ := exists_tail_eq hspelling hfront
  exact h mark (hfirst.subset List.mem_cons_self)

/-- A part of a spelling holds no whole one. -/
theorem commentary_of_part {mark : Mark} {part : List Char} (h : part <:+: mark.spelling)
    (hlt : part.length < mark.spelling.length) : Commentary part := by
  intro other hother
  have hinitial : other.initial ∈ mark.spelling := by
    apply (hother.trans h).subset
    rw [spelling_eq_cons]
    exact List.mem_cons_self
  rw [spelling_eq_cons, List.mem_cons] at hinitial
  have heq := initial_inj (hinitial.resolve_right (initial_notMem_tail other mark))
  have hle := hother.length_le
  rw [heq] at hle
  omega

end Mark

namespace Program

/-- A mark that is spelled across a junction is read between the marks of the two texts. -/
theorem ofChars_append_of_straddles {mark : Mark} {first second : List Char}
    (h : mark.Straddles first second) : ofChars (first ++ second) = ofChars first ++ mark :: ofChars second := by
  obtain ⟨front, back, hspelling, hfront, hback, ⟨before, rfl⟩, after, rfl⟩ := h
  obtain ⟨rest, hrest, htail⟩ := Mark.exists_tail_eq hspelling hfront
  have hlength : mark.spelling.length = front.length + back.length := by rw [hspelling, List.length_append]
  have hfrontPos := List.length_pos_iff.mpr hfront
  have hbackPos := List.length_pos_iff.mpr hback
  have hinitial (other : Mark) : other.initial ∉ back := by
    intro hmem
    apply Mark.initial_notMem_tail other mark
    rw [htail]
    exact List.mem_append_right rest hmem
  -- The front part is read as commentary where the mark begins, and the back part where it has begun before.
  have hbefore : ofChars (before ++ front) = ofChars before := by
    have hcommentary : Commentary front :=
      Mark.commentary_of_part ⟨[], back, hspelling.symm⟩ (by omega)
    have hhead : front.head? = some mark.initial := by rw [hrest, List.head?_cons]
    have hjunction := Mark.not_straddles_of_head? hhead before
    rw [ofChars_append hjunction, ofChars_of_commentary hcommentary, List.append_nil]
  have hafter : ofChars (back ++ after) = ofChars after := by
    have hcommentary : Commentary back :=
      Mark.commentary_of_part ⟨front, [], by rw [hspelling, List.append_nil]⟩ (by omega)
    have hjunction := Mark.not_straddles_of_notMem hinitial after
    rw [ofChars_append hjunction, ofChars_of_commentary hcommentary, List.nil_append]
  have hmark : (mark.spelling ++ after).head? = some mark.initial :=
    Mark.head?_of_spelled (List.prefix_append _ _)
  calc ofChars (before ++ front ++ (back ++ after))
      = ofChars (before ++ (mark.spelling ++ after)) := by rw [hspelling]; simp only [List.append_assoc]
    _ = ofChars before ++ ofChars (mark.spelling ++ after) :=
        ofChars_append (Mark.not_straddles_of_head? hmark before)
    _ = ofChars before ++ mark :: ofChars after := by rw [ofChars_spelling_append]
    _ = ofChars (before ++ front) ++ mark :: ofChars (back ++ after) := by rw [hbefore, hafter]

theorem ofChars_append_iff {first second : List Char} :
    ofChars (first ++ second) = ofChars first ++ ofChars second ↔
      ∀ mark : Mark, ¬mark.Straddles first second := by
  constructor
  · intro happend mark hmark
    rw [ofChars_append_of_straddles hmark] at happend
    exact List.cons_ne_self mark _ (List.append_cancel_left happend)
  · exact ofChars_append

/-- **Reading finds every mark.** The grammar of source texts matches any text, in one way, and tells of the marks that
are read from it: those spelled at any offset, also within other spellings. No two spellings share a character.
The marks of two texts that are joined are those of the first and those of the second, with one more between them
if it is spelled across the junction. -/
theorem ofSource_finds_every_mark :
    (∀ (source : String) (outcome : ParsingExpression.Outcome),
      ParsingExpression.source.Matches source.toList 0 outcome ↔
        outcome = some (ofSource source, source.length)) ∧
    (∀ source : String, ofSource source = Scan.everywhere Mark.at? source.toList) ∧
    (∀ (text : List Char) (mark : Mark), Mark.at? text = some mark ↔ mark.spelling <+: text) ∧
    (∀ (text : List Char) (mark other : Mark) (offset later : Nat), mark.spelling <+: text.drop offset →
      other.spelling <+: text.drop later → offset < later → offset + mark.spelling.length ≤ later) ∧
    ∀ first second : String,
      (ofSource (first ++ second) = ofSource first ++ ofSource second ↔
        ∀ mark : Mark, ¬mark.Straddles first.toList second.toList) ∧
      ∀ mark : Mark, mark.Straddles first.toList second.toList →
        ofSource (first ++ second) = ofSource first ++ mark :: ofSource second := by
  refine ⟨fun source outcome => ?_, fun source => ofChars_eq_everywhere source.toList,
    fun text mark => Mark.at?_eq_some_iff, fun text mark other offset later => ?_, fun first second => ?_⟩
  · rw [← String.length_toList]
    exact ParsingExpression.matches_source_iff
  · exact Mark.add_length_le_of_spelled
  · simp only [ofSource, String.toList_append]
    exact ⟨ofChars_append_iff, fun mark => ofChars_append_of_straddles⟩

/-- A mark behind another, and one across a junction with half a spelling before and a mark behind it. -/
theorem ofSource_finds_every_mark_across :
    (Mark.space.spelling <+: "便利\n".toList.drop 0 ∧ Mark.line.spelling <+: "便利\n".toList.drop 2 ∧
      0 + Mark.space.spelling.length ≤ 2) ∧
    Mark.extra.Straddles "便かな".toList "り\n".toList ∧
      ofSource ("便かな" ++ "り\n") = ofSource "便かな" ++ .extra :: ofSource "り\n" := by
  have hspace : Mark.space.spelling <+: "便利\n".toList.drop 0 := by decide
  have hline : Mark.line.spelling <+: "便利\n".toList.drop 2 := by decide
  have hextra : Mark.extra.Straddles "便かな".toList "り\n".toList :=
    ⟨['か', 'な'], ['り'], by decide⟩
  obtain ⟨-, -, -, hapart, hjoined⟩ := ofSource_finds_every_mark
  exact ⟨⟨hspace, hline, hapart _ _ _ _ _ hspace hline (by decide)⟩, hextra, (hjoined _ _).2 _ hextra⟩

end Program

end MarkMachine
