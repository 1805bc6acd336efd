import MarkMachine.Proofs.Spelling

/-! Source texts by a grammar of parsing expressions. An expression is matched at a cursor of a text. A choice
settles for its first alternative that matches, a repetition goes on for as long as it can, and neither is ever
reconsidered. A source text is the start of a text, then marks, or else single characters of commentary, as
long as there are any, and then the end of the text. A grammar can fail to match, and a repetition of what
takes no characters comes to nothing at all. This grammar does neither: it matches every text up to its end,
and tells just of the marks that are read from it. -/

namespace MarkMachine

/-- Parsing expressions, some of which tell of a mark when they match. -/
inductive ParsingExpression where
  /-- The start of the text. -/
  | start
  /-- The end of the text. -/
  | finish
  /-- Any character. -/
  | any
  | literal (chars : List Char)
  /-- What `body` matches, told as a mark. -/
  | told (mark : Mark) (body : ParsingExpression)
  | sequence (first second : ParsingExpression)
  /-- What `first` matches, or if it does not match, what `second` does. -/
  | choice (first second : ParsingExpression)
  /-- As many matches of `body` as there are, one behind the other. -/
  | many (body : ParsingExpression)

namespace ParsingExpression

/-- What comes of an expression at a cursor: the marks that are told and the cursor behind the match, or
`none` if there is no match. -/
abbrev Outcome := Option (List Mark × Nat)

def Outcome.behind (marks : List Mark) (outcome : Outcome) : Outcome :=
  outcome.map fun found => (marks ++ found.1, found.2)

/-- The outcomes of expressions at the cursors of a text. -/
inductive Matches (text : List Char) : ParsingExpression → Nat → Outcome → Prop
  | start (cursor : Nat) : Matches text .start cursor (if cursor = 0 then some ([], cursor) else none)
  | finish (cursor : Nat) :
      Matches text .finish cursor (if text.length ≤ cursor then some ([], cursor) else none)
  | any (cursor : Nat) :
      Matches text .any cursor (if cursor < text.length then some ([], cursor + 1) else none)
  | literal (chars : List Char) (cursor : Nat) :
      Matches text (.literal chars) cursor
        (if chars <+: text.drop cursor then some ([], cursor + chars.length) else none)
  | told {body : ParsingExpression} {cursor : Nat} {outcome : Outcome} (mark : Mark) :
      Matches text body cursor outcome → Matches text (.told mark body) cursor (outcome.behind [mark])
  | sequence_none {first : ParsingExpression} {cursor : Nat} (second : ParsingExpression) :
      Matches text first cursor none → Matches text (.sequence first second) cursor none
  | sequence_some {first second : ParsingExpression} {cursor next : Nat} {marks : List Mark}
      {outcome : Outcome} :
      Matches text first cursor (some (marks, next)) → Matches text second next outcome →
        Matches text (.sequence first second) cursor (outcome.behind marks)
  | choice_some {first : ParsingExpression} {cursor : Nat} {found : List Mark × Nat}
      (second : ParsingExpression) :
      Matches text first cursor (some found) → Matches text (.choice first second) cursor (some found)
  | choice_none {first second : ParsingExpression} {cursor : Nat} {outcome : Outcome} :
      Matches text first cursor none → Matches text second cursor outcome →
        Matches text (.choice first second) cursor outcome
  | many_none {body : ParsingExpression} {cursor : Nat} :
      Matches text body cursor none → Matches text (.many body) cursor (some ([], cursor))
  | many_some {body : ParsingExpression} {cursor next : Nat} {marks : List Mark} {outcome : Outcome} :
      Matches text body cursor (some (marks, next)) → Matches text (.many body) next outcome →
        Matches text (.many body) cursor (outcome.behind marks)

variable {text : List Char}

/-- An expression has at most one outcome. -/
theorem Matches.unique {expression : ParsingExpression} {cursor : Nat} {outcome other : Outcome}
    (h : expression.Matches text cursor outcome) (hother : expression.Matches text cursor other) :
    outcome = other := by
  induction h generalizing other with
  | start cursor =>
      cases hother
      rfl
  | finish cursor =>
      cases hother
      rfl
  | any cursor =>
      cases hother
      rfl
  | literal chars cursor =>
      cases hother
      rfl
  | told mark _ ih =>
      cases hother with
      | told _ hbody => rw [ih hbody]
  | sequence_none second _ ih =>
      cases hother with
      | sequence_none _ _ => rfl
      | sequence_some hfirst _ => cases ih hfirst
  | sequence_some _ _ ihfirst ihsecond =>
      cases hother with
      | sequence_none _ hfirst => cases ihfirst hfirst
      | sequence_some hfirst hsecond =>
          cases ihfirst hfirst
          rw [ihsecond hsecond]
  | choice_some second _ ih =>
      cases hother with
      | choice_some _ hfirst => exact ih hfirst
      | choice_none hfirst _ => cases ih hfirst
  | choice_none _ _ ihfirst ihsecond =>
      cases hother with
      | choice_some _ hfirst => cases ihfirst hfirst
      | choice_none _ hsecond => exact ihsecond hsecond
  | many_none _ ih =>
      cases hother with
      | many_none _ => rfl
      | many_some hbody _ => cases ih hbody
  | many_some _ _ ihbody ihmore =>
      cases hother with
      | many_none hbody => cases ihbody hbody
      | many_some hbody hmore =>
          cases ihbody hbody
          rw [ihmore hmore]

/-! ### The grammar of source texts -/

def ofMark (mark : Mark) : ParsingExpression :=
  .told mark (.literal mark.spelling)

def mark : ParsingExpression :=
  .choice (ofMark .space) (.choice (ofMark .tab) (.choice (ofMark .extra) (ofMark .line)))

/-- A character that belongs to no mark. -/
def comment : ParsingExpression := .any

def source : ParsingExpression :=
  .sequence .start (.sequence (.many (.choice mark comment)) .finish)

theorem matches_ofMark {mark : Mark} {cursor : Nat} (h : mark.spelling <+: text.drop cursor) :
    (ofMark mark).Matches text cursor (some ([mark], cursor + mark.spelling.length)) := by
  have hliteral : (literal mark.spelling).Matches text cursor _ := .literal mark.spelling cursor
  rw [if_pos h] at hliteral
  exact .told mark hliteral

theorem fails_ofMark {mark : Mark} {cursor : Nat} (h : ¬mark.spelling <+: text.drop cursor) :
    (ofMark mark).Matches text cursor none := by
  have hliteral : (literal mark.spelling).Matches text cursor _ := .literal mark.spelling cursor
  rw [if_neg h] at hliteral
  exact .told mark hliteral

/-- A mark is matched wherever one is spelled: the alternatives before it do not match there. -/
theorem matches_mark {spelled : Mark} {cursor : Nat} (h : spelled.spelling <+: text.drop cursor) :
    mark.Matches text cursor (some ([spelled], cursor + spelled.spelling.length)) := by
  have hothers : ∀ other : Mark, other ≠ spelled → (ofMark other).Matches text cursor none := by
    intro other hother
    apply fails_ofMark
    intro hspelled
    exact hother (Mark.eq_of_spelled hspelled h)
  cases spelled with
  | space => exact .choice_some _ (matches_ofMark h)
  | tab =>
      refine .choice_none (hothers .space (by decide)) ?_
      exact .choice_some _ (matches_ofMark h)
  | extra =>
      refine .choice_none (hothers .space (by decide)) (.choice_none (hothers .tab (by decide)) ?_)
      exact .choice_some _ (matches_ofMark h)
  | line =>
      refine .choice_none (hothers .space (by decide)) (.choice_none (hothers .tab (by decide)) ?_)
      exact .choice_none (hothers .extra (by decide)) (matches_ofMark h)

theorem fails_mark {cursor : Nat} (h : ∀ mark : Mark, ¬mark.spelling <+: text.drop cursor) :
    mark.Matches text cursor none := by
  refine .choice_none (fails_ofMark (h .space)) (.choice_none (fails_ofMark (h .tab)) ?_)
  exact .choice_none (fails_ofMark (h .extra)) (fails_ofMark (h .line))

theorem not_spelled_at_end {cursor : Nat} (h : text.length ≤ cursor) (mark : Mark) :
    ¬mark.spelling <+: text.drop cursor := by
  rw [List.drop_eq_nil_of_le h, List.prefix_nil, Mark.spelling_eq_cons]
  exact List.cons_ne_nil _ _

/-- From any cursor on, marks and commentary go on to the end of the text, and just the marks that are read
there are told. -/
theorem matches_many {cursor : Nat} (h : cursor ≤ text.length) :
    (many (.choice mark comment)).Matches text cursor
      (some (Program.ofChars (text.drop cursor), text.length)) := by
  -- By induction on how much of the text is left: a mark and a comment both take at least one character.
  induction hleft : text.length - cursor using Nat.strongRecOn generalizing cursor with
  | ind left ih =>
      have hany : comment.Matches text cursor _ := .any cursor
      by_cases hend : cursor = text.length
      · rw [if_neg (by omega)] at hany
        have hbody : (choice mark comment).Matches text cursor none :=
          .choice_none (fails_mark (not_spelled_at_end (by omega))) hany
        rw [hend, List.drop_length]
        rw [hend] at hbody
        exact .many_none hbody
      have hlt : cursor < text.length := by omega
      by_cases hspelled : ∃ mark : Mark, mark.spelling <+: text.drop cursor
      · obtain ⟨spelled, hspelled⟩ := hspelled
        have hpos : 0 < spelled.spelling.length := by
          rw [Mark.spelling_eq_cons]
          exact Nat.succ_pos _
        have hwidth := hspelled.length_le
        rw [List.length_drop] at hwidth
        have hnext : cursor + spelled.spelling.length ≤ text.length := by omega
        have hmore := ih _ (by omega) hnext rfl
        have hread : Program.ofChars (text.drop cursor) =
            spelled :: Program.ofChars (text.drop (cursor + spelled.spelling.length)) := by
          obtain ⟨rest, hrest⟩ := hspelled
          rw [← List.drop_drop, ← hrest, List.drop_left]
          exact Program.ofChars_spelling_append spelled rest
        rw [hread]
        exact .many_some (.choice_some _ (matches_mark hspelled)) hmore
      · rw [not_exists] at hspelled
        rw [if_pos hlt] at hany
        have hmore := ih _ (by omega) (Nat.succ_le_of_lt hlt) rfl
        have hread : Program.ofChars (text.drop cursor) = Program.ofChars (text.drop (cursor + 1)) := by
          rw [← Mark.spelledAt?_eq_none_iff, List.drop_eq_getElem_cons hlt] at hspelled
          rw [List.drop_eq_getElem_cons hlt]
          exact Scan.items_of_read_eq_none hspelled
        rw [hread]
        exact .many_some (.choice_none (fails_mark hspelled) hany) hmore

/-- The grammar matches every text up to its end, and tells of the marks that are read from it. -/
theorem matches_source_iff {outcome : Outcome} :
    source.Matches text 0 outcome ↔ outcome = some (Program.ofChars text, text.length) := by
  have hmany := matches_many (Nat.zero_le text.length)
  have hfinish : finish.Matches text text.length _ := .finish text.length
  rw [if_pos (Nat.le_refl _)] at hfinish
  have hsource := Matches.sequence_some (.start 0) (.sequence_some hmany hfinish)
  simp only [Outcome.behind, Option.map_some, List.append_nil, List.nil_append, List.drop_zero] at hsource
  constructor
  · intro h
    exact h.unique hsource
  · intro h
    rw [h]
    exact hsource

end ParsingExpression

end MarkMachine
