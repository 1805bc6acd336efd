import MarkMachine.Proofs.History
import MarkMachine.Proofs.Pairing

/-! A label that no instruction mentions can be defined anywhere. The definition does nothing, but it moves
all that stands behind it, and whatever leads to its place now comes to the definition first and to the
instruction there one step later. So a run with the definition takes the same steps as one without it and
some more, and stalls no more often: an instruction that led to itself may now lead to the definition. -/

namespace MarkMachine

/-- A cursor at which marks are put in, and how many. -/
structure Gap where
  cursor : Nat
  width : Nat

namespace Gap

variable (gap : Gap)

/-- Where a cursor goes that is come to: before the marks that are put in there. -/
def entry (cursor : Nat) : Nat :=
  if cursor ≤ gap.cursor then cursor else cursor + gap.width

/-- Where the instruction at a position goes: behind the marks that are put in there. -/
def site (position : Nat) : Nat :=
  if position < gap.cursor then position else position + gap.width

/-- The cursors that are come to, each with where it goes. -/
def Entries (cursor cursor' : Nat) : Prop :=
  cursor' = gap.entry cursor

/-- The positions of instructions, each with where it goes. -/
def Sites (position position' : Nat) : Prop :=
  position' = gap.site position

def move (span : Span) : Span :=
  ⟨gap.site span.position, span.instruction, gap.entry span.next⟩

variable {gap}

theorem site_inj {position other : Nat} : gap.site position = gap.site other ↔ position = other := by
  unfold site
  split_ifs <;> omega

theorem site_ne_cursor (hwidth : 0 < gap.width) (position : Nat) : gap.site position ≠ gap.cursor := by
  unfold site
  split_ifs <;> omega

theorem site_eq_entry {cursor : Nat} (h : cursor ≠ gap.cursor) : gap.site cursor = gap.entry cursor := by
  unfold site entry
  split_ifs <;> omega

theorem entry_cursor : gap.entry gap.cursor = gap.cursor :=
  if_pos (Nat.le_refl _)

theorem site_cursor : gap.site gap.cursor = gap.cursor + gap.width :=
  if_neg (Nat.lt_irrefl _)

theorem map_move_layout_before (words : List Word) (position : Nat)
    (h : position + (Word.text words).length ≤ gap.cursor) :
    (Word.layout position words).map gap.move = Word.layout position words := by
  induction words generalizing position with
  | nil => rfl
  | cons word words ih =>
      have hpos := word.spelled.length_pos
      rw [Word.length_text_cons] at h
      rw [Word.layout, List.map_cons, ih _ (by omega), move, site, entry]
      rw [if_pos (show position < gap.cursor by omega),
        if_pos (show position + word.marks.length ≤ gap.cursor by omega)]

theorem map_move_layout_behind (words : List Word) (position : Nat) (h : gap.cursor ≤ position) :
    (Word.layout position words).map gap.move = Word.layout (position + gap.width) words := by
  induction words generalizing position with
  | nil => rfl
  | cons word words ih =>
      have hpos := word.spelled.length_pos
      rw [Word.layout, List.map_cons, ih _ (by omega), Word.layout, move, site, entry]
      rw [if_neg (show ¬position < gap.cursor by omega),
        if_neg (show ¬position + word.marks.length ≤ gap.cursor by omega)]
      rw [Nat.add_right_comm]

end Gap

namespace Program

/-- The program with a label defined at a cursor. -/
def withLabel (program : Program) (cursor : Nat) (label : Label) : Program :=
  program.take cursor ++ (Instruction.define label).encode ++ program.drop cursor

/-- What a new label adds to a program that does not mention it. -/
structure Widened (gap : Gap) (label : Label) (first second : Program) : Prop where
  width : 0 < gap.width
  unused : ∀ span ∈ first.walk.spans, span.instruction.label? ≠ some label
  spans : ∃ before after, first.walk.spans = before ++ after ∧
    second.walk.spans = before.map gap.move ++
      ⟨gap.cursor, .define label, gap.cursor + gap.width⟩ :: after.map gap.move
  ending : ∃ stop, first.walk.ending = .ok stop ∧ second.walk.ending = .ok (gap.site stop)

theorem widened_withLabel {program : Program} {stop cursor : Nat} {label : Label}
    (hending : program.walk.ending = .ok stop) (hcursor : program.Boundary cursor) (hline : .line ∉ label)
    (hunused : ∀ span ∈ program.walk.spans, span.instruction.label? ≠ some label) :
    Widened ⟨cursor, (Instruction.define label).encode.length⟩ label program
      (program.withLabel cursor label) := by
  obtain ⟨words, tail, rfl, htail, hspans, hstop⟩ := exists_words_of_ending hending
  obtain ⟨before, after, rfl, rfl⟩ := (boundary_text_iff htail).mp hcursor
  have hfree : (Instruction.define label).LineFree := by
    rintro _ ⟨⟩
    exact hline
  have hwith : withLabel (Word.text (before ++ after) ++ tail) (Word.text before).length label =
      Word.text (before ++ Word.ofInstruction (.define label) hfree :: after) ++ tail := by
    simp [withLabel, Word.text_append, Word.text_cons, Word.ofInstruction]
  refine ⟨?_, hunused, ⟨Word.layout 0 before, Word.layout (Word.text before).length after, ?_, ?_⟩, stop,
    hending, ?_⟩
  · simp [Instruction.encode]
  · rw [hspans, Word.layout_append, Nat.zero_add]
  · rw [hwith, walk_text_padding _ htail, Gap.map_move_layout_before, Gap.map_move_layout_behind]
    · simp [Word.layout_append, Word.layout, Word.ofInstruction]
    · exact Nat.le_refl _
    · simp
  · rw [hwith, walk_text_padding _ htail, hstop, Gap.site, if_neg]
    · simp [Word.text_append, Word.text_cons, Word.ofInstruction]
      omega
    · simp [Word.text_append]

namespace Widened

variable {gap : Gap} {label : Label} {first second : Program} (h : Widened gap label first second)
include h

theorem mem_spans {span : Span} (hspan : span ∈ first.walk.spans) : gap.move span ∈ second.walk.spans := by
  obtain ⟨before, after, hfirst, hsecond⟩ := h.spans
  rw [hfirst, List.mem_append] at hspan
  rw [hsecond, List.mem_append, List.mem_cons]
  rcases hspan with hspan | hspan
  · exact .inl (List.mem_map_of_mem hspan)
  · exact .inr (.inr (List.mem_map_of_mem hspan))

theorem mem_spans_define : ⟨gap.cursor, .define label, gap.cursor + gap.width⟩ ∈ second.walk.spans := by
  obtain ⟨before, after, _, hsecond⟩ := h.spans
  simp [hsecond]

/-- The other labels lead to where they led before. -/
theorem labels {other : Label} (hother : other ≠ label) :
    (LabelTable.ofSpans second.walk.spans)[other]? =
      (LabelTable.ofSpans first.walk.spans)[other]?.map gap.entry := by
  obtain ⟨before, after, hfirst, hsecond⟩ := h.spans
  have hdefine : Span.defines other ⟨gap.cursor, .define label, gap.cursor + gap.width⟩ = false := by
    simp [Span.defines, hother.symm]
  have hdefines : Span.defines other ∘ gap.move = Span.defines other := rfl
  have hfilter : second.walk.spans.filter (Span.defines other) =
      (first.walk.spans.filter (Span.defines other)).map gap.move := by
    rw [hfirst, hsecond, List.filter_append, List.filter_cons_of_neg (by simp [hdefine]), List.filter_map,
      List.filter_map, hdefines, List.filter_append, List.map_append]
  rw [LabelTable.getElem?_ofSpans, LabelTable.getElem?_ofSpans, hfilter, List.getLast?_map, Option.map_map,
    Option.map_map]
  rfl

end Widened

end Program

/-- Sessions with the same values, input and output. -/
structure Session.SameYield (first second : Session) : Prop where
  stack : second.machine.stack = first.machine.stack
  heap : second.machine.heap = first.machine.heap
  feed : second.feed = first.feed
  sink : second.sink = first.sink

theorem Session.Matches.sameYield {places : Nat → Nat → Prop} {first second : Session}
    (h : first.Matches places second) : first.SameYield second :=
  ⟨h.stack, h.heap, h.feed, h.sink⟩

/-- The same result, with a fault at the place where its instruction has gone. -/
inductive Gap.SameResult (gap : Gap) : Except Fault Unit → Except Fault Unit → Prop
  | ok : SameResult gap (.ok ()) (.ok ())
  | error {fault fault' : Fault} (h : fault.Matches gap.Sites id fault') :
      SameResult gap (.error fault) (.error fault')

namespace Session

/-- A session beside one of the program with the new label, where both are about to begin the same
instruction. The second may stand before the new definition. -/
structure Beside (gap : Gap) (session session' : Session) : Prop
    extends Session.Paired gap.Entries session session' where
  lastPc : session'.machine.lastPc = session.machine.lastPc.map gap.site

/-- What a step comes to with the new label. -/
inductive Follows (gap : Gap) :
    EStateM.Result Fault Session Outcome → EStateM.Result Fault Session Outcome → Prop
  | running {after after' : Session} (h : after.Beside gap after') :
      Follows gap (.ok .running after) (.ok .running after')
  | finished {after after' : Session} (h : after.SameYield after') :
      Follows gap (.ok .finished after) (.ok .finished after')
  | failed {fault fault' : Fault} {after after' : Session} (hfault : fault.Matches gap.Sites id fault')
      (h : after.SameYield after') : Follows gap (.error fault after) (.error fault' after')

section Widened

variable {gap : Gap} {label : Label} {first second : Program} (hwidened : first.Widened gap label second)
  {session session' : Session}
include hwidened

/-- A session that is beside another comes to the same instruction, over the new definition if that is in
its way. -/
theorem Beside.arrive (h : session.Beside gap session') (hprogram : session'.machine.program = second)
    (hhalted : session.machine.halted = false) :
    ∃ count lastPc steps, session'.Goes count ∧
      stepped^[count] session' = { session' with machine := { session'.machine with
        pc := gap.site session.machine.pc, lastPc, steps } } ∧
      (session.machine.lastPc ≠ some session.machine.pc → lastPc ≠ some (gap.site session.machine.pc)) := by
  have hpc : session'.machine.pc = gap.entry session.machine.pc := h.pc
  by_cases hcursor : session.machine.pc = gap.cursor
  · rw [hcursor, Gap.entry_cursor] at hpc
    rw [hcursor, Gap.site_cursor]
    have hlast : session'.machine.lastPc ≠ some session'.machine.pc := by
      rw [h.lastPc, hpc]
      intro hlast
      obtain ⟨position, _, hposition⟩ := Option.map_eq_some_iff.mp hlast
      exact Gap.site_ne_cursor hwidened.width position hposition
    have hstep := step_of_mem_spans hprogram hwidened.mem_spans_define hpc.symm (h.halted.trans hhalted) hlast
    have hrunning : step session' = .ok .running
        (session'.start ⟨gap.cursor, .define label, gap.cursor + gap.width⟩) := hstep
    refine ⟨1, some gap.cursor, session'.machine.steps + 1, ?_, ?_, ?_⟩
    · intro index hindex
      obtain rfl : index = 0 := by omega
      exact ⟨_, hrunning⟩
    · rw [Function.iterate_one, stepped, hrunning]
      rfl
    · intro _ hlast
      have hpos := hwidened.width
      simp only [Option.some.injEq] at hlast
      omega
  · rw [← Gap.site_eq_entry hcursor] at hpc
    refine ⟨0, session'.machine.lastPc, session'.machine.steps, goes_zero session', ?_, ?_⟩
    · rw [Function.iterate_zero_apply, ← hpc]
    · intro hlast
      rw [h.lastPc, Ne, Option.map_eq_some_iff]
      rintro ⟨position, hposition, hsite⟩
      rw [Gap.site_inj.mp hsite] at hposition
      exact hlast hposition

/-- The step that carries out an instruction of the program is the same with the new label. -/
theorem follows_execute {span : Span} (hspan : span ∈ first.walk.spans)
    (hlabels : session.machine.labels = LabelTable.ofSpans first.walk.spans)
    (hlabels' : session'.machine.labels = LabelTable.ofSpans second.walk.spans)
    (h : (session.start span).Paired gap.Entries (session'.start (gap.move span))) :
    Follows gap (span.instruction.execute span.position (session.start span))
      (span.instruction.execute (gap.site span.position) (session'.start (gap.move span))) := by
  have hrel : ∀ other, span.instruction.label? = some other →
      Option.Rel gap.Entries (session.start span).machine.labels[other]?
        (session'.start (gap.move span)).machine.labels[id other]? := by
    intro other hother
    have hne : other ≠ label := by
      rintro rfl
      exact hwidened.unused span hspan hother
    change Option.Rel _ session.machine.labels[other]? session'.machine.labels[other]?
    rw [hlabels, hlabels', hwidened.labels hne]
    cases (LabelTable.ofSpans first.walk.spans)[other]? with
    | none => exact .none
    | some cursor => exact .some rfl
  have hsite : gap.Sites span.position (gap.site span.position) := rfl
  have halike := Action.alike_execute id hsite h span.instruction hrel
  rw [Instruction.rename_id] at halike
  have hled := Action.perform_led span.instruction span.position (session.start span)
  have hled' := Action.perform_led span.instruction (gap.site span.position) (session'.start (gap.move span))
  rw [← Instruction.left_execute] at hled hled'
  have hlast := hled.lastPc
  have hlast' := hled'.lastPc
  generalize span.instruction.execute span.position (session.start span) = result at halike hlast ⊢
  generalize span.instruction.execute (gap.site span.position) (session'.start (gap.move span)) = result'
    at halike hlast' ⊢
  cases halike with
  | error hfault hafter => exact .failed hfault hafter.sameYield
  | ok outcome hafter =>
      cases outcome with
      | finished => exact .finished hafter.sameYield
      | running =>
          refine .running { hafter with lastPc := ?_ }
          change _ = some span.position at hlast
          change _ = some (gap.site span.position) at hlast'
          exact hlast'.trans (congrArg (Option.map gap.site) hlast).symm

/-- One step that is no stall is followed by one with the new label, or by two. -/
theorem Beside.follows_step (h : session.Beside gap session') (hcourse : session.machine.OnCourse first)
    (hcourse' : session'.machine.OnCourse second) (hstall : ¬session.machine.Stalled) :
    ∃ count, session'.Goes count ∧ Follows gap (step session) (step (stepped^[count] session')) := by
  by_cases hhalted : session.machine.halted = true
  · have hdone : session.machine.isDone = true := by simp [Machine.isDone, hhalted]
    have hdone' : session'.machine.isDone = true := by simp [Machine.isDone, h.halted, hhalted]
    refine ⟨0, goes_zero session', ?_⟩
    rw [Function.iterate_zero_apply, step_of_isDone hdone, step_of_isDone hdone']
    exact .finished h.sameYield
  rw [Bool.not_eq_true] at hhalted
  obtain ⟨count, lastPc, steps, hgoes, harrived, hlast⟩ := h.arrive hwidened hcourse'.program_eq hhalted
  obtain ⟨stop, hending, hending'⟩ := hwidened.ending
  have harrival := onCourse_iterate_stepped hending' hcourse' count
  rw [harrived] at harrival
  refine ⟨count, hgoes, ?_⟩
  rw [harrived]
  by_cases hstop : first.walk.ending = .ok session.machine.pc
  · obtain rfl : stop = session.machine.pc := Except.ok.inj (hending.symm.trans hstop)
    obtain ⟨lastPc, halted, hstep⟩ := step_of_stop hcourse hstop
    obtain ⟨lastPc', halted', hstep'⟩ := step_of_stop harrival hending'
    rw [hstep, hstep']
    exact .finished ⟨h.stack, h.heap, h.feed, h.sink⟩
  · obtain ⟨span, hspan, hpc⟩ := hcourse.pc.resolve_right hstop
    have hdone : session.machine.isDone = false :=
      (Machine.isDone_eq_halted hcourse.program_eq hspan hpc).trans hhalted
    have hnew : session.machine.lastPc ≠ some session.machine.pc := fun hlast => hstall ⟨hdone, hlast⟩
    rw [step_of_mem_spans hcourse.program_eq hspan hpc hhalted hnew,
      step_of_mem_spans harrival.program_eq (hwidened.mem_spans hspan) (congrArg gap.site hpc)
        (h.halted.trans hhalted) (hlast hnew)]
    refine follows_execute hwidened hspan hcourse.labels_eq harrival.labels_eq ?_
    exact ⟨⟨h.stack, h.heap, h.feed, h.sink, rfl, h.calls⟩, h.halted⟩

omit hwidened

/-- Sessions with the same values, input and output are closed alike. -/
theorem SameYield.close (h : session.SameYield session') {result result' : Except Fault Unit}
    (hresult : gap.SameResult result result') :
    gap.SameResult (verdict result session.sink) (verdict result' session'.sink) ∧
      (Action.left (Action.toSink Sink.flush session)).SameYield
        (Action.left (Action.toSink Sink.flush session')) := by
  obtain ⟨machine, feed, sink⟩ := session
  obtain ⟨machine', feed', sink'⟩ := session'
  obtain ⟨hstack, hheap, rfl, rfl⟩ := h
  constructor
  · cases hresult with
    | error hfault => exact .error hfault
    | ok =>
        simp only [verdict]
        split_ifs
        · exact .error (.device _)
        · exact .ok
  · simp only [Action.toSink, Sink.flush]
    split_ifs <;> exact ⟨hstack, hheap, rfl, rfl⟩

include hwidened

/-- A run that ends without a stall ends alike with the new label. -/
theorem Beside.follows_advance (h : session.Beside gap session') (hcourse : session.machine.OnCourse first)
    (hcourse' : session'.machine.OnCourse second) {count : Nat} {result : Except Fault Unit} {final : Session}
    (hended : advance count session = .ended result final)
    (hstall : ∀ position, result ≠ .error (.malformed position)) :
    ∃ count' result' final', advance count' session' = .ended result' final' ∧
      gap.SameResult result result' ∧ final.SameYield final' := by
  induction count generalizing session session' with
  | zero => cases hended
  | succ count ih =>
      obtain ⟨stop, hending, hending'⟩ := hwidened.ending
      have hfresh : ¬session.machine.Stalled := by
        intro hstalled
        rw [advance, step_of_stalled hstalled] at hended
        dsimp only at hended
        rw [close_eq] at hended
        cases hended
        exact hstall _ rfl
      obtain ⟨more, hgoes, hfollows⟩ := h.follows_step hwidened hcourse hcourse' hfresh
      have hcourses := onCourse_stepped hending hcourse
      have hcourses' := onCourse_iterate_stepped hending' hcourse' (more + 1)
      rw [Function.iterate_succ_apply'] at hcourses'
      rw [stepped] at hcourses hcourses'
      rw [advance] at hended
      generalize hstep : step session = outcome at hended hfollows hcourses
      generalize hstep' : step (stepped^[more] session') = outcome' at hfollows hcourses'
      cases hfollows with
      | running hbeside =>
          obtain ⟨count', result', final', hended', hsame⟩ := ih hbeside hcourses hcourses' hended
          refine ⟨more + (count' + 1), result', final', ?_, hsame⟩
          rw [advance_add hgoes, advance, hstep']
          exact hended'
      | finished hyield =>
          dsimp only at hended
          rw [close_eq] at hended
          cases hended
          refine ⟨more + 1, _, _, ?_, hyield.close .ok⟩
          rw [advance_add hgoes, advance, hstep']
          exact close_eq _ _
      | failed hfault hyield =>
          dsimp only at hended
          rw [close_eq] at hended
          cases hended
          refine ⟨more + 1, _, _, ?_, hyield.close (.error hfault)⟩
          rw [advance_add hgoes, advance, hstep']
          exact close_eq _ _

end Widened

end Session

/-- **A label that nothing mentions changes nothing.** Put the definition of a label that no instruction mentions
between any two instructions of a program that is accepted, at its start or at its end. It is still accepted. If
a run of it ended before, and not by a stall, it ends now with the same result, about the same instruction, and
with the same output, flushes, unread input, stack and heap. -/
theorem run_withLabel {source source' : String} {cursor : Nat} {label : Label}
    (haccepted : ∃ machine, Machine.load source = .ok machine)
    (hcursor : (Program.ofSource source).Boundary cursor) (hline : .line ∉ label)
    (hunused : ∀ span ∈ (Program.ofSource source).walk.spans, span.instruction.label? ≠ some label)
    (hsource : Program.ofSource source' = (Program.ofSource source).withLabel cursor label) :
    let gap : Gap := ⟨cursor, (Instruction.define label).encode.length⟩
    (∃ machine, Machine.load source' = .ok machine) ∧
    (∀ span ∈ (Program.ofSource source).walk.spans, gap.move span ∈ (Program.ofSource source').walk.spans) ∧
    ∀ feed sink count report, run count source feed sink = some report →
      (∀ position, report.result ≠ .error (.malformed position)) →
      ∃ count' report', run count' source' feed sink = some report' ∧
        gap.SameResult report.result report'.result ∧
        report'.sink = report.sink ∧ report'.feed = report.feed ∧
        ∃ machine machine', report.machine = some machine ∧ report'.machine = some machine' ∧
          machine'.stack = machine.stack ∧ machine'.heap = machine.heap := by
  intro gap
  obtain ⟨machine, hmachine⟩ := haccepted
  obtain ⟨⟨stop, hending⟩, rfl⟩ := Machine.ofProgram_eq_ok_iff.mp hmachine
  have hwidened := Program.widened_withLabel hending hcursor hline hunused
  rw [← hsource] at hwidened
  obtain ⟨_, _, hending'⟩ := hwidened.ending
  refine ⟨⟨_, Machine.ofProgram_eq_ok_iff.mpr ⟨⟨_, hending'⟩, rfl⟩⟩, fun span => hwidened.mem_spans, ?_⟩
  intro feed sink count report hrun hstall
  rw [run, Session.load_of_ending hending] at hrun
  simp only at hrun
  split at hrun
  · cases hrun
  · next result final hended =>
      cases hrun
      have hbeside : Session.Beside gap
          ⟨{ program := Program.ofSource source
             labels := LabelTable.ofSpans (Program.ofSource source).walk.spans }, feed, sink⟩
          ⟨{ program := Program.ofSource source'
             labels := LabelTable.ofSpans (Program.ofSource source').walk.spans }, feed, sink⟩ :=
        ⟨⟨⟨rfl, rfl, rfl, rfl, (if_pos (Nat.zero_le cursor)).symm, .nil⟩, rfl⟩, rfl⟩
      obtain ⟨count', result', final', hended', hsame, hyield⟩ :=
        hbeside.follows_advance hwidened (.initial hending) (.initial hending') hended hstall
      refine ⟨count', ⟨result', some final'.machine, final'.feed, final'.sink⟩, ?_, hsame, hyield.sink,
        hyield.feed, _, _, rfl, rfl, hyield.stack, hyield.heap⟩
      rw [run, Session.load_of_ending hending']
      simp only [hended']

/-- A jump leads to where the new label is put in, and on to an instruction that fails there. -/
theorem run_withLabel_swap :
    let source := "\n便利\n\n\n便利便利\n便利\n感極まってきました"
    let source' := "\n便利\n\n\n便利便利\n\n便利便利感極まってきました\n便利\n感極まってきました"
    (∃ report, run 3 source ⟨[], none⟩ {} = some report ∧ report.result = .error (.stackUnderflow "swap" 8)) ∧
      ∃ count report, run count source' ⟨[], none⟩ {} = some report ∧
        report.result = .error (.stackUnderflow "swap" 13) := by
  intro source source'
  have hspans : (Program.ofSource source).walk.spans =
      [⟨0, .jump [], 4⟩, ⟨4, .define [], 8⟩, ⟨8, .swap, 11⟩] := by
    decide +kernel
  have hending : (Program.ofSource source).walk.ending = .ok 11 := by
    decide +kernel
  have hresult : (run 3 source ⟨[], none⟩ {}).map Report.result = some (.error (.stackUnderflow "swap" 8)) := by
    decide +kernel
  obtain ⟨report, hrun, hreport⟩ := Option.map_eq_some_iff.mp hresult
  have hcursor : (Program.ofSource source).Boundary 8 := .inl ⟨⟨8, .swap, 11⟩, by simp [hspans], rfl⟩
  have hline : Mark.line ∉ [Mark.tab] := by decide
  have hunused : ∀ span ∈ (Program.ofSource source).walk.spans, span.instruction.label? ≠ some [.tab] := by
    simp [hspans, Instruction.label?]
  have hsource : Program.ofSource source' = (Program.ofSource source).withLabel 8 [.tab] := by
    decide +kernel
  have hlabel := run_withLabel ⟨_, Machine.ofProgram_eq_ok_iff.mpr ⟨⟨11, hending⟩, rfl⟩⟩ hcursor hline hunused
    hsource
  obtain ⟨count, report', hrun', hsame, _⟩ := hlabel.2.2 ⟨[], none⟩ {} 3 report hrun (by simp [hreport])
  refine ⟨⟨report, hrun, hreport⟩, count, report', hrun', ?_⟩
  rw [hreport] at hsame
  generalize report'.result = result at hsame
  cases hsame with
  | error hfault =>
      cases hfault with
      | stackUnderflow _ hsite => rw [show _ = 13 from hsite]

end MarkMachine
