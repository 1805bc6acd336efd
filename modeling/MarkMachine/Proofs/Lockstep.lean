import MarkMachine.Proofs.Course
import MarkMachine.Proofs.Places

/-! Programs that are alike run in lockstep. Step by step their machines hold the same values, have read and
written the same and stand at the same place, however far their cursors are apart. The one difference
that shows in a machine is behind the last instruction: before padding a machine halts, and at the end of
its program it is done anyway. -/

namespace MarkMachine

namespace Session

/-- Sessions of two programs that have come to the same point of their runs. -/
structure InStep (first second : Program) (session session' : Session) : Prop
    extends Session.Matches (first.SamePlace second) session session' where
  steps : session'.machine.steps = session.machine.steps
  /-- Behind the last instruction machines may differ in whether they have halted. -/
  way : first.walk.ending = .ok session.machine.pc ∨
    session'.machine.halted = session.machine.halted ∧
      Option.Rel (first.SamePlace second) session.machine.lastPc session'.machine.lastPc

section Alike

variable {names : Label → Label} {first second : Program} (halike : first.Alike names second)
include halike

theorem inStep_initial (feed : Feed) (sink : Sink) :
    InStep first second
      ⟨{ program := first, labels := LabelTable.ofSpans first.walk.spans }, feed, sink⟩
      ⟨{ program := second, labels := LabelTable.ofSpans second.walk.spans }, feed, sink⟩ where
  stack := rfl
  heap := rfl
  feed := rfl
  sink := rfl
  pc := halike.samePlace_zero
  calls := .nil
  steps := rfl
  way := .inr ⟨rfl, .none⟩

variable {session session' : Session} (hcourse : session.machine.OnCourse first)
  (hcourse' : session'.machine.OnCourse second) (h : InStep first second session session')
include hcourse hcourse' h

/-- Steps that carry out an instruction agree. -/
theorem alike_step_of_span {span span' : Span} (hspan : span ∈ first.walk.spans)
    (hspan' : span' ∈ second.walk.spans) (hpc : span.position = session.machine.pc)
    (hpc' : span'.position = session'.machine.pc)
    (hjoined : Word.Joined names (first.SamePlace second) span span')
    (hhalted : session.machine.halted = false) (hhalted' : session'.machine.halted = false)
    (hlast : session.machine.lastPc ≠ some session.machine.pc)
    (hlast' : session'.machine.lastPc ≠ some session'.machine.pc) :
    Action.Alike (InStep first second) (Fault.Matches (first.SamePlace second) names) (step session)
      (step session') := by
  obtain ⟨hinstruction, hposition, hnext⟩ := hjoined
  rw [step_of_mem_spans hcourse.program_eq hspan hpc hhalted hlast,
    step_of_mem_spans hcourse'.program_eq hspan' hpc' hhalted' hlast', hinstruction]
  have hstart : Session.Paired (first.SamePlace second) (session.start span) (session'.start span') :=
    { h.toMatches with pc := hnext, halted := hhalted'.trans hhalted.symm }
  have hlabels : ∀ label, span.instruction.label? = some label → Option.Rel (first.SamePlace second)
      (session.start span).machine.labels[label]? (session'.start span').machine.labels[names label]? := by
    intro label hlabel
    have hrel := halike.rel_labels hspan hlabel
    rwa [← hcourse.labels_eq, ← hcourse'.labels_eq] at hrel
  refine (Action.alike_execute names hposition hstart span.instruction hlabels).of_left fun hpaired => ?_
  rw [Instruction.left_execute, Instruction.left_execute] at hpaired ⊢
  have hled := Action.perform_led span.instruction span.position (session.start span)
  have hled' := Action.perform_led (span.instruction.rename names) span'.position (session'.start span')
  refine { hpaired with steps := ?_, way := .inr ⟨hpaired.halted, ?_⟩ }
  · rw [hled.steps, hled'.steps]
    exact congrArg (· + 1) h.steps
  · rw [hled.lastPc, hled'.lastPc]
    exact .some hposition

/-- One step from the same point of two runs leads to the same point again, with the same result. -/
theorem alike_step :
    Action.Alike (InStep first second) (Fault.Matches (first.SamePlace second) names) (step session)
      (step session') := by
  by_cases hstop : first.walk.ending = .ok session.machine.pc
  · have hstop' := halike.ending_of_samePlace h.pc hstop
    obtain ⟨lastPc, halted, hstep⟩ := step_of_stop hcourse hstop
    obtain ⟨lastPc', halted', hstep'⟩ := step_of_stop hcourse' hstop'
    rw [hstep, hstep']
    exact .ok _ { h with way := .inl hstop }
  obtain ⟨span, hspan, hpc⟩ := hcourse.pc.resolve_right hstop
  have hplace := h.pc
  rw [← hpc] at hplace
  obtain ⟨span', hspan', hpc', hjoined⟩ := halike.exists_joined hspan hplace
  obtain ⟨hhalted, hlast⟩ := h.way.resolve_left hstop
  have hdone : session'.machine.isDone = session.machine.isDone := by
    rw [Machine.isDone_eq_halted hcourse.program_eq hspan hpc,
      Machine.isDone_eq_halted hcourse'.program_eq hspan' hpc', hhalted]
  have hstalled := halike.eq_some_iff hlast h.pc
  by_cases hfinished : session.machine.isDone = true
  · rw [step_of_isDone hfinished, step_of_isDone (hdone.trans hfinished)]
    exact .ok _ h
  rw [Bool.not_eq_true] at hfinished
  by_cases hstall : session.machine.lastPc = some session.machine.pc
  · rw [step_of_stalled ⟨hfinished, hstall⟩,
      step_of_stalled ⟨hdone.trans hfinished, hstalled.mp hstall⟩]
    exact .error (.malformed h.pc) h
  · rw [Machine.isDone_eq_halted hcourse.program_eq hspan hpc] at hfinished
    exact alike_step_of_span halike hcourse hcourse' h hspan hspan' hpc hpc' hjoined hfinished
      (hhalted.trans hfinished) hstall (mt hstalled.mpr hstall)

/-- Runs that are at the same point stay so, and their next steps agree. -/
theorem inStep_iterate_stepped (count : Nat) :
    InStep first second (stepped^[count] session) (stepped^[count] session') ∧
      Action.Alike (InStep first second) (Fault.Matches (first.SamePlace second) names)
        (step (stepped^[count] session)) (step (stepped^[count] session')) := by
  obtain ⟨stop, stop', hending, hending'⟩ := halike.exists_ending
  have hagree : ∀ count, InStep first second (stepped^[count] session) (stepped^[count] session') →
      Action.Alike (InStep first second) (Fault.Matches (first.SamePlace second) names)
        (step (stepped^[count] session)) (step (stepped^[count] session')) := fun count =>
    alike_step halike (onCourse_iterate_stepped hending hcourse count)
      (onCourse_iterate_stepped hending' hcourse' count)
  induction count with
  | zero => exact ⟨h, hagree 0 h⟩
  | succ count ih =>
      have hnext : InStep first second (stepped^[count + 1] session) (stepped^[count + 1] session') := by
        rw [Function.iterate_succ_apply', Function.iterate_succ_apply']
        exact ih.2.left
      exact ⟨hnext, hagree (count + 1) hnext⟩

end Alike

end Session

namespace Program

/-- The same words but for the spelling of one number make programs that are alike. -/
theorem alike_of_respelled {value : Int64} {operand operand' : List Mark}
    (h : Numeral.SpelledBy value operand) (h' : Numeral.SpelledBy value operand') (before after : List Word)
    {tail tail' : List Mark} (htail : Walk.Padding tail) (htail' : Walk.Padding tail') :
    Alike id (Word.text before ++ [.space, .space] ++ operand ++ Word.text after ++ tail)
      (Word.text before ++ [.space, .space] ++ operand' ++ Word.text after ++ tail') := by
  have hspelled {operand : List Mark} (h : Numeral.SpelledBy value operand) :
      Instruction.SpelledBy (.push value) ([.space, .space] ++ operand) :=
    ⟨_, by simp [Opcode.primary], .number _ .push h⟩
  have htext {operand : List Mark} (h : Numeral.SpelledBy value operand) :
      Word.text (before ++ ⟨.push value, _, hspelled h⟩ :: after) =
        Word.text before ++ [.space, .space] ++ operand ++ Word.text after := by
    simp only [Word.text_append, Word.text_cons, List.append_assoc]
  rw [← htext h, ← htext h']
  refine alike_text htail htail' ⟨?_, Set.injOn_id _⟩
  rw [show Instruction.rename id = id from funext fun _ => Instruction.rename_id, List.map_id]
  simp only [List.map_append, List.map_cons]

/-- **Only the instructions matter.** Programs with the same instructions, up to new names that keep labels different,
run in lockstep on any input and output, failed steps included. Texts of words that spell such instructions are
programs of this kind. In particular a number may be spelled with more or fewer leading zeros, with other marks
for the same digits, and under another sign of the same meaning. -/
theorem alike_lockstep :
    (∀ (names : Label → Label) (first second : Program), first.Alike names second →
      ∃ machine machine', Machine.ofProgram first = .ok machine ∧ Machine.ofProgram second = .ok machine' ∧
        ∀ (feed : Feed) (sink : Sink) (count : Nat),
          let session := Session.stepped^[count] ⟨machine, feed, sink⟩
          let session' := Session.stepped^[count] ⟨machine', feed, sink⟩
          session.Matches (first.SamePlace second) session' ∧
          session'.machine.steps = session.machine.steps ∧
          Action.Alike (Session.Matches (first.SamePlace second))
            (Fault.Matches (first.SamePlace second) names) (Session.step session)
            (Session.step session')) ∧
    (∀ (names : Label → Label) (words words' : List Word) (tail tail' : List Mark),
      Walk.Padding tail → Walk.Padding tail' → Word.Twins names words words' →
        Alike names (Word.text words ++ tail) (Word.text words' ++ tail')) ∧
    ∀ (value : Int64) (sign sign' : Mark) (digits digits' : List Mark) (before after : List Word)
      (tail tail' : List Mark), .line ∉ digits → .line ∉ digits' →
      Numeral.signed? sign (Numeral.magnitude digits) = some value →
      (digits'.map Mark.bit).dropWhile (· = 0) = (digits.map Mark.bit).dropWhile (· = 0) →
      ((sign' = .space ↔ sign = .space) ∨ value = 0) → Walk.Padding tail → Walk.Padding tail' →
        Alike id
          (Word.text before ++ [.space, .space] ++ (sign :: digits ++ [.line]) ++ Word.text after ++ tail)
          (Word.text before ++ [.space, .space] ++ (sign' :: digits' ++ [.line]) ++ Word.text after ++
            tail') := by
  refine ⟨fun names first second halike => ?_, ?_, ?_⟩
  · obtain ⟨stop, stop', hending, hending'⟩ := halike.exists_ending
    refine ⟨_, _, Machine.ofProgram_eq_ok_iff.mpr ⟨⟨stop, hending⟩, rfl⟩,
      Machine.ofProgram_eq_ok_iff.mpr ⟨⟨stop', hending'⟩, rfl⟩, fun feed sink count => ?_⟩
    have hrun := Session.inStep_iterate_stepped halike ?_ ?_ (Session.inStep_initial halike feed sink) count
    · exact ⟨hrun.1.toMatches, hrun.1.steps, hrun.2.of_left fun hafter => hafter.toMatches⟩
    · exact .initial hending
    · exact .initial hending'
  · exact fun names words words' tail tail' htail htail' htwins => alike_text htail htail' htwins
  · intro value sign sign' digits digits' before after tail tail' hline hline' hvalue hdigits hsign
    exact alike_of_respelled ⟨sign, digits, hline, hvalue, rfl⟩
      (Numeral.spelledBy_of_respelled hvalue hline' hdigits hsign) before after

/-- A program that calls a label to write a number writes the same when the number gets leading zeros, the
label another name and the program a last line mark. -/
theorem alike_lockstep_call :
    let first : Program := [.space, .space, .space, .tab, .line, .line, .space, .tab, .tab, .line, .line,
      .line, .line, .line, .space, .space, .tab, .line, .tab, .line, .space, .tab, .line, .tab, .line]
    let second : Program := [.space, .space, .space, .extra, .space, .tab, .line, .line, .space, .tab, .extra,
      .extra, .line, .line, .line, .line, .line, .space, .space, .extra, .extra, .line, .tab, .line, .space,
      .tab, .line, .tab, .line, .line]
    first.Alike (fun _ => [.extra, .extra]) second ∧
      ∃ machine machine', Machine.ofProgram first = .ok machine ∧ Machine.ofProgram second = .ok machine' ∧
        (Session.stepped^[5] ⟨machine', ⟨[], none⟩, {}⟩).sink.written =
          (Session.stepped^[5] ⟨machine, ⟨[], none⟩, {}⟩).sink.written := by
  intro first second
  have halike : first.Alike (fun _ => [.extra, .extra]) second := by
    refine ⟨[⟨0, .push 1⟩, ⟨5, .call [.tab]⟩, ⟨10, .stop⟩, ⟨13, .define [.tab]⟩, ⟨18, .outputNumber⟩,
      ⟨22, .ret⟩], [⟨0, .push 1⟩, ⟨7, .call [.extra, .extra]⟩, ⟨13, .stop⟩, ⟨16, .define [.extra, .extra]⟩,
      ⟨22, .outputNumber⟩, ⟨26, .ret⟩], rfl, rfl, ?_, rfl⟩
    have honly : ∀ label ∈ Instruction.labelsOf [.push 1, .call [.tab], .stop, .define [.tab], .outputNumber,
        .ret], label = [.tab] := by
      simp [Instruction.labelsOf, Instruction.label?]
    intro label hlabel other hother _
    rw [honly label hlabel, honly other hother]
  obtain ⟨machine, machine', hfirst, hsecond, hrun⟩ := alike_lockstep.1 _ first second halike
  exact ⟨halike, machine, machine', hfirst, hsecond, congrArg Sink.written (hrun ⟨[], none⟩ {} 5).1.sink⟩

end Program

end MarkMachine
