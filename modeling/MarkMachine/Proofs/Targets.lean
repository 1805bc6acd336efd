import MarkMachine.Proofs.Decoding
import MarkMachine.Proofs.Failure
import MarkMachine.Proofs.History

/-! Where labels lead. A label leads behind its last definition in the walk of the program, wherever that
stands, and the label is just the marks that stand there. So a call, a jump or a branch that is taken goes
on behind the last definition of its label, and fails just if the walk has read none. -/

namespace MarkMachine

/-- A span defines a label, and no span behind it does so again. -/
def LastDefinition (spans : List Span) (label : Label) (span : Span) : Prop :=
  ∃ before after, spans = before ++ span :: after ∧ span.instruction = .define label ∧
    ∀ later ∈ after, later.instruction ≠ .define label

theorem getLast?_defines_iff {spans : List Span} {label : Label} {span : Span} :
    (spans.filter (Span.defines label)).getLast? = some span ↔ LastDefinition spans label span := by
  rw [List.getLast?_filter, List.find?_eq_some_iff_append]
  constructor
  · rintro ⟨hdefines, after, before, hspans, hafter⟩
    rw [List.reverse_eq_append_iff, List.reverse_cons, List.append_assoc] at hspans
    refine ⟨before.reverse, after.reverse, hspans, of_decide_eq_true hdefines, ?_⟩
    intro later hlater
    simpa [Span.defines] using hafter later (List.mem_reverse.mp hlater)
  · rintro ⟨before, after, rfl, hdefines, hafter⟩
    refine ⟨decide_eq_true hdefines, after.reverse, before.reverse, by simp, ?_⟩
    intro later hlater
    simpa [Span.defines] using hafter later (List.mem_reverse.mp hlater)

namespace LabelTable

theorem getElem?_eq_some_iff {spans : List Span} {label : Label} {cursor : Nat} :
    (ofSpans spans)[label]? = some cursor ↔ ∃ span, LastDefinition spans label span ∧ span.next = cursor := by
  rw [getElem?_ofSpans, Option.map_eq_some_iff]
  simp only [getLast?_defines_iff]

theorem getElem?_eq_none_iff {spans : List Span} {label : Label} :
    (ofSpans spans)[label]? = none ↔ ∀ span ∈ spans, span.instruction ≠ .define label := by
  rw [getElem?_ofSpans, Option.map_eq_none_iff, List.getLast?_eq_none_iff, List.filter_eq_nil_iff]
  simp [Span.defines]

theorem mem_keys_iff {spans : List Span} {label : Label} :
    label ∈ (ofSpans spans).keys ↔ ∃ span ∈ spans, span.instruction = .define label := by
  rw [Std.TreeMap.mem_keys, Std.TreeMap.mem_iff_isSome_getElem?, Option.isSome_iff_ne_none, Ne,
    getElem?_eq_none_iff]
  simp only [ne_eq, not_forall, not_not, exists_prop]

/-- Labels are the same only if their marks are, so a table has each label once. -/
theorem nodup_keys (table : LabelTable) : table.keys.Nodup := by
  refine Std.TreeMap.distinct_keys.imp ?_
  rintro first second hne rfl
  exact hne Std.ReflCmp.compare_self

end LabelTable

namespace Instruction

/-- A definition is spelled by its pattern, the marks of its label and a line mark. -/
theorem Form.eq_of_define {label : Label} {marks : List Mark} (h : Form (.define label) marks) :
    marks = [.line, .space, .space] ++ label ++ [.line] := by
  generalize hinstruction : Instruction.define label = instruction at h
  cases h with
  | plain hrow => simp [Opcode.primary, ← hinstruction] at hrow
  | operator _ _ => cases hinstruction
  | number _ _ _ => cases hinstruction
  | label hrow _ _ =>
      simp only [Opcode.primary, List.mem_cons, Opcode.label.injEq, reduceCtorEq, false_or, or_false,
        List.not_mem_nil] at hrow
      rcases hrow with ⟨rfl, rfl⟩ | ⟨_, rfl⟩ | ⟨_, rfl⟩ | ⟨_, rfl⟩ | ⟨_, rfl⟩ <;> cases hinstruction
      rfl

end Instruction

theorem Program.marks_of_define {program : Program} {span : Span} (hspan : span ∈ program.walk.spans)
    {label : Label} (hdefine : span.instruction = .define label) :
    (program.take span.next).drop span.position = [.line, .space, .space] ++ label ++ [.line] := by
  obtain ⟨hdecode, hlt, _⟩ := decode_of_mem_spans hspan
  obtain ⟨_, _, hform⟩ := Instruction.decodeAt_eq_found_iff.mp hdecode
  rw [Nat.add_sub_of_le (Nat.le_of_lt hlt), hdefine] at hform
  exact hform.eq_of_define

/-- An instruction sends a machine with such a stack to a label: it is a call or a jump, or it is a branch that
is taken on the value on top of the stack. -/
inductive Instruction.Sends (stack : Stack) (label : Label) : Instruction → Prop
  | call : Sends stack label (.call label)
  | jump : Sends stack label (.jump label)
  | branch {instruction : Instruction} {taken : Int64 → Bool} {value : Value} {rest : Stack}
      (hbranch : instruction.branch? = some (label, taken)) (hstack : stack = value :: rest)
      (htaken : taken value.toInteger = true) : Sends stack label instruction

theorem Instruction.Sends.ne_stop {stack : Stack} {label : Label} {instruction : Instruction}
    (h : instruction.Sends stack label) : instruction ≠ .stop := by
  rintro rfl
  cases h with
  | branch hbranch _ _ => cases hbranch

namespace Action

/-- A branch that is taken jumps when it has taken its value off the stack. -/
theorem perform_of_taken {instruction : Instruction} {label : Label} {taken : Int64 → Bool}
    (hbranch : instruction.branch? = some (label, taken)) {machine : Machine} {value : Value} {rest : Stack}
    (hstack : machine.stack = value :: rest) (htaken : taken value.toInteger = true) (position : Nat)
    (feed : Feed) (sink : Sink) :
    perform instruction position ⟨machine, feed, sink⟩ =
      perform (.jump label) position ⟨{ machine with stack := rest }, feed, sink⟩ := by
  rw [perform_branch hbranch, hstack]
  exact if_pos htaken

/-- An instruction that sends the machine to a label takes it to where the label leads. -/
theorem perform_of_sends {instruction : Instruction} {session : Session} {label : Label} {cursor : Nat}
    (hsends : instruction.Sends session.machine.stack label)
    (hlabel : session.machine.labels[label]? = some cursor) (position : Nat) :
    ∃ after, perform instruction position session = .ok () after ∧ after.machine.pc = cursor := by
  cases hsends with
  | call => exact ⟨_, perform_call_of_label hlabel position, rfl⟩
  | jump => exact ⟨_, perform_jump_of_label hlabel position, rfl⟩
  | @branch _ _ _ rest hbranch hstack htaken =>
      let popped : Session := { session with machine := { session.machine with stack := rest } }
      have hpopped : popped.machine.labels[label]? = some cursor := hlabel
      have hjump := perform_of_taken hbranch hstack htaken position session.feed session.sink
      exact ⟨_, hjump.trans (perform_jump_of_label hpopped position), rfl⟩

/-- A label is unknown just to an instruction that sends the machine there when the label leads nowhere. -/
theorem perform_unknownLabel_iff (instruction : Instruction) (position : Nat) (session : Session)
    (label : Label) (place : Nat) :
    (∃ after, perform instruction position session = .error (.unknownLabel label place) after) ↔
      place = position ∧ instruction.Sends session.machine.stack label ∧
        session.machine.labels[label]? = none := by
  simp only [perform_eq_error_iff]
  constructor
  · rintro ⟨after, h⟩
    cases h with
    | target hinstruction hlabel =>
        rcases hinstruction with rfl | rfl
        · exact ⟨rfl, .call, hlabel⟩
        · exact ⟨rfl, .jump, hlabel⟩
    | branch hbranch hstack htaken hlabel => exact ⟨rfl, .branch hbranch hstack htaken, hlabel⟩
  · rintro ⟨rfl, hsends, hlabel⟩
    cases hsends with
    | call => exact ⟨_, .target (.inl rfl) hlabel⟩
    | jump => exact ⟨_, .target (.inr rfl) hlabel⟩
    | branch hbranch hstack htaken => exact ⟨_, .branch hbranch hstack htaken hlabel⟩

end Action

namespace Session

/-- The next step begins an instruction that sends the machine to a label. -/
def Sends (session : Session) (label : Label) : Prop :=
  ∃ instruction, session.machine.due? = some instruction ∧ instruction.Sends session.machine.stack label

section Course

variable {program : Program} {session : Session} (h : session.machine.OnCourse program)
include h

theorem step_unknownLabel_iff (label : Label) (place : Nat) :
    (∃ after, step session = .error (.unknownLabel label place) after) ↔
      place = session.machine.pc ∧ session.Sends label ∧
        ∀ span ∈ program.walk.spans, span.instruction ≠ .define label := by
  rw [← LabelTable.getElem?_eq_none_iff, ← h.labels_eq]
  constructor
  · rintro ⟨after, hstep⟩
    obtain ⟨instruction, hdue⟩ := exists_due_of_error h hstep trivial
    obtain ⟨span, _, _, _, hexecute⟩ := step_of_due h hdue
    rw [hexecute, Instruction.execute_eq_error_iff] at hstep
    obtain ⟨hplace, hsends, hlabel⟩ := (Action.perform_unknownLabel_iff _ _ _ _ _).mp ⟨after, hstep⟩
    exact ⟨hplace, ⟨instruction, hdue, hsends⟩, hlabel⟩
  · rintro ⟨rfl, ⟨instruction, hdue, hsends⟩, hlabel⟩
    obtain ⟨span, _, _, _, hexecute⟩ := step_of_due h hdue
    obtain ⟨after, hperform⟩ := (Action.perform_unknownLabel_iff instruction session.machine.pc
      (session.start span) label _).mpr ⟨rfl, hsends, hlabel⟩
    refine ⟨after, ?_⟩
    rw [hexecute, Instruction.execute_eq_error_iff, hperform]

/-- A step that is sent to a label with a definition is completed behind the last one. -/
theorem step_of_sends {label : Label} (hsends : session.Sends label) {target : Span}
    (htarget : LastDefinition program.walk.spans label target) :
    ∃ after, step session = .ok .running after ∧ after.machine.pc = target.next := by
  obtain ⟨instruction, hdue, hsent⟩ := hsends
  have hlabel : session.machine.labels[label]? = some target.next := by
    rw [h.labels_eq, LabelTable.getElem?_eq_some_iff]
    exact ⟨target, htarget, rfl⟩
  obtain ⟨span, _, _, _, hexecute⟩ := step_of_due h hdue
  have hstart : instruction.Sends (session.start span).machine.stack label := hsent
  obtain ⟨after, hperform, hpc⟩ := Action.perform_of_sends hstart hlabel session.machine.pc
  refine ⟨after, ?_, hpc⟩
  rw [hexecute, Instruction.execute_running hperform hsent.ne_stop]

theorem exists_target_of_step {label : Label} (hsends : session.Sends label) {outcome : Outcome}
    {after : Session} (hstep : step session = .ok outcome after) :
    ∃ target, LastDefinition program.walk.spans label target ∧ after.machine.pc = target.next := by
  cases hlabel : session.machine.labels[label]? with
  | none =>
      rw [h.labels_eq, LabelTable.getElem?_eq_none_iff] at hlabel
      obtain ⟨_, herror⟩ := (step_unknownLabel_iff h label _).mpr ⟨rfl, hsends, hlabel⟩
      rw [hstep] at herror
      cases herror
  | some cursor =>
      rw [h.labels_eq, LabelTable.getElem?_eq_some_iff] at hlabel
      obtain ⟨target, htarget, _⟩ := hlabel
      obtain ⟨_, hok, hpc⟩ := step_of_sends h hsends htarget
      rw [hstep] at hok
      cases hok
      exact ⟨target, htarget, hpc⟩

end Course

end Session

/-- **Labels lead behind their last definitions.** A label of a program that can be read to its end leads to where the
walk has its last definition end. After any steps, a call, a jump or a branch that is taken goes on there, wherever
that is and whether or not it has been reached; it fails for want of the label, at its own cursor, just if the
walk defines the label nowhere. -/
theorem Program.labels_lead_behind_last_definition {program : Program} {stop : Nat}
    (hending : program.walk.ending = .ok stop) :
    (∃ table, program.labels = .ok table ∧
      (∀ (label : Label) (cursor : Nat), table[label]? = some cursor ↔
        ∃ span, LastDefinition program.walk.spans label span ∧ span.next = cursor ∧
          (program.take cursor).drop span.position = [.line, .space, .space] ++ label ++ [.line]) ∧
      (∀ label, label ∈ table.keys ↔ ∃ span ∈ program.walk.spans, span.instruction = .define label) ∧
      table.keys.Nodup) ∧
    ∀ source feed sink, Program.ofSource source = program →
      ∃ session, Session.load source feed sink = .ok session ∧ ∀ count,
        let state := Session.stepped^[count] session
        (∀ label target, state.Sends label → LastDefinition program.walk.spans label target →
          ∃ after, Session.step state = .ok .running after ∧ after.machine.pc = target.next) ∧
        (∀ label outcome after, state.Sends label → Session.step state = .ok outcome after →
          ∃ target, LastDefinition program.walk.spans label target ∧ after.machine.pc = target.next) ∧
        (∀ label position, (∃ after, Session.step state = .error (.unknownLabel label position) after) ↔
          position = state.machine.pc ∧ state.Sends label ∧
            ∀ span ∈ program.walk.spans, span.instruction ≠ .define label) := by
  constructor
  · refine ⟨LabelTable.ofSpans program.walk.spans, ?_, ?_, fun _ => LabelTable.mem_keys_iff,
      LabelTable.nodup_keys _⟩
    · rw [labels, hending]
      rfl
    · intro label cursor
      rw [LabelTable.getElem?_eq_some_iff]
      constructor
      · rintro ⟨span, hlast, rfl⟩
        obtain ⟨before, after, hspans, hdefine, _⟩ := id hlast
        have hspan : span ∈ program.walk.spans := by
          rw [hspans]
          exact List.mem_append_right before List.mem_cons_self
        exact ⟨span, hlast, rfl, marks_of_define hspan hdefine⟩
      · rintro ⟨span, hlast, hnext, _⟩
        exact ⟨span, hlast, hnext⟩
  · rintro source feed sink rfl
    refine ⟨_, Session.load_of_ending hending feed sink, ?_⟩
    intro count
    have hcourse := Session.onCourse_of_load (Session.load_of_ending hending feed sink) count
    refine ⟨?_, ?_, Session.step_unknownLabel_iff hcourse⟩
    · intro label target hsends htarget
      exact Session.step_of_sends hcourse hsends htarget
    · intro label outcome after hsends hstep
      exact Session.exists_target_of_step hcourse hsends hstep

/-- A jump from behind the first definition of the empty label leads behind its second one, which stands after
the stop. -/
theorem Program.labels_lead_behind_last_definition_later :
    ∃ session, Session.load "\n便利便利\n\n便利\n\n\n\n\n\n便利便利\n" ⟨[], none⟩ {} = .ok session ∧
      (Session.stepped^[1] session).machine.pc = 4 ∧
      ∃ after, Session.step (Session.stepped^[1] session) = .ok .running after ∧ after.machine.pc = 15 := by
  generalize hprogram : Program.ofSource "\n便利便利\n\n便利\n\n\n\n\n\n便利便利\n" = program
  have hending : program.walk.ending = .ok 15 := by
    subst hprogram
    decide +kernel
  have htarget : LastDefinition program.walk.spans [] ⟨11, .define [], 15⟩ := by
    refine ⟨[⟨0, .define [], 4⟩, ⟨4, .jump [], 8⟩, ⟨8, .stop, 11⟩], [], ?_, rfl, ?_⟩
    · subst hprogram
      decide +kernel
    · exact fun later hlater => absurd hlater List.not_mem_nil
  obtain ⟨session, hload, hsteps⟩ := (labels_lead_behind_last_definition hending).2 _ ⟨[], none⟩ {} hprogram
  obtain ⟨machine, hmachine, rfl⟩ := Session.load_eq_ok_iff.mp hload
  obtain ⟨_, rfl⟩ := Machine.ofProgram_eq_ok_iff.mp hmachine
  refine ⟨_, hload, by decide +kernel, (hsteps 1).1 [] _ ⟨.jump [], by decide +kernel, .jump⟩ htarget⟩

end MarkMachine
