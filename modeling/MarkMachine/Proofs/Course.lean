import Mathlib.Logic.Function.Iterate
import MarkMachine.Run
import MarkMachine.Proofs.Labels
import MarkMachine.Proofs.Spelling
import MarkMachine.Proofs.Step
import MarkMachine.Proofs.Walk

/-! The course of a machine through its program. A machine that runs a program which can be read to its
end only ever stands, calls and jumps where the walk of the program reads an instruction or stops, and
there it carries out the instruction that the walk has read. So nothing a machine comes to is unreadable
to it: a step reports a malformed program only as a stall, and never too large a number. -/

namespace MarkMachine

namespace Program

/-- A cursor where the walk of a program reads an instruction, or where it stops. -/
def Boundary (program : Program) (cursor : Nat) : Prop :=
  (∃ span ∈ program.walk.spans, span.position = cursor) ∨ program.walk.ending = .ok cursor

/-- What a walk reads at a cursor is what decoding finds there. -/
theorem decode_of_mem_spans {program : Program} {span : Span} (h : span ∈ program.walk.spans) :
    Instruction.decode (program.drop span.position) =
        .found span.instruction (span.next - span.position) ∧
      span.position < span.next ∧ span.next ≤ program.length := by
  obtain ⟨words, rest, rfl, hrest⟩ := Walk.exists_words program
  rw [walk_text_append hrest] at h
  obtain ⟨before, word, after, rfl, rfl⟩ := Word.mem_layout_iff.mp h
  have hpos := word.spelled.length_pos
  rw [Nat.zero_add, Word.text_append, Word.text_cons]
  dsimp only
  refine ⟨?_, by omega, ?_⟩
  · rw [List.append_assoc, List.append_assoc, List.drop_left, Nat.add_sub_cancel_left]
    exact word.spelled.decode_append _
  · simp only [List.length_append]
    omega

/-- No instruction is read where a walk stops. -/
theorem position_ne_stop {program : Program} {span : Span} (hspan : span ∈ program.walk.spans) {stop : Nat}
    (hending : program.walk.ending = .ok stop) : span.position ≠ stop := by
  rintro rfl
  have hdecode := (decode_of_mem_spans hspan).1
  exact (padding_of_ending hending).1.unreadable _ _ hdecode

/-- The boundaries of a text are where its words can be parted. -/
theorem boundary_text_iff {words : List Word} {tail : List Mark} (htail : Walk.Padding tail)
    {cursor : Nat} :
    Boundary (Word.text words ++ tail) cursor ↔
      ∃ before after, words = before ++ after ∧ cursor = (Word.text before).length := by
  rw [Boundary, walk_text_padding words htail]
  constructor
  · rintro (⟨span, hspan, rfl⟩ | hending)
    · obtain ⟨before, word, after, rfl, rfl⟩ := Word.mem_layout_iff.mp hspan
      exact ⟨before, word :: after, rfl, Nat.zero_add _⟩
    · exact ⟨words, [], (List.append_nil words).symm, (Except.ok.inj hending).symm⟩
  · rintro ⟨before, after, rfl, rfl⟩
    cases after with
    | nil => exact .inr (by rw [List.append_nil])
    | cons word after =>
        refine .inl ⟨_, Word.mem_layout_iff.mpr ⟨before, word, after, rfl, rfl⟩, Nat.zero_add _⟩

section Readable

variable {program : Program} {stop : Nat} (hending : program.walk.ending = .ok stop)
include hending

theorem boundary_zero : program.Boundary 0 := by
  obtain ⟨words, tail, rfl, htail, _⟩ := exists_words_of_ending hending
  exact (boundary_text_iff htail).mpr ⟨[], words, rfl, rfl⟩

theorem boundary_next {span : Span} (hspan : span ∈ program.walk.spans) : program.Boundary span.next := by
  obtain ⟨words, tail, rfl, htail, hspans, _⟩ := exists_words_of_ending hending
  rw [hspans] at hspan
  obtain ⟨before, word, after, rfl, rfl⟩ := Word.mem_layout_iff.mp hspan
  refine (boundary_text_iff htail).mpr ⟨before ++ [word], after, by simp, ?_⟩
  rw [Word.text_append, List.length_append, Nat.zero_add]
  simp [Word.text]

theorem boundary_of_label {label : Label} {cursor : Nat}
    (hlabel : (LabelTable.ofSpans program.walk.spans)[label]? = some cursor) :
    program.Boundary cursor := by
  obtain ⟨span, hspan, rfl⟩ := LabelTable.exists_span_of_getElem? hlabel
  exact boundary_next hending hspan

end Readable

theorem le_length_of_boundary {program : Program} {cursor : Nat} (h : program.Boundary cursor) :
    cursor ≤ program.length := by
  rcases h with ⟨span, hspan, rfl⟩ | hstop
  · obtain ⟨_, hlt, hle⟩ := decode_of_mem_spans hspan
    omega
  · exact (padding_of_ending hstop).2

end Program

namespace Machine

variable {program : Program} {machine : Machine} (hprogram : machine.program = program)
include hprogram

theorem decode_ahead {span : Span} (hspan : span ∈ program.walk.spans)
    (hpc : span.position = machine.pc) :
    Instruction.decode machine.ahead = .found span.instruction (span.next - span.position) := by
  rw [Machine.ahead, hprogram, ← hpc]
  exact (Program.decode_of_mem_spans hspan).1

/-- Where an instruction stands, a machine is done only if it has halted. -/
theorem isDone_eq_halted {span : Span} (hspan : span ∈ program.walk.spans)
    (hpc : span.position = machine.pc) : machine.isDone = machine.halted := by
  obtain ⟨_, hlt, hle⟩ := Program.decode_of_mem_spans hspan
  have hahead : machine.ahead.isEmpty = false := by
    rw [Machine.ahead, hprogram, ← hpc, List.isEmpty_eq_false_iff, Ne, List.drop_eq_nil_iff]
    omega
  rw [Machine.isDone, hahead, Bool.or_false]

end Machine

/-- A step of a machine that stands at an instruction of the walk carries it out. -/
theorem Session.step_of_mem_spans {program : Program} {session : Session}
    (hprogram : session.machine.program = program) {span : Span} (hspan : span ∈ program.walk.spans)
    (hpc : span.position = session.machine.pc) (hhalted : session.machine.halted = false)
    (hlast : session.machine.lastPc ≠ some session.machine.pc) :
    step session = span.instruction.execute span.position (session.start span) := by
  obtain ⟨_, hlt, _⟩ := Program.decode_of_mem_spans hspan
  have hdone : session.machine.isDone = false :=
    (Machine.isDone_eq_halted hprogram hspan hpc).trans hhalted
  rw [step_of_decode hdone hlast (Machine.decode_ahead hprogram hspan hpc), ← hpc]
  congr 2
  obtain ⟨position, instruction, next⟩ := span
  rw [Span.mk.injEq]
  exact ⟨rfl, rfl, Nat.add_sub_of_le (Nat.le_of_lt hlt)⟩

/-- A machine somewhere on its way through a program. -/
structure Machine.OnCourse (program : Program) (machine : Machine) : Prop where
  program_eq : machine.program = program
  labels_eq : machine.labels = LabelTable.ofSpans program.walk.spans
  pc : program.Boundary machine.pc
  calls : ∀ cursor ∈ machine.calls, program.Boundary cursor
  /-- Steps begin at instructions, unless the last one stopped the machine before padding. A step that
  would begin where the last one began was led there by the instruction itself. -/
  last : machine.halted = true ∨ ∀ position, machine.lastPc = some position →
    ∃ span ∈ program.walk.spans, span.position = position ∧
      (position = machine.pc →
        (∃ label, span.instruction.transfer? = some label ∧ machine.labels[label]? = some position) ∨
          span.instruction = .ret)

namespace Machine.OnCourse

variable {program : Program} {machine : Machine}

/-- A loaded machine is at the start of its course. -/
theorem initial {stop : Nat} (hending : program.walk.ending = .ok stop) :
    OnCourse program { program, labels := LabelTable.ofSpans program.walk.spans } where
  program_eq := rfl
  labels_eq := rfl
  pc := Program.boundary_zero hending
  calls := fun _ hmem => absurd hmem List.not_mem_nil
  last := .inr fun _ h => nomatch h

theorem ahead_eq (h : machine.OnCourse program) : machine.ahead = program.drop machine.pc := by
  rw [Machine.ahead, h.program_eq]

/-- What can be read at the cursor is what the walk has read there. -/
theorem mem_spans_of_decode (h : machine.OnCourse program) (instruction : Instruction) (width : Nat)
    (hdecode : Instruction.decode machine.ahead = .found instruction width) :
    ⟨machine.pc, instruction, machine.pc + width⟩ ∈ program.walk.spans := by
  rcases h.pc with ⟨span, hspan, hpc⟩ | hending
  · obtain ⟨_, hlt, _⟩ := Program.decode_of_mem_spans hspan
    rw [Machine.decode_ahead h.program_eq hspan hpc, Reading.found.injEq] at hdecode
    obtain ⟨rfl, rfl⟩ := hdecode
    rwa [← hpc, Nat.add_sub_of_le (Nat.le_of_lt hlt)]
  · rw [h.ahead_eq] at hdecode
    exact absurd hdecode ((Program.padding_of_ending hending).1.unreadable instruction width)

/-- A machine that is not done where the walk stops stands before padding. -/
theorem ahead_of_ending (h : machine.OnCourse program) (hdone : machine.isDone = false)
    (hending : program.walk.ending = .ok machine.pc) : machine.ahead = [.line] := by
  rw [h.ahead_eq]
  refine (Program.padding_of_ending hending).1.resolve_left fun hnil => ?_
  rw [Machine.isDone, h.ahead_eq, hnil, List.isEmpty_nil, Bool.or_true] at hdone
  cases hdone

/-- A machine stalls at an instruction that led back to itself. -/
theorem exists_span_of_stalled (h : machine.OnCourse program) (hstalled : machine.Stalled) :
    ∃ span ∈ program.walk.spans, span.position = machine.pc ∧
      ((∃ label, span.instruction.transfer? = some label ∧ machine.labels[label]? = some machine.pc) ∨
        span.instruction = .ret) := by
  obtain ⟨hdone, hlast⟩ := hstalled
  have hhalted : machine.halted ≠ true := by
    rw [Machine.halted_of_isDone hdone]
    exact Bool.false_ne_true
  obtain ⟨span, hspan, hpc, hback⟩ := h.last.resolve_left hhalted _ hlast
  exact ⟨span, hspan, hpc, hback rfl⟩

end Machine.OnCourse

namespace Session

/-- All that a step of a machine on its course can be. -/
inductive StepCase (program : Program) (session : Session) : Prop
  | done (hdone : session.machine.isDone = true) (hstep : step session = .ok .finished session)
  | stalled (hstalled : session.machine.Stalled)
      (hstep : step session = .error (.malformed session.machine.pc) session)
  /-- The instruction at the cursor is carried out. -/
  | carried (span : Span) (hspan : span ∈ program.walk.spans) (hpc : span.position = session.machine.pc)
      (hhalted : session.machine.halted = false)
      (hlast : session.machine.lastPc ≠ some session.machine.pc)
      (hstep : step session = span.instruction.execute span.position (session.start span))
  /-- The machine stops before padding. -/
  | padding (hending : program.walk.ending = .ok session.machine.pc)
      (hhalted : session.machine.halted = false)
      (hstep : step session = .ok .finished { session with
        machine := { session.machine with lastPc := some session.machine.pc, halted := true } })

variable {program : Program} {session : Session}

theorem stepCase (h : session.machine.OnCourse program) : StepCase program session := by
  by_cases hdone : session.machine.isDone = true
  · exact .done hdone (step_of_isDone hdone)
  rw [Bool.not_eq_true] at hdone
  have hhalted := Machine.halted_of_isDone hdone
  by_cases hlast : session.machine.lastPc = some session.machine.pc
  · exact .stalled ⟨hdone, hlast⟩ (step_of_stalled ⟨hdone, hlast⟩)
  rcases h.pc with ⟨span, hspan, hpc⟩ | hending
  · exact .carried span hspan hpc hhalted hlast (step_of_mem_spans h.program_eq hspan hpc hhalted hlast)
  · exact .padding hending hhalted (step_of_padding hdone hlast (h.ahead_of_ending hdone hending))

/-- Where the walk stops, a step finishes and changes nothing but whether and where the machine halted. -/
theorem step_of_stop (h : session.machine.OnCourse program)
    (hending : program.walk.ending = .ok session.machine.pc) :
    ∃ lastPc halted, step session = .ok .finished { session with
      machine := { session.machine with lastPc, halted } } := by
  cases stepCase h with
  | done _ hstep => exact ⟨_, _, hstep⟩
  | padding _ _ hstep => exact ⟨_, _, hstep⟩
  | carried span hspan hpc _ _ _ => exact absurd hpc (Program.position_ne_stop hspan hending)
  | stalled hstalled _ =>
      obtain ⟨span, hspan, hpc, _⟩ := h.exists_span_of_stalled hstalled
      exact absurd hpc (Program.position_ne_stop hspan hending)

/-- Of the things a step can be, only carrying out an instruction and a stall can fail. -/
theorem fault_of_step (h : session.machine.OnCourse program) {fault : Fault} {after : Session}
    (hstep : step session = .error fault after) :
    fault.OfExecution ∨ fault = .malformed session.machine.pc ∧ session.machine.Stalled := by
  cases stepCase h with
  | done _ hdone =>
      rw [hdone] at hstep
      cases hstep
  | padding _ _ hpadding =>
      rw [hpadding] at hstep
      cases hstep
  | stalled hstalled hstall =>
      rw [hstall] at hstep
      cases hstep
      exact .inr ⟨rfl, hstalled⟩
  | carried span _ _ _ _ hcarried =>
      rw [hcarried] at hstep
      exact .inl (Instruction.fault_of_execute hstep)

theorem stalled_of_malformed (h : session.machine.OnCourse program) {position : Nat} {after : Session}
    (hstep : step session = .error (.malformed position) after) : session.machine.Stalled := by
  rcases fault_of_step h hstep with hexecution | ⟨_, hstalled⟩
  · exact hexecution.elim
  · exact hstalled

/-- One step keeps a machine on its course. -/
theorem onCourse_stepped {stop : Nat} (hending : program.walk.ending = .ok stop)
    (h : session.machine.OnCourse program) : session.stepped.machine.OnCourse program := by
  rw [stepped]
  cases stepCase h with
  | done _ hstep =>
      rw [hstep]
      exact h
  | stalled _ hstep =>
      rw [hstep]
      exact h
  | padding hpc hhalted hstep =>
      rw [hstep]
      exact ⟨h.program_eq, h.labels_eq, h.pc, h.calls, .inl rfl⟩
  | carried span hspan hpc hhalted hlast hstep =>
      rw [hstep, Instruction.left_execute]
      have hled := Action.perform_led span.instruction span.position (session.start span)
      obtain ⟨_, hlt, _⟩ := Program.decode_of_mem_spans hspan
      have hlabels : (session.start span).machine.labels = LabelTable.ofSpans program.walk.spans :=
        h.labels_eq
      refine ⟨hled.program.trans h.program_eq, hled.labels.trans h.labels_eq, ?_, ?_, ?_⟩
      · rcases hled.pc with hnext | ⟨label, _, hlabel⟩ | ⟨_, hcalls⟩
        · rw [hnext]
          exact Program.boundary_next hending hspan
        · rw [hlabels] at hlabel
          exact Program.boundary_of_label hending hlabel
        · exact h.calls _ hcalls
      · intro cursor hmem
        rcases hled.calls cursor hmem with rfl | hcalls
        · exact Program.boundary_next hending hspan
        · exact h.calls cursor hcalls
      · refine .inr fun position hposition => ⟨span, hspan, ?_, ?_⟩
        · exact Option.some.inj (hled.lastPc.symm.trans hposition)
        · intro hback
          have hstart : span.position = position := Option.some.inj (hled.lastPc.symm.trans hposition)
          rw [hled.labels]
          rcases hled.pc with hnext | ⟨label, htransfer, hlabel⟩ | ⟨hret, _⟩
          · -- The cursor behind an instruction is never the one before it.
            exact absurd (hstart.trans (hback.trans hnext)) (Nat.ne_of_lt hlt)
          · exact .inl ⟨label, htransfer, hback ▸ hlabel⟩
          · exact .inr hret

theorem onCourse_iterate_stepped {stop : Nat} (hending : program.walk.ending = .ok stop)
    (h : session.machine.OnCourse program) (count : Nat) :
    (stepped^[count] session).machine.OnCourse program := by
  induction count with
  | zero => exact h
  | succ count ih =>
      rw [Function.iterate_succ_apply']
      exact onCourse_stepped hending ih

end Session

theorem Machine.ofProgram_eq_ok_iff {program : Program} {machine : Machine} :
    Machine.ofProgram program = .ok machine ↔ (∃ stop, program.walk.ending = .ok stop) ∧
      machine = { program, labels := LabelTable.ofSpans program.walk.spans } := by
  rw [Machine.ofProgram, Program.labels]
  cases program.walk.ending with
  | error fault => simp [Except.map]
  | ok stop => simp [Except.map, eq_comm]

theorem Session.load_eq_ok_iff {source : String} {feed : Feed} {sink : Sink} {session : Session} :
    Session.load source feed sink = .ok session ↔
      ∃ machine, Machine.ofProgram (Program.ofSource source) = .ok machine ∧
        session = ⟨machine, feed, sink⟩ := by
  rw [Session.load, Machine.load]
  cases Machine.ofProgram (Program.ofSource source) with
  | error fault => simp [Except.map]
  | ok machine => simp [Except.map, eq_comm]

/-- A source text whose program can be read to its end can be loaded. -/
theorem Session.load_of_ending {source : String} {stop : Nat}
    (h : (Program.ofSource source).walk.ending = .ok stop) (feed : Feed) (sink : Sink) :
    Session.load source feed sink = .ok ⟨{
      program := Program.ofSource source
      labels := LabelTable.ofSpans (Program.ofSource source).walk.spans }, feed, sink⟩ :=
  Session.load_eq_ok_iff.mpr ⟨_, Machine.ofProgram_eq_ok_iff.mpr ⟨⟨stop, h⟩, rfl⟩, rfl⟩

/-- A program that can be read to its end can be loaded from its source text. -/
theorem Session.load_toSource {program : Program} {stop : Nat} (h : program.walk.ending = .ok stop)
    (feed : Feed) (sink : Sink) :
    Session.load program.toSource feed sink =
      .ok ⟨{ program, labels := LabelTable.ofSpans program.walk.spans }, feed, sink⟩ := by
  have hsource : Program.ofSource program.toSource = program := by
    rw [Program.ofSource, Program.toSource, String.toList_ofList, Program.ofChars_toChars]
  rw [← hsource] at h
  rw [Session.load_of_ending h, hsource]

/-- Whatever steps are taken from a loaded source, the machine is on the course of its program. -/
theorem Session.onCourse_of_load {source : String} {feed : Feed} {sink : Sink} {session : Session}
    (hload : Session.load source feed sink = .ok session) (count : Nat) :
    (stepped^[count] session).machine.OnCourse (Program.ofSource source) := by
  obtain ⟨machine, hmachine, rfl⟩ := Session.load_eq_ok_iff.mp hload
  obtain ⟨⟨stop, hending⟩, rfl⟩ := Machine.ofProgram_eq_ok_iff.mp hmachine
  exact onCourse_iterate_stepped hending (.initial hending) count

/-- **Steps follow the walk.** After any steps from a loaded source, failed ones included, the cursor and all places
that can be gone to are where the walk reads an instruction or stops. A step that is neither done nor a stall
carries out just what the walk has read there. So no step reports too large a number, and a malformed program is
reported only for a stall. -/
theorem Session.steps_follow_walk {source : String} {feed : Feed} {sink : Sink} {session : Session}
    (hload : Session.load source feed sink = .ok session) (count : Nat) :
    let program := Program.ofSource source
    let state := stepped^[count] session
    (∃ stop, program.walk.ending = .ok stop ∧
      (stop = program.length ∨ stop + 1 = program.length ∧ program[stop]? = some .line)) ∧
    state.machine.program = program ∧
    program.Boundary state.machine.pc ∧
    (∀ cursor ∈ state.machine.calls, program.Boundary cursor) ∧
    (∀ (label : Label) (cursor : Nat), state.machine.labels[label]? = some cursor →
      program.Boundary cursor) ∧
    (∀ instruction width, Instruction.decode state.machine.ahead = .found instruction width →
      ⟨state.machine.pc, instruction, state.machine.pc + width⟩ ∈ program.walk.spans) ∧
    (∀ span ∈ program.walk.spans, span.position = state.machine.pc → state.machine.halted = false →
      state.machine.lastPc ≠ some state.machine.pc →
        step state = span.instruction.execute span.position (state.start span)) ∧
    (∀ position after, step state ≠ .error (.numberOverflow position) after) ∧
    (∀ position after, step state = .error (.malformed position) after →
      state.machine.lastPc = some state.machine.pc) ∧
    state.machine.pc ≤ program.length := by
  intro program state
  have hcourse : state.machine.OnCourse program := onCourse_of_load hload count
  obtain ⟨machine, hmachine, rfl⟩ := Session.load_eq_ok_iff.mp hload
  obtain ⟨⟨stop, hending⟩, rfl⟩ := Machine.ofProgram_eq_ok_iff.mp hmachine
  refine ⟨⟨stop, hending, Program.stop_of_ending hending⟩, hcourse.program_eq, hcourse.pc, hcourse.calls,
    ?_, hcourse.mem_spans_of_decode, fun span => step_of_mem_spans hcourse.program_eq, ?_, ?_,
    Program.le_length_of_boundary hcourse.pc⟩
  · intro label cursor hlabel
    rw [hcourse.labels_eq] at hlabel
    exact Program.boundary_of_label hending hlabel
  · intro position after hstep
    rcases fault_of_step hcourse hstep with hexecution | ⟨hmalformed, _⟩
    · exact hexecution
    · cases hmalformed
  · intro position after hstep
    exact (stalled_of_malformed hcourse hstep).2

/-- Two steps into a program that defines the empty label, calls it and ends in padding, the cursor is
where the walk has read the call. -/
theorem Session.steps_follow_walk_call :
    ∃ session, Session.load "\n便利便利\n\n便利感極まってきました\n\n" ⟨[], none⟩ {} = .ok session ∧
      (Program.ofSource "\n便利便利\n\n便利感極まってきました\n\n").Boundary
        (stepped^[2] session).machine.pc := by
  have hending : (Program.ofSource "\n便利便利\n\n便利感極まってきました\n\n").walk.ending = .ok 8 := by
    rfl
  have hload := Session.load_of_ending hending ⟨[], none⟩ {}
  exact ⟨_, hload, (Session.steps_follow_walk hload 2).2.2.1⟩

end MarkMachine
