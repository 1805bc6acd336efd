import MarkMachine.Proofs.History

/-! What is told about a run, against the run itself. While a program is read, each instruction of its walk is
told in order, and behind a definition that is not the first of its label the place to which the label led
before. While it runs, a step tells of itself unless the machine is done: once for each instruction that the
run begins, and at most once more, where the run ends before padding or in a stall. What is told at the end
counts the instructions that have been begun. -/

namespace MarkMachine

/-- The last span before this one that defines the same label, if this one defines a label. -/
def Span.replaced? (before : List Span) (span : Span) : Option Span :=
  match span.instruction with
  | .define label => (before.filter (Span.defines label)).getLast?
  | _ => none

namespace Event

/-- What is told of an instruction when others have been read before it. -/
def ofReading (before : List Span) (span : Span) : List Event :=
  .decoded span.position span.instruction ::
    ((span.replaced? before).map fun old => .redefined span.position old.next).toList

theorem ofSpans_cons (before : List Span) (span : Span) (spans : List Span) :
    ofSpans (LabelTable.ofSpans before) (span :: spans) =
      ofReading before span ++ ofSpans (LabelTable.ofSpans (before ++ [span])) spans := by
  have hnote : LabelTable.ofSpans (before ++ [span]) = (LabelTable.ofSpans before).note span := by
    simp [LabelTable.ofSpans]
  rw [ofSpans, hnote, ofReading, Span.replaced?]
  cases span.instruction with
  | define label => simp [LabelTable.getElem?_ofSpans, Function.comp_def]
  | _ => rfl

theorem ofSpans_eq_flatten (before spans : List Span) :
    ofSpans (LabelTable.ofSpans before) spans =
      (spans.mapIdx fun index span => ofReading (before ++ spans.take index) span).flatten := by
  induction spans generalizing before with
  | nil => rfl
  | cons span spans ih => simp [ofSpans_cons, ih, List.mapIdx_cons]

/-- All that is told about a source text before its labels are known. -/
def opening (source : String) : List Event :=
  let spans := (Program.ofSource source).walk.spans
  [ofSource source, .programListed (Program.ofSource source)] ++
    (spans.mapIdx fun index span => ofReading (spans.take index) span).flatten

theorem opening_eq (source : String) :
    opening source = [ofSource source, .programListed (Program.ofSource source)] ++
      ofSpans ∅ (Program.ofSource source).walk.spans := by
  have htold := ofSpans_eq_flatten [] (Program.ofSource source).walk.spans
  rw [opening]
  simpa [LabelTable.ofSpans] using htold.symm

/-- What is told of the instruction that a machine's next step begins, if it begins one. -/
def ofBegun? (machine : Machine) : Option Event :=
  machine.due?.map fun _ => .stepped machine.pc machine.stack

end Event

/-- The next step tells of itself but begins no instruction: it comes to padding, or it is a stall. -/
def Machine.OnlyTells (program : Program) (machine : Machine) : Prop :=
  machine.isDone = false ∧ program.isPadding machine.pc = true ∨ machine.Stalled

instance (program : Program) (machine : Machine) : Decidable (machine.OnlyTells program) :=
  inferInstanceAs (Decidable (_ ∨ _))

theorem Event.toList_ofStep? {program : Program} {machine : Machine} (h : machine.OnCourse program) :
    (Event.ofStep? machine).toList = (Event.ofBegun? machine).toList ++
      if machine.OnlyTells program then [.stepped machine.pc machine.stack] else [] := by
  by_cases hdone : machine.isDone = true
  · simp [ofStep?, ofBegun?, Machine.due?, Machine.OnlyTells, Machine.Stalled, hdone]
  rw [Bool.not_eq_true] at hdone
  by_cases hlast : machine.lastPc = some machine.pc
  · simp [ofStep?, ofBegun?, Machine.due?, Machine.OnlyTells, Machine.Stalled, hdone, hlast]
  rcases h.pc with ⟨span, hspan, hpc⟩ | hending
  · have hdecode := Machine.decode_ahead h.program_eq hspan hpc
    have hpadding : program.drop machine.pc ≠ [.line] := by
      rw [← h.ahead_eq]
      intro hahead
      rw [hahead, Instruction.decode_line] at hdecode
      cases hdecode
    simp [ofStep?, ofBegun?, Machine.due?, Machine.OnlyTells, Machine.Stalled, Program.isPadding, hdone,
      hlast, hdecode, hpadding]
  · have hahead := h.ahead_of_ending hdone hending
    have hpadding : program.drop machine.pc = [.line] := h.ahead_eq.symm.trans hahead
    simp [ofStep?, ofBegun?, Machine.due?, Machine.OnlyTells, Program.isPadding, hdone, hlast, hahead,
      hpadding, Instruction.decode_line]

namespace Session

/-- A step that only tells of itself does not go on. -/
theorem not_running_of_onlyTells {program : Program} {session : Session}
    (h : session.machine.OnCourse program) (htells : session.machine.OnlyTells program) (after : Session) :
    step session ≠ .ok .running after := by
  by_cases hstalled : session.machine.Stalled
  · simp [step_of_stalled hstalled]
  · obtain ⟨hdone, hpadding⟩ := htells.resolve_right hstalled
    have hahead : session.machine.ahead = [.line] := by
      rw [h.ahead_eq]
      exact beq_iff_eq.mp hpadding
    simp [step_of_padding hdone (fun hlast => hstalled ⟨hdone, hlast⟩) hahead]

/-- What is told of the instructions that the next so many steps begin. -/
def starts (session : Session) (count : Nat) : List Event :=
  (List.range count).filterMap fun index => Event.ofBegun? (stepped^[index] session).machine

theorem starts_succ (session : Session) (count : Nat) :
    session.starts (count + 1) =
      session.starts count ++ (Event.ofBegun? (stepped^[count] session).machine).toList :=
  filterMap_range_succ _ count

/-- The last thing told about a run that ends with its step `last`. -/
inductive Closing (session : Session) (last : Nat) : Event → Prop
  | halted {after : Session} (hstep : step (stepped^[last] session) = .ok .finished after) :
      Closing session last (.halted (session.begun (last + 1)).length)
  | failed {fault : Fault} {after : Session} (hstep : step (stepped^[last] session) = .error fault after) :
      Closing session last (.failed (session.begun (last + 1)).length after.machine.pc fault)

section Run

variable {program : Program} {session : Session}
  (h : ∀ count, (stepped^[count] session).machine.OnCourse program)
include h

theorem steps_iterate_stepped (count : Nat) :
    (stepped^[count] session).machine.steps = session.machine.steps + (session.begun count).length := by
  induction count with
  | zero => rfl
  | succ count ih =>
      rw [Function.iterate_succ_apply', begun_succ, List.length_append, ← Nat.add_assoc, ← ih]
      cases deed (h count) with
      | idle lastPc halted hstepped _ hdue _ => simp [hstepped, hdue]
      | failed span _ _ fault hperform _ hdue _ =>
          have hled := Action.perform_led span.instruction span.position ((stepped^[count] session).start span)
          rw [hperform] at hled
          rw [hdue]
          exact hled.steps
      | completed span _ _ hperform _ hdue _ =>
          have hled := Action.perform_led span.instruction span.position ((stepped^[count] session).start span)
          rw [hperform] at hled
          rw [hdue]
          exact hled.steps

/-- While a run goes on, each step tells of the instruction that it begins. -/
theorem events_of_goes {count : Nat} (hgoes : session.Goes count) (more : Nat) :
    events (count + more) session = session.starts count ++ events more (stepped^[count] session) := by
  induction count generalizing more with
  | zero => simp [starts]
  | succ count ih =>
      obtain ⟨after, hstep⟩ := hgoes count (Nat.lt_succ_self count)
      have hbefore : session.Goes count := fun index hindex => hgoes index (Nat.lt_succ_of_lt hindex)
      have hafter : stepped (stepped^[count] session) = after := by rw [stepped, hstep, Action.left]
      have htells : ¬(stepped^[count] session).machine.OnlyTells program :=
        fun htells => not_running_of_onlyTells (h count) htells after hstep
      rw [Nat.add_right_comm, Nat.add_assoc, ih hbefore, events, hstep, Event.toList_ofStep? (h count),
        if_neg htells, List.append_nil, starts_succ, List.append_assoc, Function.iterate_succ_apply', hafter]

/-- A run that ends has told of each instruction that it has begun, perhaps of one step more, and of its
end. -/
theorem events_of_last {last : Nat} (hsteps : session.machine.steps = 0) (hgoes : session.Goes last)
    (hlast : ∀ after, step (stepped^[last] session) ≠ .ok .running after) (more : Nat) :
    ∃ final, session.Closing last final ∧
      events (last + (more + 1)) session = session.starts (last + 1) ++
        (if (stepped^[last] session).machine.OnlyTells program then
          [.stepped (stepped^[last] session).machine.pc (stepped^[last] session).machine.stack] else []) ++
        [final] := by
  have hcount : ∀ after, Action.left (step (stepped^[last] session)) = after →
      after.machine.steps = (session.begun (last + 1)).length := by
    rintro after rfl
    have hlater := steps_iterate_stepped h (last + 1)
    rwa [Function.iterate_succ_apply', hsteps, Nat.zero_add] at hlater
  rw [events_of_goes h hgoes, events, Event.toList_ofStep? (h last), starts_succ]
  cases hstep : step (stepped^[last] session) with
  | error fault after =>
      refine ⟨_, .failed hstep, ?_⟩
      simp [hcount after (by rw [hstep, Action.left])]
  | ok outcome after =>
      cases outcome with
      | running => exact absurd hstep (hlast after)
      | finished =>
          refine ⟨_, .halted hstep, ?_⟩
          simp [hcount after (by rw [hstep, Action.left])]

end Run

/-- What steps tell is that they begin, or that the run has ended. -/
theorem mem_events {count : Nat} {session : Session} {event : Event} (h : event ∈ session.events count) :
    (∃ index, (stepped^[index] session).machine.isDone = false ∧
      event = .stepped (stepped^[index] session).machine.pc (stepped^[index] session).machine.stack) ∨
    (∃ steps, event = .halted steps) ∨ ∃ steps position fault, event = .failed steps position fault := by
  induction count generalizing session with
  | zero => exact absurd h List.not_mem_nil
  | succ count ih =>
      rw [events, List.mem_append] at h
      rcases h with hbegins | hlater
      · left
        refine ⟨0, ?_⟩
        by_cases hdone : session.machine.isDone = true
        · simp [Event.ofStep?, hdone] at hbegins
        · simpa [Event.ofStep?, hdone] using hbegins
      · cases hstep : step session with
        | error fault after =>
            rw [hstep] at hlater
            exact .inr (.inr ⟨_, _, _, List.eq_of_mem_singleton hlater⟩)
        | ok outcome after =>
            rw [hstep] at hlater
            cases outcome with
            | finished => exact .inr (.inl ⟨_, List.eq_of_mem_singleton hlater⟩)
            | running =>
                have hafter : stepped session = after := by rw [stepped, hstep, Action.left]
                rcases ih hlater with ⟨index, hindex⟩ | hended
                · left
                  refine ⟨index + 1, ?_⟩
                  rwa [Function.iterate_succ_apply, hafter]
                · exact .inr hended

end Session

namespace Event

theorem filter_decoded_ofSpans (table : LabelTable) (spans : List Span) :
    (ofSpans table spans).filter (·.message = "decoded") =
      spans.map fun span => .decoded span.position span.instruction := by
  induction spans generalizing table with
  | nil => rfl
  | cons span spans ih =>
      obtain ⟨replaced, hreplaced⟩ : ∃ replaced, ofSpans table (span :: spans) =
          .decoded span.position span.instruction ::
            ((Option.map (Event.redefined span.position) replaced).toList ++
              ofSpans (table.note span) spans) := ⟨_, rfl⟩
      rw [hreplaced, List.filter_cons_of_pos (by simp [message]), List.filter_append, ih, List.map_cons]
      cases replaced <;> rfl

theorem filter_decoded_opening (source : String) :
    (opening source).filter (·.message = "decoded") =
      (Program.ofSource source).walk.spans.map fun span => .decoded span.position span.instruction := by
  rw [opening_eq, List.filter_append, filter_decoded_ofSpans]
  rfl

theorem stepped_notMem_opening (source : String) (position : Nat) (stack : Stack) :
    .stepped position stack ∉ opening source := by
  simp [opening, ofSource, ofReading]

theorem decoded_mem_opening {source : String} {span : Span}
    (h : span ∈ (Program.ofSource source).walk.spans) :
    .decoded span.position span.instruction ∈ opening source := by
  obtain ⟨index, hindex, rfl⟩ := List.getElem_of_mem h
  simp only [opening, List.mem_append, List.mem_flatten, List.mem_mapIdx]
  exact .inr ⟨_, ⟨index, hindex, rfl⟩, List.mem_cons_self⟩

end Event

theorem trace_eq (count : Nat) (source : String) (feed : Feed) (sink : Sink) :
    trace count source feed sink = Event.opening source ++
      match Session.load source feed sink with
      | .error _ => []
      | .ok session => .resolved session.machine.labels.size :: session.events count := by
  rw [trace, Event.loading, Event.ofProgram, Event.opening_eq, Session.load, Machine.load, Machine.ofProgram]
  cases (Program.ofSource source).labels <;> simp [Except.map]

theorem filter_decoded_trace (count : Nat) (source : String) (feed : Feed) (sink : Sink) :
    (trace count source feed sink).filter (·.message = "decoded") =
      (Program.ofSource source).walk.spans.map fun span => .decoded span.position span.instruction := by
  have hsteps (session : Session) : (session.events count).filter (·.message = "decoded") = [] := by
    rw [List.filter_eq_nil_iff]
    intro event hevent
    rcases Session.mem_events hevent with ⟨index, _, rfl⟩ | ⟨steps, rfl⟩ | ⟨steps, position, fault, rfl⟩ <;>
      simp [Event.message]
  rw [trace_eq, List.filter_append, Event.filter_decoded_opening]
  cases Session.load source feed sink with
  | error fault => simp
  | ok session =>
      dsimp only
      rw [List.filter_cons_of_neg (by simp [Event.message]), hsteps, List.append_nil]

theorem decoded_before_of_stepped {count : Nat} {source : String} {feed : Feed} {sink : Sink}
    {before after : List Event} {position : Nat} {stack : Stack}
    (h : trace count source feed sink = before ++ .stepped position stack :: after) :
    (∃ instruction, .decoded position instruction ∈ before) ∨
      (Program.ofSource source).isPadding position = true := by
  rw [trace_eq] at h
  -- Nothing in the opening is a step, so all of it comes before this one.
  obtain ⟨middle, rfl, hlater⟩ : ∃ middle, before = Event.opening source ++ middle ∧ _ = middle ++ _ := by
    rcases List.append_eq_append_iff.mp h with hfirst | ⟨middle, hopening, hlater⟩
    · exact hfirst
    · cases middle with
      | nil => exact ⟨[], by simpa using hopening.symm, by simpa using hlater.symm⟩
      | cons event middle =>
          cases hlater
          exact absurd (hopening ▸ List.mem_append_right _ List.mem_cons_self)
            (Event.stepped_notMem_opening source position stack)
  have hmem : .stepped position stack ∈ middle ++ .stepped position stack :: after :=
    List.mem_append_right _ List.mem_cons_self
  cases hload : Session.load source feed sink with
  | error fault => simp [hload] at hlater
  | ok session =>
      rw [← hlater, hload, List.mem_cons] at hmem
      rcases hmem with hresolved | hevent
      · cases hresolved
      rcases Session.mem_events hevent with ⟨index, hdone, hstepped⟩ | ⟨_, hended⟩ | ⟨_, _, _, hended⟩
      · have hcourse := Session.onCourse_of_load hload index
        rw [Event.stepped.injEq] at hstepped
        rw [hstepped.1]
        rcases hcourse.pc with ⟨span, hspan, hpc⟩ | hending
        · rw [← hpc]
          exact .inl ⟨_, List.mem_append_left _ (Event.decoded_mem_opening hspan)⟩
        · right
          rw [Program.isPadding, ← hcourse.ahead_eq, hcourse.ahead_of_ending hdone hending]
          rfl
      · cases hended
      · cases hended

/-- **The trace describes the run.** The instructions told as decoded are those of the walk in order; besides them, only
the source, the program and labels that are defined again are told before the run. A run tells of each instruction
that it begins, in order, of one step more just if that comes to padding or stalls, and at last how it ended. A
step is only told at a place that was told as decoded, or before padding. -/
theorem trace_describes_run (source : String) (feed : Feed) (sink : Sink) (count : Nat) :
    let program := Program.ofSource source
    let told := trace count source feed sink
    (told.filter (·.message = "decoded")).map Event.details = program.walk.spans.map (fun span =>
      [("position", .number span.position), ("command", .text span.instruction.text)]) ∧
    (∀ fault, Session.load source feed sink = .error fault → told = Event.opening source) ∧
    (∀ session, Session.load source feed sink = .ok session →
      (run count source feed sink = none →
        told = Event.opening source ++ [.resolved session.machine.labels.size] ++ session.starts count) ∧
      ∀ report, run count source feed sink = some report → ∃ last < count, session.Goes last ∧
        ∃ final, session.Closing last final ∧
          told = Event.opening source ++ [.resolved session.machine.labels.size] ++
            session.starts (last + 1) ++
            (if (Session.stepped^[last] session).machine.OnlyTells program then
              [.stepped (Session.stepped^[last] session).machine.pc
                (Session.stepped^[last] session).machine.stack] else []) ++
            [final]) ∧
    ∀ before position stack after, told = before ++ .stepped position stack :: after →
      (∃ instruction, .decoded position instruction ∈ before) ∨ program.isPadding position = true := by
  intro program told
  have htold : told = _ := trace_eq count source feed sink
  refine ⟨?_, fun fault hload => ?_, fun session hload => ?_, fun _ _ _ _ => decoded_before_of_stepped⟩
  · rw [show told.filter _ = _ from filter_decoded_trace count source feed sink, List.map_map]
    rfl
  · rw [htold, hload, List.append_nil]
  have hcourse := Session.onCourse_of_load hload
  have hsteps : session.machine.steps = 0 := by
    obtain ⟨machine, hmachine, rfl⟩ := Session.load_eq_ok_iff.mp hload
    obtain ⟨_, rfl⟩ := Machine.ofProgram_eq_ok_iff.mp hmachine
    rfl
  rw [hload] at htold
  dsimp only at htold
  rw [run, hload]
  dsimp only
  cases hadvance : session.advance count with
  | running state =>
      refine ⟨fun _ => ?_, fun _ hnone => nomatch hnone⟩
      have hevents := Session.events_of_goes hcourse (Session.goes_of_advance_eq_running hadvance) 0
      rw [Nat.add_zero] at hevents
      rw [htold, hevents]
      simp [Session.events]
  | ended result state =>
      refine ⟨fun hnone => (nomatch hnone), fun _ _ => ?_⟩
      obtain ⟨last, hlast, hgoes, _, hstep⟩ := Session.exists_last_step hadvance
      have hends : ∀ after, Session.step (Session.stepped^[last] session) ≠ .ok .running after := by
        intro after hruns
        rcases hstep with ⟨fault, _, herror, _⟩ | ⟨_, hfinished, _⟩
        · simp [hruns] at herror
        · simp [hruns] at hfinished
      obtain ⟨final, hclosing, hevents⟩ :=
        Session.events_of_last hcourse hsteps hgoes hends (count - last - 1)
      refine ⟨last, hlast, hgoes, final, hclosing, ?_⟩
      rw [show last + (count - last - 1 + 1) = count by omega] at hevents
      rw [htold, hevents]
      simp [program]

/-- A program that defines the empty label twice and ends in padding. After two steps its run has told of two
instructions, after three it has ended and told so. -/
theorem trace_describes_run_padding :
    let program : Program := [.line, .space, .space, .line, .line, .space, .space, .line, .line]
    ∃ session, Session.load program.toSource ⟨[], none⟩ {} = .ok session ∧
      trace 2 program.toSource ⟨[], none⟩ {} =
        Event.opening program.toSource ++ [.resolved 1, .stepped 0 [], .stepped 4 []] ∧
      ∃ last final, session.Closing last final ∧
        (trace 3 program.toSource ⟨[], none⟩ {}).getLast? = some final := by
  intro program
  have hending : program.walk.ending = .ok 8 := by
    decide
  have hload := Session.load_toSource hending ⟨[], none⟩ {}
  refine ⟨_, hload, ?_⟩
  generalize hsession : Session.mk _ _ _ = session at hload ⊢
  have hrun : run 2 program.toSource ⟨[], none⟩ {} = none := by
    rw [run, hload, ← hsession]
    rfl
  have hrun' : (run 3 program.toSource ⟨[], none⟩ {}).isSome = true := by
    rw [run, hload, ← hsession]
    rfl
  have hstarts : session.machine.labels.size = 1 ∧ session.starts 2 = [.stepped 0 [], .stepped 4 []] := by
    subst hsession
    decide +kernel
  obtain ⟨report, hreport⟩ := Option.isSome_iff_exists.mp hrun'
  refine ⟨?_, ?_⟩
  · rw [((trace_describes_run _ _ _ 2).2.2.1 session hload).1 hrun, hstarts.1, hstarts.2]
    simp
  · obtain ⟨last, _, _, final, hclosing, htold⟩ :=
      ((trace_describes_run _ _ _ 3).2.2.1 session hload).2 report hreport
    exact ⟨last, final, hclosing, by rw [htold, List.getLast?_concat]⟩

end MarkMachine
