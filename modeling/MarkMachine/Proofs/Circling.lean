import MarkMachine.Proofs.Targets

/-! Which steps are refused as stalls. A machine remembers where its last step began, and refuses to begin the
next one there. An instruction that fails or that leads nowhere leaves the cursor behind itself, so the cursor
comes back to where the step began only when a call, a jump, a branch that is taken or a return has led to its
own place. -/

namespace MarkMachine

/-- Where an instruction leads a machine: to the place of the label that it sends the machine to, or back to the
latest call. -/
inductive Instruction.LeadsTo (machine : Machine) (cursor : Nat) (instruction : Instruction) : Prop
  | label {label : Label} (hsends : instruction.Sends machine.stack label)
      (hlabel : machine.labels[label]? = some cursor)
  | ret {calls : List Nat} (hinstruction : instruction = .ret) (hcalls : machine.calls = cursor :: calls)

namespace Action

variable {instruction : Instruction} {position : Nat} {session after : Session}

/-- What leaves the place behind an instruction was led away by it. -/
theorem leadsTo_of_perform (h : perform instruction position session = .ok () after)
    (hpc : after.machine.pc ≠ session.machine.pc) :
    instruction.LeadsTo session.machine after.machine.pc := by
  obtain ⟨machine, feed, sink⟩ := session
  rcases instruction.course_cases with
    hlocal | ⟨label, rfl⟩ | ⟨label, rfl⟩ | ⟨label, taken, hbranch⟩ | rfl | rfl
  · have hsame := (local_perform hlocal position).left ⟨machine, feed, sink⟩
    rw [h] at hsame
    exact absurd hsame.pc hpc
  · rw [perform_call] at h
    split at h <;> cases h
    exact .label .call ‹_›
  · rw [perform_jump] at h
    split at h <;> cases h
    exact .label .jump ‹_›
  · rw [perform_branch hbranch] at h
    split at h
    · cases h
    · split_ifs at h with htaken
      · rw [perform_jump] at h
        split at h <;> cases h
        exact .label (.branch hbranch ‹_› htaken) ‹_›
      · cases h
        exact absurd rfl hpc
  · rw [perform_ret] at h
    split at h <;> cases h
    exact .ret rfl ‹_›
  · cases h
    exact absurd rfl hpc

theorem pc_of_leadsTo {cursor : Nat} (hleads : instruction.LeadsTo session.machine cursor)
    (h : perform instruction position session = .ok () after) : after.machine.pc = cursor := by
  cases hleads with
  | label hsends hlabel =>
      obtain ⟨_, hperform, hpc⟩ := perform_of_sends hsends hlabel position
      rw [h] at hperform
      cases hperform
      exact hpc
  | ret hinstruction hcalls =>
      obtain ⟨machine, feed, sink⟩ := session
      dsimp only at hcalls
      rw [hinstruction, perform_ret, hcalls] at h
      cases h
      rfl

/-- Only a stop makes a machine halt. -/
theorem halted_of_perform (hstop : instruction ≠ .stop) (position : Nat) (session : Session) :
    (left (perform instruction position session)).machine.halted = session.machine.halted := by
  obtain ⟨machine, feed, sink⟩ := session
  rcases instruction.course_cases with
    hlocal | ⟨label, rfl⟩ | ⟨label, rfl⟩ | ⟨label, taken, hbranch⟩ | rfl | rfl
  · exact ((local_perform hlocal position).left _).halted
  · rw [perform_call]
    cases machine.labels[label]? <;> rfl
  · rw [perform_jump]
    cases machine.labels[label]? <;> rfl
  · rw [perform_branch hbranch]
    cases machine.stack with
    | nil => rfl
    | cons value rest =>
        dsimp only
        split_ifs
        · rw [perform_jump]
          dsimp only
          cases machine.labels[label]? <;> rfl
        · rfl
  · rw [perform_ret]
    cases machine.calls <;> rfl
  · exact absurd rfl hstop

end Action

theorem Machine.not_stalled_of_due? {machine : Machine} {instruction : Instruction}
    (h : machine.due? = some instruction) : ¬machine.Stalled :=
  fun hstalled => (due?_eq_some_iff.mp h).2.1 hstalled.2

namespace Session

theorem leadsTo_start_iff (session : Session) (span : Span) {cursor : Nat} {instruction : Instruction} :
    instruction.LeadsTo (session.start span).machine cursor ↔ instruction.LeadsTo session.machine cursor := by
  constructor
  · rintro (⟨hsends, hlabel⟩ | ⟨hinstruction, hcalls⟩)
    · exact .label hsends hlabel
    · exact .ret hinstruction hcalls
  · rintro (⟨hsends, hlabel⟩ | ⟨hinstruction, hcalls⟩)
    · exact .label hsends hlabel
    · exact .ret hinstruction hcalls

/-- The next step reports a stall at a cursor. -/
def Stalls (session : Session) (position : Nat) : Prop :=
  ∃ after, step session = .error (.malformed position) after

/-- The next step begins at a cursor and goes on, and its instruction leads back there. -/
structure Circles (session : Session) (position : Nat) : Prop where
  pc : session.machine.pc = position
  goes : ∃ after, step session = .ok .running after
  leads : ∃ instruction, session.machine.due? = some instruction ∧
    instruction.LeadsTo session.machine position

section Course

variable {program : Program} {session : Session} (h : session.machine.OnCourse program)
include h

theorem stalls_iff {position : Nat} :
    session.Stalls position ↔ session.machine.Stalled ∧ session.machine.pc = position := by
  constructor
  · rintro ⟨after, hstep⟩
    have hstalled := stalled_of_malformed h hstep
    rw [step_of_stalled hstalled] at hstep
    cases hstep
    exact ⟨hstalled, rfl⟩
  · rintro ⟨hstalled, rfl⟩
    exact ⟨session, step_of_stalled hstalled⟩

theorem isDone_of_finished {after : Session} (hstep : step session = .ok .finished after) :
    after.machine.isDone = true := by
  cases stepCase h with
  | done hdone hsame =>
      rw [hsame] at hstep
      cases hstep
      exact hdone
  | stalled _ hstall =>
      rw [hstall] at hstep
      cases hstep
  | padding _ _ hpadding =>
      rw [hpadding] at hstep
      cases hstep
      rfl
  | carried span hspan hpc hhalted hlast hcarried =>
      rw [hcarried] at hstep
      by_cases hstop : span.instruction = .stop
      · rw [hstop] at hstep
        cases hstep
        rfl
      · rw [Instruction.execute_eq, if_neg hstop] at hstep
        split at hstep <;> cases hstep

/-- An instruction that goes on leads to a stall just if it leads back to its own place, and the stall is there. -/
theorem stalled_iff_leadsTo {span : Span} (hspan : span ∈ program.walk.spans)
    (hhalted : session.machine.halted = false) {after : Session} (hstop : span.instruction ≠ .stop)
    (hperform : Action.perform span.instruction span.position (session.start span) = .ok () after)
    {position : Nat} :
    after.machine.Stalled ∧ after.machine.pc = position ↔
      span.position = position ∧ span.instruction.LeadsTo session.machine position := by
  obtain ⟨_, hlt, _⟩ := Program.decode_of_mem_spans hspan
  have hled := Action.perform_led span.instruction span.position (session.start span)
  have hsame := Action.halted_of_perform hstop span.position (session.start span)
  rw [hperform] at hled hsame
  have hlast : after.machine.lastPc = some span.position := hled.lastPc
  rw [Machine.Stalled, hlast, Option.some.injEq, ← leadsTo_start_iff session span]
  constructor
  · rintro ⟨⟨_, hback⟩, rfl⟩
    refine ⟨hback, Action.leadsTo_of_perform hperform ?_⟩
    rw [← hback]
    exact Nat.ne_of_lt hlt
  · rintro ⟨rfl, hleads⟩
    have hback := Action.pc_of_leadsTo hleads hperform
    have hprogram : after.machine.program = program := hled.program.trans h.program_eq
    refine ⟨⟨?_, hback.symm⟩, hback⟩
    rw [Machine.isDone_eq_halted hprogram hspan hback.symm]
    exact hsame.trans hhalted

/-- After a step that is not a stall itself, the machine is stalled at a cursor just if the step has circled
there. -/
theorem stalled_stepped_iff (hfree : ¬session.machine.Stalled) {position : Nat} :
    session.stepped.machine.Stalled ∧ session.stepped.machine.pc = position ↔ session.Circles position := by
  cases deed h with
  | idle lastPc halted hstepped hstep hdue _ =>
      refine iff_of_false ?_ ?_
      · rintro ⟨⟨hdone, _⟩, _⟩
        rcases hstep with hfinished | hmalformed
        · rw [isDone_of_finished h hfinished] at hdone
          cases hdone
        · exact hfree (stalled_of_malformed h hmalformed)
      · rintro ⟨_, _, instruction, hbegun, _⟩
        rw [hdue] at hbegun
        cases hbegun
  | failed span hspan hpc fault hperform hstep _ _ =>
      refine iff_of_false ?_ ?_
      · -- A failed instruction leaves the cursor behind itself.
        obtain ⟨_, hlt, _⟩ := Program.decode_of_mem_spans hspan
        have hsame := (Action.perform_error hperform).1
        rintro ⟨⟨_, hlast⟩, _⟩
        rw [hsame.lastPc, hsame.pc] at hlast
        exact absurd (Option.some.inj hlast) (Nat.ne_of_lt hlt)
      · rintro ⟨_, ⟨after, hgoes⟩, _⟩
        rw [hstep] at hgoes
        cases hgoes
  | completed span hspan hpc hperform hstep hdue _ =>
      by_cases hstop : span.instruction = .stop
      · rw [if_pos hstop] at hstep
        refine iff_of_false ?_ ?_
        · rintro ⟨⟨hdone, _⟩, _⟩
          rw [isDone_of_finished h hstep] at hdone
          cases hdone
        · rintro ⟨_, ⟨after, hgoes⟩, _⟩
          rw [hstep] at hgoes
          cases hgoes
      · rw [if_neg hstop] at hstep
        have hhalted : session.machine.halted = false :=
          Machine.halted_of_isDone (Machine.due?_eq_some_iff.mp hdue).1
        rw [stalled_iff_leadsTo h hspan hhalted hstop hperform, hpc]
        constructor
        · rintro ⟨hposition, hleads⟩
          exact ⟨hposition, ⟨_, hstep⟩, _, hdue, hleads⟩
        · rintro ⟨hposition, _, instruction, hbegun, hleads⟩
          obtain rfl := Option.some.inj (hdue.symm.trans hbegun)
          exact ⟨hposition, hleads⟩

/-- An instruction that is due and sends the machine to a label of its own place circles. -/
theorem circles_of_sends {instruction : Instruction} (hdue : session.machine.due? = some instruction)
    {label : Label} (hsends : instruction.Sends session.machine.stack label)
    (hlabel : session.machine.labels[label]? = some session.machine.pc) :
    session.Circles session.machine.pc := by
  have htable := hlabel
  rw [h.labels_eq, LabelTable.getElem?_eq_some_iff] at htable
  obtain ⟨target, htarget, _⟩ := htable
  obtain ⟨after, hstep, _⟩ := step_of_sends h ⟨instruction, hdue, hsends⟩ htarget
  exact ⟨rfl, ⟨after, hstep⟩, instruction, hdue, .label hsends hlabel⟩

end Course

/-- One session for each step that a machine takes. Every step may be given an input and an output of its own;
only the machine goes on from one to the next. -/
structure Stages (session : Session) (stage : Nat → Session) : Prop where
  zero : stage 0 = session
  succ : ∀ count, (stage (count + 1)).machine = (stage count).stepped.machine

theorem stages_iterate (session : Session) : session.Stages (stepped^[·] session) where
  zero := rfl
  succ count := by rw [Function.iterate_succ_apply']

section Loaded

variable {source : String} {feed : Feed} {sink : Sink} {session : Session} {stage : Nat → Session}
  (hload : Session.load source feed sink = .ok session) (hstages : session.Stages stage)
include hload hstages

theorem onCourse_stage (count : Nat) : (stage count).machine.OnCourse (Program.ofSource source) := by
  obtain ⟨machine, hmachine, rfl⟩ := Session.load_eq_ok_iff.mp hload
  obtain ⟨⟨stop, hending⟩, rfl⟩ := Machine.ofProgram_eq_ok_iff.mp hmachine
  induction count with
  | zero =>
      rw [hstages.zero]
      exact .initial hending
  | succ count ih =>
      rw [hstages.succ]
      exact onCourse_stepped hending ih

theorem stalls_succ_iff {count : Nat} (hfree : ¬(stage count).machine.Stalled) {position : Nat} :
    (stage (count + 1)).Stalls position ↔ (stage count).Circles position := by
  rw [stalls_iff (onCourse_stage hload hstages (count + 1)), hstages.succ]
  exact stalled_stepped_iff (onCourse_stage hload hstages count) hfree

theorem not_stalls_zero (position : Nat) : ¬(stage 0).Stalls position := by
  have hcourse := onCourse_stage hload hstages 0
  obtain ⟨machine, hmachine, rfl⟩ := Session.load_eq_ok_iff.mp hload
  obtain ⟨_, rfl⟩ := Machine.ofProgram_eq_ok_iff.mp hmachine
  rw [stalls_iff hcourse, hstages.zero]
  rintro ⟨⟨_, hlast⟩, _⟩
  cases hlast

/-- Behind every stall there is a step that has circled. -/
theorem exists_circles_of_stalls {count position : Nat} (h : (stage count).Stalls position) :
    ∃ before < count, (stage before).Circles position := by
  induction count with
  | zero => exact absurd h (not_stalls_zero hload hstages position)
  | succ count ih =>
      by_cases hstalled : (stage count).machine.Stalled
      · -- A stall changes nothing, so that the one before it was at the same cursor.
        have hsame : (stage (count + 1)).machine = (stage count).machine := by
          rw [hstages.succ, stepped, step_of_stalled hstalled, Action.left]
        rw [stalls_iff (onCourse_stage hload hstages _), hsame,
          ← stalls_iff (onCourse_stage hload hstages count)] at h
        obtain ⟨before, hbefore, hcircles⟩ := ih h
        exact ⟨before, Nat.lt_succ_of_lt hbefore, hcircles⟩
      · exact ⟨count, Nat.lt_succ_self count, (stalls_succ_iff hload hstages hstalled).mp h⟩

end Loaded

/-- **Which steps are stalls.** Take steps from a loaded source, each with any input and output, none of them a stall.
The next step is a stall at a cursor just if the step before it began there and led directly back: by a call, a
jump or a branch taken to a label that leads there, or by a return. So a jump or a call to its own place goes on
once and is refused when it is to begin again. -/
theorem stall_exact {source : String} {feed : Feed} {sink : Sink} {session : Session}
    (hload : Session.load source feed sink = .ok session) {stage : Nat → Session}
    (hstages : session.Stages stage) :
    (∀ count, (∀ index < count, ∀ place, ¬(stage index).Stalls place) → ∀ position,
      ((stage count).Stalls position ↔
        ∃ before, count = before + 1 ∧ (stage before).Circles position)) ∧
    (∀ count position, (stage count).Stalls position →
      ∃ before < count, (stage before).Circles position) ∧
    ∀ count label,
      let state := stage count
      state.machine.due? = some (.jump label) ∨ state.machine.due? = some (.call label) →
        state.machine.labels[label]? = some state.machine.pc →
          (∃ after, step state = .ok .running after) ∧ (stage (count + 1)).Stalls state.machine.pc := by
  refine ⟨?_, fun count position => exists_circles_of_stalls hload hstages, ?_⟩
  · intro count hfree position
    cases count with
    | zero =>
        refine iff_of_false (not_stalls_zero hload hstages position) ?_
        rintro ⟨before, hcount, _⟩
        cases hcount
    | succ count =>
        have hcourse := onCourse_stage hload hstages count
        have hlast : ¬(stage count).machine.Stalled := by
          intro hstalled
          exact hfree count (Nat.lt_succ_self count) _ ((stalls_iff hcourse).mpr ⟨hstalled, rfl⟩)
        rw [stalls_succ_iff hload hstages hlast]
        simp
  · intro count label state hdue hlabel
    have hcourse : state.machine.OnCourse (Program.ofSource source) := onCourse_stage hload hstages count
    obtain ⟨instruction, hbegun, hsends⟩ :
        ∃ instruction, state.machine.due? = some instruction ∧
          instruction.Sends state.machine.stack label := by
      rcases hdue with hjump | hcall
      · exact ⟨_, hjump, .jump⟩
      · exact ⟨_, hcall, .call⟩
    have hcircles := circles_of_sends hcourse hbegun hsends hlabel
    have hfree := Machine.not_stalled_of_due? hbegun
    exact ⟨hcircles.goes, (stalls_succ_iff hload hstages hfree).mpr hcircles⟩

/-- A branch on zero that leads to itself is carried out once and then refused. -/
theorem stall_exact_branch :
    ∃ session, Session.load "便利便利便利感極まってきました\n便利便利便利\n\n便利便利\n\n感極まってきました便利\n"
        ⟨[], none⟩ {} = .ok session ∧
      (stepped^[3] session).Circles 13 ∧ (stepped^[4] session).Stalls 13 := by
  have hending : (Program.ofSource
      "便利便利便利感極まってきました\n便利便利便利\n\n便利便利\n\n感極まってきました便利\n").walk.ending = .ok 17 := by
    decide +kernel
  have hload := Session.load_of_ending hending ⟨[], none⟩ {}
  refine ⟨_, hload, ?_⟩
  generalize hstart : Session.mk _ _ _ = session at hload ⊢
  have hreached : (stepped^[3] session).machine.pc = 13 ∧
      (stepped^[3] session).machine.due? = some (.jumpIfZero []) ∧
      (stepped^[3] session).machine.stack = [.integer 0, .integer 1] ∧
      (stepped^[3] session).machine.labels[([] : Label)]? = some 13 ∧
      ∀ index < 4, ¬(stepped^[index] session).machine.Stalled := by
    subst hstart
    decide +kernel
  obtain ⟨hpc, hdue, hstack, hlabel, hfree⟩ := hreached
  rw [← hpc] at hlabel
  have hcircles := circles_of_sends (onCourse_of_load hload 3) hdue (.branch rfl hstack rfl) hlabel
  rw [hpc] at hcircles
  refine ⟨hcircles, ((stall_exact hload (stages_iterate session)).1 4 ?_ 13).mpr ⟨3, rfl, hcircles⟩⟩
  intro index hindex place hstalls
  exact hfree index hindex ((stalls_iff (onCourse_of_load hload index)).mp hstalls).1

end Session

end MarkMachine
