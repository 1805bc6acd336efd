import MarkMachine.Proofs.Course

/-! What would become of a stalled machine. A step that would begin where the last one began is refused as
a stall. A machine that did not look for this would jump to itself, or call itself, forever. But a branch
that leads to itself takes a value off the stack each time, and a return that leads to itself takes off a
call: such a machine comes away from the instruction, by a fault when nothing is left to take or at the
first value or cursor that leads elsewhere, and then everything depends on how it goes on from there. -/

namespace MarkMachine

namespace Session

/-- The session without a note of where the last step began. -/
def forget (session : Session) : Session :=
  { session with machine := { session.machine with lastPc := none } }

/-- A step that does not look at where the last one began. -/
def freeStep : Action Outcome := fun session =>
  step session.forget

/-- The session that a free step leaves, whether or not it failed. -/
def freeStepped (session : Session) : Session :=
  Action.left (freeStep session)

/-- However many free steps are taken, none of them finishes or fails. -/
def RunsForever (session : Session) : Prop :=
  ∀ count, ∃ after, freeStep (freeStepped^[count] session) = .ok .running after

/-- Unless a machine is done or stalled, a free step is a step. -/
theorem freeStep_eq_step {session : Session} (hdone : session.machine.isDone = false)
    (hlast : session.machine.lastPc ≠ some session.machine.pc) : freeStep session = step session := by
  rw [freeStep, step, step]
  change (if session.machine.isDone = true then _ else _) = _
  rw [hdone, if_neg Bool.false_ne_true, if_neg Bool.false_ne_true, if_neg hlast]
  rfl

theorem freeStep_of_isDone {session : Session} (h : session.machine.isDone = true) :
    freeStep session = .ok .finished session.forget := by
  have hdone : session.forget.machine.isDone = true := h
  exact step_of_isDone hdone

theorem freeStep_of_mem_spans {program : Program} {session : Session}
    (hprogram : session.machine.program = program) {span : Span} (hspan : span ∈ program.walk.spans)
    (hpc : span.position = session.machine.pc) (hhalted : session.machine.halted = false) :
    freeStep session = span.instruction.execute span.position (session.start span) := by
  have hforget : session.forget.machine.program = program := hprogram
  exact step_of_mem_spans hforget hspan hpc hhalted (nomatch ·)

/-- A free step that goes on decides nothing about the rest of the run. -/
theorem runsForever_iff_of_running {session after : Session}
    (h : freeStep session = .ok .running after) : session.RunsForever ↔ after.RunsForever := by
  have hafter : freeStepped session = after := by rw [freeStepped, h, Action.left]
  constructor
  · intro hforever count
    have hlater := hforever (count + 1)
    rwa [Function.iterate_succ_apply, hafter] at hlater
  · intro hforever count
    cases count with
    | zero => exact ⟨after, h⟩
    | succ count =>
        rw [Function.iterate_succ_apply, hafter]
        exact hforever count

theorem not_runsForever_of_error {session after : Session} {fault : Fault}
    (h : freeStep session = .error fault after) : ¬session.RunsForever := by
  intro hforever
  obtain ⟨_, hrunning⟩ := hforever 0
  rw [Function.iterate_zero_apply, h] at hrunning
  cases hrunning

/-- What free steps keep, and what keeps them going, makes a machine run forever. -/
theorem runsForever_of_invariant (invariant : Session → Prop)
    (hstep : ∀ session, invariant session → ∃ after, freeStep session = .ok .running after ∧ invariant after)
    {session : Session} (h : invariant session) : session.RunsForever := by
  intro count
  have hreached : invariant (freeStepped^[count] session) := by
    induction count with
    | zero => exact h
    | succ count ih =>
        obtain ⟨after, hrunning, hafter⟩ := hstep _ ih
        rw [Function.iterate_succ_apply', freeStepped, hrunning]
        exact hafter
  obtain ⟨after, hrunning, _⟩ := hstep _ hreached
  exact ⟨after, hrunning⟩

/-- A machine that takes one item off a list with each step, and goes on in place while the items lead
back, comes away at the first item that does not, or fails when the list is empty. -/
theorem runsForever_countdown {α : Type} (back : α → Bool) (staying : List α → Nat → Session)
    (leaving : α → List α → Nat → Session)
    (hempty : ∀ steps, ∃ fault after, freeStep (staying [] steps) = .error fault after)
    (hback : ∀ item items steps, back item = true →
      freeStep (staying (item :: items) steps) = .ok .running (staying items (steps + 1)))
    (hleave : ∀ item items steps, back item = false →
      freeStep (staying (item :: items) steps) = .ok .running (leaving item items (steps + 1)))
    (items : List α) (steps : Nat) :
    (staying items steps).RunsForever ↔ ∃ item rest, items.dropWhile back = item :: rest ∧
      (leaving item rest (steps + (items.length - rest.length))).RunsForever := by
  induction items generalizing steps with
  | nil =>
      obtain ⟨fault, after, hfault⟩ := hempty steps
      simp [not_runsForever_of_error hfault]
  | cons item items ih =>
      cases hitem : back item with
      | true =>
          rw [runsForever_iff_of_running (hback item items steps hitem), ih, List.dropWhile_cons_of_pos hitem]
          refine exists_congr fun first => exists_congr fun rest => and_congr_right fun hrest => ?_
          have hlength : (first :: rest).length ≤ items.length := by
            rw [← hrest]
            exact (List.dropWhile_suffix _).length_le
          rw [List.length_cons] at hlength
          rw [List.length_cons, show steps + (items.length + 1 - rest.length) =
            steps + 1 + (items.length - rest.length) by omega]
      | false =>
          rw [runsForever_iff_of_running (hleave item items steps hitem),
            List.dropWhile_cons_of_neg (by simp [hitem])]
          simp

/-- The session in which a machine would come away from an instruction that keeps leading to itself by
what it takes off the stack or the calls. -/
def escape? (session : Session) (span : Span) : Option Session :=
  let machine := session.machine
  match span.instruction.branch? with
  | some (_, taken) =>
      match machine.stack.dropWhile fun value => taken value.toInteger with
      | [] => none
      | _ :: rest => some { session with machine := { machine with
          pc := span.next, stack := rest, steps := machine.steps + (machine.stack.length - rest.length) } }
  | none =>
      if span.instruction = .ret then
        match machine.calls.dropWhile fun cursor => cursor = machine.pc with
        | [] => none
        | cursor :: rest => some { session with machine := { machine with
            pc := cursor, calls := rest, steps := machine.steps + (machine.calls.length - rest.length) } }
      else none

section Stalled

variable {program : Program} {session : Session} {span : Span}
  (hprogram : session.machine.program = program) (hspan : span ∈ program.walk.spans)
  (hpc : span.position = session.machine.pc) (hhalted : session.machine.halted = false)
include hprogram hspan hpc hhalted

/-- A jump or a call that leads to itself does so forever. -/
theorem runsForever_of_transfer {label : Label}
    (hinstruction : span.instruction = .jump label ∨ span.instruction = .call label)
    (hlabel : session.machine.labels[label]? = some session.machine.pc) : session.RunsForever := by
  refine runsForever_of_invariant (fun session => session.machine.program = program ∧
    span.position = session.machine.pc ∧ session.machine.halted = false ∧
    session.machine.labels[label]? = some session.machine.pc) ?_ ⟨hprogram, hpc, hhalted, hlabel⟩
  rintro session ⟨hprogram, hpc, hhalted, hlabel⟩
  rw [freeStep_of_mem_spans hprogram hspan hpc hhalted]
  have hstart : (session.start span).machine.labels[label]? = some session.machine.pc := hlabel
  rcases hinstruction with hjump | hcall
  · rw [hjump, Instruction.execute_running (Action.perform_jump_of_label hstart _) (nomatch ·)]
    exact ⟨_, rfl, hprogram, hpc, hhalted, hlabel⟩
  · rw [hcall, Instruction.execute_running (Action.perform_call_of_label hstart _) (nomatch ·)]
    exact ⟨_, rfl, hprogram, hpc, hhalted, hlabel⟩

variable (hlast : session.machine.lastPc = some session.machine.pc)
include hlast

/-- A branch that leads to itself is left by the first value on which it is not taken. -/
theorem runsForever_branch_iff {label : Label} {taken : Int64 → Bool}
    (hbranch : span.instruction.branch? = some (label, taken))
    (hlabel : session.machine.labels[label]? = some session.machine.pc) :
    session.RunsForever ↔ ∃ after, session.escape? span = some after ∧ after.RunsForever := by
  obtain ⟨⟨program, labels, pc, lastPc, stack, heap, calls, halted, steps⟩, feed, sink⟩ := session
  dsimp only at hprogram hpc hhalted hlast hlabel
  subst hprogram hpc hhalted hlast
  have hstop : span.instruction ≠ .stop := by
    intro hstop
    rw [hstop] at hbranch
    cases hbranch
  have hcountdown := runsForever_countdown (fun value : Value => taken value.toInteger)
    (fun stack steps => ⟨⟨program, labels, span.position, some span.position, stack, heap, calls, false, steps⟩,
      feed, sink⟩)
    (fun _ stack steps => ⟨⟨program, labels, span.next, some span.position, stack, heap, calls, false, steps⟩,
      feed, sink⟩) ?_ ?_ ?_ stack steps
  · rw [hcountdown, escape?, hbranch]
    dsimp only
    cases stack.dropWhile fun value => taken value.toInteger <;> simp
  · intro steps
    rw [freeStep_of_mem_spans rfl hspan rfl rfl]
    exact ⟨_, _, Instruction.execute_eq_error_iff.mpr (Action.perform_branch hbranch _)⟩
  · intro value stack steps hvalue
    rw [freeStep_of_mem_spans rfl hspan rfl rfl]
    refine Instruction.execute_running ((Action.perform_branch hbranch _).trans ?_) hstop
    exact (if_pos hvalue).trans (Action.perform_jump_of_label hlabel _)
  · intro value stack steps hvalue
    rw [freeStep_of_mem_spans rfl hspan rfl rfl]
    refine Instruction.execute_running ((Action.perform_branch hbranch _).trans ?_) hstop
    exact if_neg (by rw [hvalue]; exact Bool.false_ne_true)

/-- A return that leads to itself is left by the first call that came from elsewhere. -/
theorem runsForever_ret_iff (hret : span.instruction = .ret) :
    session.RunsForever ↔ ∃ after, session.escape? span = some after ∧ after.RunsForever := by
  obtain ⟨⟨program, labels, pc, lastPc, stack, heap, calls, halted, steps⟩, feed, sink⟩ := session
  dsimp only at hprogram hpc hhalted hlast
  subst hprogram hpc hhalted hlast
  have hcountdown := runsForever_countdown (fun cursor : Nat => decide (cursor = span.position))
    (fun calls steps => ⟨⟨program, labels, span.position, some span.position, stack, heap, calls, false, steps⟩,
      feed, sink⟩)
    (fun cursor calls steps => ⟨⟨program, labels, cursor, some span.position, stack, heap, calls, false, steps⟩,
      feed, sink⟩) ?_ ?_ ?_ calls steps
  · rw [hcountdown, escape?, hret]
    dsimp only [Instruction.branch?]
    rw [if_pos rfl]
    cases calls.dropWhile fun cursor => decide (cursor = span.position) <;> simp
  · intro steps
    rw [freeStep_of_mem_spans rfl hspan rfl rfl, hret]
    exact ⟨_, _, Instruction.execute_eq_error_iff.mpr (Action.perform_ret _)⟩
  · intro cursor calls steps hcursor
    rw [freeStep_of_mem_spans rfl hspan rfl rfl, hret, of_decide_eq_true hcursor]
    exact Instruction.execute_running (Action.perform_ret _) (nomatch ·)
  · intro cursor calls steps _
    rw [freeStep_of_mem_spans rfl hspan rfl rfl, hret]
    exact Instruction.execute_running (Action.perform_ret _) (nomatch ·)

end Stalled

/-- What would become of a machine that stalls on its course. -/
theorem runsForever_iff_of_stalled {program : Program} {session : Session}
    (h : session.machine.OnCourse program) (hstalled : session.machine.Stalled) :
    ∃ span ∈ program.walk.spans, span.position = session.machine.pc ∧
      (session.RunsForever ↔
        (∃ label, span.instruction = .jump label ∨ span.instruction = .call label) ∨
          ∃ after, session.escape? span = some after ∧ after.RunsForever) := by
  obtain ⟨span, hspan, hpc, hback⟩ := h.exists_span_of_stalled hstalled
  obtain ⟨hdone, hlast⟩ := hstalled
  have hhalted := Machine.halted_of_isDone hdone
  refine ⟨span, hspan, hpc, ?_⟩
  rcases hback with ⟨label, htransfer, hlabel⟩ | hret
  · rcases Instruction.transfer?_cases htransfer with hjump | hcall | ⟨taken, hbranch⟩
    · have hforever := runsForever_of_transfer h.program_eq hspan hpc hhalted (.inl hjump) hlabel
      exact iff_of_true hforever (.inl ⟨label, .inl hjump⟩)
    · have hforever := runsForever_of_transfer h.program_eq hspan hpc hhalted (.inr hcall) hlabel
      exact iff_of_true hforever (.inl ⟨label, .inr hcall⟩)
    · rw [or_iff_right, runsForever_branch_iff h.program_eq hspan hpc hhalted hlast hbranch hlabel]
      rintro ⟨target, hjump | hcall⟩
      · rw [hjump] at hbranch
        cases hbranch
      · rw [hcall] at hbranch
        cases hbranch
  · rw [or_iff_right, runsForever_ret_iff h.program_eq hspan hpc hhalted hlast hret]
    rw [hret]
    rintro ⟨target, hjump | hcall⟩
    · cases hjump
    · cases hcall

/-- **When a stall is a loop.** Let a step from a loaded source report a stall, that is a malformed
program. A machine whose steps are the same but do not look for stalls would run on from there forever if
it stands at a jump or a call. At a branch or a return it would do so just if it comes away from that
instruction, and runs forever from where it then is. -/
theorem stall_runsForever_iff {source : String} {feed : Feed} {sink : Sink} {session : Session}
    (hload : Session.load source feed sink = .ok session) (count : Nat) {position : Nat} {after : Session}
    (hstep : step (stepped^[count] session) = .error (.malformed position) after) :
    let state := stepped^[count] session
    (∀ other : Session, other.machine.isDone = false → other.machine.lastPc ≠ some other.machine.pc →
      freeStep other = step other) ∧
    ∃ span ∈ (Program.ofSource source).walk.spans, span.position = state.machine.pc ∧
      (state.RunsForever ↔
        (∃ label, span.instruction = .jump label ∨ span.instruction = .call label) ∨
          ∃ after, state.escape? span = some after ∧ after.RunsForever) := by
  have hcourse := onCourse_of_load hload count
  exact ⟨fun _ => freeStep_eq_step, runsForever_iff_of_stalled hcourse (stalled_of_malformed hcourse hstep)⟩

/-- A program that defines the empty label and jumps to itself stalls for a good reason. -/
theorem stall_runsForever_iff_jump :
    ∃ session, Session.load "\n便利便利\n\n便利\n\n" ⟨[], none⟩ {} = .ok session ∧
      (∃ after, step (stepped^[2] session) = .error (.malformed 4) after) ∧
      (stepped^[2] session).RunsForever := by
  have hending : (Program.ofSource "\n便利便利\n\n便利\n\n").walk.ending = .ok 8 := by
    rfl
  have hload := Session.load_of_ending hending ⟨[], none⟩ {}
  refine ⟨_, hload, ?_⟩
  generalize hstate : stepped^[2] _ = state
  have hreached : state.machine.pc = 4 ∧ state.machine.Stalled := by
    subst hstate
    decide +kernel
  obtain ⟨hpc, hstalled⟩ := hreached
  have hstep := step_of_stalled hstalled
  refine ⟨⟨_, hpc ▸ hstep⟩, ?_⟩
  subst hstate
  obtain ⟨_, span, hspan, hposition, hiff⟩ := stall_runsForever_iff hload 2 hstep
  have hspans : (Program.ofSource "\n便利便利\n\n便利\n\n").walk.spans =
      [⟨0, .define [], 4⟩, ⟨4, .jump [], 8⟩] := by
    rfl
  rw [hspans] at hspan
  simp only [List.mem_cons, List.not_mem_nil, or_false] at hspan
  rcases hspan with rfl | rfl
  · rw [hpc] at hposition
    cases hposition
  · exact hiff.mpr (.inl ⟨_, .inl rfl⟩)

/-- A program that leaves a one and a zero on the stack and branches to itself on zero is refused as a
stall at its branch. Without the check it would take the branch once and then come to its end. -/
theorem stall_of_branch_ends :
    ∃ session, Session.load "便利便利便利感極まってきました\n便利便利便利\n\n便利便利\n\n感極まってきました便利\n"
        ⟨[], none⟩ {} = .ok session ∧
      (∃ after, step (stepped^[4] session) = .error (.malformed 13) after) ∧
      (∃ after, freeStep (freeStepped^[1] (stepped^[4] session)) = .ok .finished after) ∧
      ¬(stepped^[4] session).RunsForever := by
  have hending : (Program.ofSource
      "便利便利便利感極まってきました\n便利便利便利\n\n便利便利\n\n感極まってきました便利\n").walk.ending = .ok 17 := by
    decide +kernel
  refine ⟨_, Session.load_of_ending hending ⟨[], none⟩ {}, ?_⟩
  generalize hstate : stepped^[4] _ = state
  have hreached : state.machine.pc = 13 ∧ state.machine.Stalled ∧
      (freeStepped^[1] state).machine.isDone = true := by
    subst hstate
    decide +kernel
  obtain ⟨hpc, hstalled, hdone⟩ := hreached
  have hfree := freeStep_of_isDone hdone
  refine ⟨⟨_, hpc ▸ step_of_stalled hstalled⟩, ⟨_, hfree⟩, fun hforever => ?_⟩
  obtain ⟨after, hrunning⟩ := hforever 1
  rw [hfree] at hrunning
  cases hrunning

end Session

end MarkMachine
