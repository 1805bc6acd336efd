import MarkMachine.Proofs.Course
import MarkMachine.Proofs.Devices

/-! What a run has done. A step begins the instruction at the cursor, unless the machine is done, stalls or
stops before padding. An instruction that has been begun fails or is completed, and the instructions
completed so far are the history of a run. -/

namespace MarkMachine

theorem filterMap_range_succ {α : Type} (f : Nat → Option α) (count : Nat) :
    (List.range (count + 1)).filterMap f = (List.range count).filterMap f ++ (f count).toList := by
  rw [List.range_succ, List.filterMap_append]
  cases hlast : f count <;> simp [hlast]

namespace Session

def begun (session : Session) (count : Nat) : List Instruction :=
  (List.range count).filterMap fun index => (stepped^[index] session).machine.due?

theorem begun_succ (session : Session) (count : Nat) :
    session.begun (count + 1) = session.begun count ++ (stepped^[count] session).machine.due?.toList :=
  filterMap_range_succ _ count

/-- The instruction that the next step begins and completes, if there is one. -/
def completed? (session : Session) : Option Instruction :=
  match step session with
  | .ok _ _ => session.machine.due?
  | .error _ _ => none

def completed (session : Session) (count : Nat) : List Instruction :=
  (List.range count).filterMap fun index => (stepped^[index] session).completed?

theorem completed_succ (session : Session) (count : Nat) :
    session.completed (count + 1) =
      session.completed count ++ (stepped^[count] session).completed?.toList :=
  filterMap_range_succ _ count

/-- What the next step comes to: it begins no instruction, or it begins the one at the cursor, which then
fails or is completed. -/
inductive Deed (program : Program) (session : Session) : Prop
  | idle (lastPc : Option Nat) (halted : Bool)
      (hstepped : session.stepped = { session with machine := { session.machine with lastPc, halted } })
      (hstep : step session = .ok .finished session.stepped ∨
        step session = .error (.malformed session.machine.pc) session.stepped)
      (hdue : session.machine.due? = none) (hcompleted : session.completed? = none)
  | failed (span : Span) (hspan : span ∈ program.walk.spans) (hpc : span.position = session.machine.pc)
      (fault : Fault)
      (hperform : Action.perform span.instruction span.position (session.start span) =
        .error fault session.stepped)
      (hstep : step session = .error fault session.stepped)
      (hdue : session.machine.due? = some span.instruction) (hcompleted : session.completed? = none)
  | completed (span : Span) (hspan : span ∈ program.walk.spans) (hpc : span.position = session.machine.pc)
      (hperform : Action.perform span.instruction span.position (session.start span) =
        .ok () session.stepped)
      (hstep : step session =
        .ok (if span.instruction = .stop then .finished else .running) session.stepped)
      (hdue : session.machine.due? = some span.instruction)
      (hcompleted : session.completed? = some span.instruction)

variable {program : Program} {session : Session}

theorem due?_of_span (hprogram : session.machine.program = program) {span : Span}
    (hspan : span ∈ program.walk.spans) (hpc : span.position = session.machine.pc)
    (hhalted : session.machine.halted = false) (hlast : session.machine.lastPc ≠ some session.machine.pc) :
    session.machine.due? = some span.instruction := by
  have hdone := Machine.isDone_eq_halted hprogram hspan hpc
  rw [Machine.due?, if_neg, Machine.decode_ahead hprogram hspan hpc]
  rintro (hfinished | hstalled)
  · rw [hdone, hhalted] at hfinished
    cases hfinished
  · exact hlast hstalled

theorem deed (h : session.machine.OnCourse program) : Deed program session := by
  cases stepCase h with
  | done hdone hstep =>
      have hdue : session.machine.due? = none := if_pos (.inl hdone)
      have hstepped : session.stepped = session := by rw [stepped, hstep, Action.left]
      refine .idle session.machine.lastPc session.machine.halted hstepped (.inl ?_) hdue ?_
      · rw [hstepped, hstep]
      · rw [completed?, hstep, hdue]
  | stalled hstalled hstep =>
      have hstepped : session.stepped = session := by rw [stepped, hstep, Action.left]
      refine .idle session.machine.lastPc session.machine.halted hstepped (.inr ?_)
        (if_pos (.inr hstalled.2)) ?_
      · rw [hstepped, hstep]
      · rw [completed?, hstep]
  | padding hending hhalted hstep =>
      have hdue : session.machine.due? = none := by
        rw [Machine.due?]
        split_ifs
        · rfl
        · cases hdecode : Instruction.decode session.machine.ahead with
          | found instruction width =>
              rw [h.ahead_eq] at hdecode
              exact absurd hdecode ((Program.padding_of_ending hending).1.unreadable instruction width)
          | missing => rfl
          | overflow => rfl
      have hstepped : session.stepped = { session with
          machine := { session.machine with lastPc := some session.machine.pc, halted := true } } := by
        rw [stepped, hstep, Action.left]
      refine .idle (some session.machine.pc) true hstepped (.inl ?_) hdue ?_
      · rw [hstepped, hstep]
      · rw [completed?, hstep, hdue]
  | carried span hspan hpc hhalted hlast hstep =>
      have hdue := due?_of_span h.program_eq hspan hpc hhalted hlast
      have hleft : session.stepped =
          Action.left (Action.perform span.instruction span.position (session.start span)) := by
        rw [stepped, hstep, Instruction.left_execute]
      rw [Instruction.execute_eq] at hstep
      cases hperform : Action.perform span.instruction span.position (session.start span) with
      | ok value after =>
          rw [hperform] at hleft hstep
          subst hleft
          refine .completed span hspan hpc hperform hstep hdue ?_
          rw [completed?, hstep, hdue]
      | error fault after =>
          rw [hperform] at hleft hstep
          subst hleft
          refine .failed span hspan hpc fault hperform hstep hdue ?_
          rw [completed?, hstep]

/-- A step carries out the instruction that is due. -/
theorem step_of_due (h : session.machine.OnCourse program) {instruction : Instruction}
    (hdue : session.machine.due? = some instruction) :
    ∃ span ∈ program.walk.spans, span.position = session.machine.pc ∧ span.instruction = instruction ∧
      step session = instruction.execute session.machine.pc (session.start span) := by
  cases deed h with
  | idle _ _ _ _ hnone _ =>
      rw [hnone] at hdue
      cases hdue
  | failed span hspan hpc fault hperform hstep hbegun _ =>
      obtain rfl : span.instruction = instruction := Option.some.inj (hbegun.symm.trans hdue)
      refine ⟨span, hspan, hpc, rfl, ?_⟩
      rw [hstep, ← hpc, Instruction.execute_eq_error_iff.mpr hperform]
  | completed span hspan hpc hperform hstep hbegun _ =>
      obtain rfl : span.instruction = instruction := Option.some.inj (hbegun.symm.trans hdue)
      refine ⟨span, hspan, hpc, rfl, ?_⟩
      rw [hstep, ← hpc, Instruction.execute_eq, hperform]

/-- A step that begins no instruction has none that could fail. -/
theorem exists_due_of_error (h : session.machine.OnCourse program) {fault : Fault} {after : Session}
    (hstep : step session = .error fault after) (hfault : fault.OfExecution) :
    ∃ instruction, session.machine.due? = some instruction := by
  cases deed h with
  | idle _ _ _ hidle _ _ =>
      rcases hidle with hfinished | hstalled
      · rw [hfinished] at hstep
        cases hstep
      · rw [hstalled] at hstep
        cases hstep
        exact hfault.elim
  | failed span _ _ _ _ _ hdue _ => exact ⟨_, hdue⟩
  | completed span _ _ _ _ hdue _ => exact ⟨_, hdue⟩

/-- The next so many steps go on. -/
def Goes (session : Session) (count : Nat) : Prop :=
  ∀ index < count, ∃ after, step (stepped^[index] session) = .ok .running after

theorem goes_zero (session : Session) : session.Goes 0 :=
  fun index hindex => absurd hindex (Nat.not_lt_zero index)

theorem goes_succ_iff {session after : Session} (h : step session = .ok .running after) (count : Nat) :
    session.Goes (count + 1) ↔ after.Goes count := by
  have hafter : stepped session = after := by rw [stepped, h, Action.left]
  constructor
  · intro hgoes index hindex
    have hlater := hgoes (index + 1) (Nat.succ_lt_succ hindex)
    rwa [Function.iterate_succ_apply, hafter] at hlater
  · intro hgoes index hindex
    cases index with
    | zero => exact ⟨after, h⟩
    | succ index =>
        rw [Function.iterate_succ_apply, hafter]
        exact hgoes index (Nat.lt_of_succ_lt_succ hindex)

/-- A run that goes on for some steps is at the session that these leave. -/
theorem advance_add {session : Session} {count : Nat} (h : session.Goes count) (more : Nat) :
    advance (count + more) session = advance more (stepped^[count] session) := by
  induction count generalizing session with
  | zero => rw [Nat.zero_add, Function.iterate_zero_apply]
  | succ count ih =>
      obtain ⟨after, hstep⟩ := h 0 (Nat.succ_pos count)
      rw [Function.iterate_zero_apply] at hstep
      have hafter : stepped session = after := by rw [stepped, hstep, Action.left]
      rw [Nat.succ_add, advance, hstep, Function.iterate_succ_apply, hafter]
      exact ih ((goes_succ_iff hstep count).mp h)

theorem goes_of_advance_eq_running {count : Nat} {session state : Session}
    (h : advance count session = .running state) : session.Goes count := by
  induction count generalizing session with
  | zero => exact goes_zero session
  | succ count ih =>
      rw [advance] at h
      cases hstep : step session with
      | error fault after => simp [hstep, close_eq] at h
      | ok outcome after =>
          cases outcome with
          | finished => simp [hstep, close_eq] at h
          | running =>
              rw [hstep] at h
              exact (goes_succ_iff hstep count).mpr (ih h)

theorem exists_advance_eq_close {session : Session} (h : ∀ after, step session ≠ .ok .running after)
    (count : Nat) : ∃ result, advance (count + 1) session = close result session.stepped := by
  rw [advance, stepped]
  cases hstep : step session with
  | error fault after => exact ⟨_, rfl⟩
  | ok outcome after =>
      cases outcome with
      | running => exact absurd hstep (h after)
      | finished => exact ⟨_, rfl⟩

/-- A step that does not go on ends the run. -/
theorem exists_advance_eq_ended {session : Session} (h : ∀ after, step session ≠ .ok .running after) :
    ∃ result after, advance 1 session = .ended result after := by
  obtain ⟨result, hclose⟩ := exists_advance_eq_close h 0
  obtain ⟨final, hended⟩ := exists_close_eq_ended result session.stepped
  exact ⟨final, _, hclose.trans hended⟩

/-- How a run has ended: its last step failed, or it finished and all that was left was the last flush. -/
theorem exists_last_step {count : Nat} {session final : Session} {result : Except Fault Unit}
    (h : advance count session = .ended result final) :
    ∃ last < count, session.Goes last ∧
      final = Action.left (Action.toSink Sink.flush (stepped^[last + 1] session)) ∧
      ((∃ fault after, step (stepped^[last] session) = .error fault after ∧ result = .error fault) ∨
        ∃ after, step (stepped^[last] session) = .ok .finished after ∧
          result = verdict (.ok ()) after.sink) := by
  induction count generalizing session with
  | zero => cases h
  | succ count ih =>
      rw [advance] at h
      cases hstep : step session with
      | error fault after =>
          rw [hstep] at h
          dsimp only at h
          rw [close_eq] at h
          cases h
          have hafter : stepped session = after := by rw [stepped, hstep, Action.left]
          refine ⟨0, Nat.succ_pos count, goes_zero session, ?_, .inl ⟨fault, after, hstep, rfl⟩⟩
          rw [Function.iterate_one, hafter]
      | ok outcome after =>
          rw [hstep] at h
          have hafter : stepped session = after := by rw [stepped, hstep, Action.left]
          cases outcome with
          | finished =>
              dsimp only at h
              rw [close_eq] at h
              cases h
              refine ⟨0, Nat.succ_pos count, goes_zero session, ?_, .inr ⟨after, hstep, rfl⟩⟩
              rw [Function.iterate_one, hafter]
          | running =>
              obtain ⟨last, hlast, hgoes, hfinal, hresult⟩ := ih h
              refine ⟨last + 1, Nat.succ_lt_succ hlast, (goes_succ_iff hstep last).mpr hgoes, ?_, ?_⟩
              · rw [Function.iterate_succ_apply, hafter]
                exact hfinal
              · rw [Function.iterate_succ_apply, hafter]
                exact hresult

end Session

end MarkMachine
