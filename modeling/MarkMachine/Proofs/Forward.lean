import Mathlib.Algebra.Order.Ring.Nat
import MarkMachine.Proofs.History

/-! Programs that only lead forward come to an end. Where calls, jumps and branches lead ahead and only
returns lead back, a subroutine can still be entered many times, even twice as often for each call in
front of it. So a run may be long, but not without end: give a cursor more than twice the weight of any
cursor behind it, and what a machine carries, at its cursor and at the cursors it is to return to, gets
lighter with each step. -/

namespace MarkMachine

namespace Program

/-- Where a label that an instruction can lead to is defined, it leads behind the cursor at which the
instruction stands. -/
def LeadsForward (program : Program) : Prop :=
  ∀ span ∈ program.walk.spans, ∀ label ∈ span.instruction.transfer?,
    ∀ cursor ∈ (LabelTable.ofSpans program.walk.spans)[label]?, span.position < cursor

/-- How many steps there can be at most from a cursor to the end, returns to it not counted. -/
def weight (program : Program) (cursor : Nat) : Nat :=
  2 ^ (program.length - cursor) - 1

theorem two_mul_weight_lt {program : Program} {cursor later : Nat} (hlt : cursor < later)
    (hcursor : cursor < program.length) : 2 * program.weight later < program.weight cursor := by
  have hle : 2 ^ (program.length - later) ≤ 2 ^ (program.length - cursor - 1) :=
    Nat.pow_le_pow_right Nat.two_pos (by omega)
  have hdouble : 2 ^ (program.length - cursor) = 2 * 2 ^ (program.length - cursor - 1) := by
    rw [← Nat.pow_succ']
    congr 1
    omega
  have hpos : 0 < 2 ^ (program.length - later) := Nat.two_pow_pos _
  rw [weight, weight]
  omega

end Program

/-- The weight of a machine's cursor and of the cursors that it is to return to. -/
def Machine.weight (program : Program) (machine : Machine) : Nat :=
  program.weight machine.pc + (machine.calls.map program.weight).sum

namespace Session

variable {program : Program}

/-- A step that goes on makes the machine lighter. -/
theorem weight_lt_of_running (hforward : program.LeadsForward) {session after : Session}
    (h : session.machine.OnCourse program) (hstep : step session = .ok .running after) :
    after.machine.weight program < session.machine.weight program := by
  cases deed h with
  | idle _ _ _ hidle _ _ =>
      rw [hstep] at hidle
      rcases hidle with hfinished | hstalled
      · cases hfinished
      · cases hstalled
  | failed _ _ _ _ _ hfailed _ _ =>
      rw [hstep] at hfailed
      cases hfailed
  | completed span hspan hpc hperform hcompleted _ _ =>
      obtain ⟨_, hafter⟩ : _ ∧ after = session.stepped := by
        rw [hstep, EStateM.Result.ok.injEq] at hcompleted
        exact hcompleted
      obtain ⟨_, hlt, hle⟩ := Program.decode_of_mem_spans hspan
      have hbehind : 2 * program.weight span.next < program.weight span.position :=
        Program.two_mul_weight_lt hlt (by omega)
      have hled : ∀ label cursor, span.instruction.transfer? = some label →
          session.machine.labels[label]? = some cursor →
            2 * program.weight cursor < program.weight span.position := by
        intro label cursor htransfer hlabel
        rw [h.labels_eq] at hlabel
        exact Program.two_mul_weight_lt (hforward span hspan label htransfer cursor hlabel) (by omega)
      rw [← hafter] at hperform
      rw [Machine.weight, Machine.weight, ← hpc]
      cases Action.perform_went hperform with
      | called label hinstruction hlabel hcalls =>
          have hcursor := hled label _ (by rw [hinstruction]; rfl) hlabel
          rw [hcalls, start_pc, start_calls, List.map_cons, List.sum_cons]
          omega
      | returned _ hcalls =>
          rw [start_calls] at hcalls
          rw [hcalls, List.map_cons, List.sum_cons]
          omega
      | moved _ _ hcursor hcalls =>
          rw [hcalls, start_calls]
          rcases hcursor with hnext | ⟨label, htransfer, hlabel⟩
          · rw [hnext, start_pc]
            omega
          · have hcursor := hled label _ htransfer hlabel
            omega

/-- From any place on the course of a program that leads forward, steps go on at most as often as the
machine's weight says. -/
theorem exists_goes_of_leadsForward (hforward : program.LeadsForward) {stop : Nat}
    (hending : program.walk.ending = .ok stop) {session : Session} (h : session.machine.OnCourse program) :
    ∃ count ≤ session.machine.weight program, session.Goes count ∧
      ∀ after, step (stepped^[count] session) ≠ .ok .running after := by
  induction hweight : session.machine.weight program using Nat.strongRecOn generalizing session with
  | ind weight ih =>
      by_cases hruns : ∃ after, step session = .ok .running after
      · obtain ⟨after, hstep⟩ := hruns
        have hafter : stepped session = after := by rw [stepped, hstep, Action.left]
        have hlighter := weight_lt_of_running hforward h hstep
        have hcourse : after.machine.OnCourse program := hafter ▸ onCourse_stepped hending h
        obtain ⟨count, hcount, hgoes, hends⟩ := ih _ (hweight ▸ hlighter) hcourse rfl
        refine ⟨count + 1, by omega, (goes_succ_iff hstep count).mpr hgoes, ?_⟩
        rwa [Function.iterate_succ_apply, hafter]
      · refine ⟨0, Nat.zero_le _, fun index hindex => absurd hindex (Nat.not_lt_zero index), ?_⟩
        exact fun after hstep => hruns ⟨after, hstep⟩

/-- **Programs that lead forward end.** If every call, jump and branch of a loaded source leads ahead, or to
a label that is not defined, then on any input and output the run ends, by a step that finishes or fails,
after fewer steps than two to the power of the program's length. -/
theorem forward_run_ends {source : String} {feed : Feed} {sink : Sink} {session : Session}
    (hload : Session.load source feed sink = .ok session)
    (hforward : (Program.ofSource source).LeadsForward) :
    ∃ count < 2 ^ (Program.ofSource source).length, session.Goes count ∧
      ((∃ after, step (stepped^[count] session) = .ok .finished after) ∨
        ∃ fault after, step (stepped^[count] session) = .error fault after) ∧
      ∃ report, run (count + 1) source feed sink = some report := by
  have hcourse := onCourse_of_load hload 0
  rw [Function.iterate_zero_apply] at hcourse
  obtain ⟨machine, hmachine, hsession⟩ := Session.load_eq_ok_iff.mp hload
  obtain ⟨⟨stop, hending⟩, hinitial⟩ := Machine.ofProgram_eq_ok_iff.mp hmachine
  obtain ⟨count, hcount, hgoes, hends⟩ := exists_goes_of_leadsForward hforward hending hcourse
  refine ⟨count, ?_, hgoes, ?_, ?_⟩
  · have hweight : session.machine.weight (Program.ofSource source) =
        2 ^ (Program.ofSource source).length - 1 := by
      rw [hsession, hinitial]
      rfl
    have hpos := Nat.two_pow_pos (Program.ofSource source).length
    omega
  · cases hstep : step (stepped^[count] session) with
    | error fault after => exact .inr ⟨fault, after, rfl⟩
    | ok outcome after =>
        cases outcome with
        | running => exact absurd hstep (hends after)
        | finished => exact .inl ⟨after, rfl⟩
  · obtain ⟨result, after, hended⟩ := exists_advance_eq_ended hends
    refine ⟨⟨result, some after.machine, after.feed, after.sink⟩, ?_⟩
    rw [run, hload]
    dsimp only
    rw [advance_add hgoes, hended]

/-- A program that calls a subroutine twice and then stops leads forward, and its run ends. -/
theorem forward_run_ends_twice :
    let source := "\n便利感極まってきました\n\n便利感極まってきました\n\n\n\n\n便利便利\n\n感極まってきました\n"
    (Program.ofSource source).LeadsForward ∧ ∃ count report, run count source ⟨[], none⟩ {} = some report := by
  intro source
  have hending : (Program.ofSource source).walk.ending = .ok 18 := by
    decide +kernel
  have hforward : (Program.ofSource source).LeadsForward := by
    unfold Program.LeadsForward
    decide +kernel
  obtain ⟨count, _, _, _, report, hrun⟩ :=
    forward_run_ends (Session.load_of_ending hending ⟨[], none⟩ {}) hforward
  exact ⟨hforward, count + 1, report, hrun⟩

end Session

end MarkMachine
