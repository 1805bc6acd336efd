import Mathlib.Data.Nat.Find
import MarkMachine.Proofs.History

/-! Calls and returns over whole runs. A step changes the open calls only by completing a call, which opens
one, or a return, which closes the latest. So there are as many open calls as there have been more calls
than returns, and a return goes back behind the call that it answers with just those calls open that were
open before it, whatever happened in between. -/

namespace MarkMachine

namespace Session

/-- What a step can do to the open calls. -/
inductive CallCase (program : Program) (session : Session) : Prop
  | called (span : Span) (hspan : span ∈ program.walk.spans) (hpc : span.position = session.machine.pc)
      (label : Label) (hinstruction : span.instruction = .call label)
      (hcompleted : session.completed? = some (.call label))
      (hcalls : session.stepped.machine.calls = span.next :: session.machine.calls)
  | returned (hcompleted : session.completed? = some .ret)
      (hcalls : session.machine.calls = session.stepped.machine.pc :: session.stepped.machine.calls)
  | kept (hcompleted : ∀ instruction, session.completed? = some instruction →
        instruction.isCall = false ∧ instruction ≠ .ret)
      (hcalls : session.stepped.machine.calls = session.machine.calls)

section Step

variable {program : Program} {session : Session} (h : session.machine.OnCourse program)
include h

theorem callCase : CallCase program session := by
  cases deed h with
  | idle lastPc halted hstepped _ _ hcompleted =>
      refine .kept ?_ ?_
      · rw [hcompleted]
        exact nofun
      · rw [hstepped]
  | failed span _ _ fault hperform _ _ hcompleted =>
      refine .kept ?_ (Action.perform_error hperform).1.calls
      rw [hcompleted]
      exact nofun
  | completed span hspan hpc hperform _ _ hcompleted =>
      cases Action.perform_went hperform with
      | called label hinstruction _ hcalls =>
          rw [hinstruction] at hcompleted
          exact .called span hspan hpc label hinstruction hcompleted hcalls
      | returned hinstruction hcalls =>
          rw [hinstruction] at hcompleted
          exact .returned hcompleted hcalls
      | moved hcall hret _ hcalls =>
          refine .kept ?_ hcalls
          rw [hcompleted]
          rintro _ ⟨⟩
          exact ⟨hcall, hret⟩

theorem exists_span_of_call {label : Label} (hcall : session.completed? = some (.call label)) :
    ∃ span ∈ program.walk.spans, span.position = session.machine.pc ∧ span.instruction = .call label ∧
      session.stepped.machine.calls = span.next :: session.machine.calls := by
  cases callCase h with
  | called span hspan hpc other hinstruction hcompleted hcalls =>
      rw [hcompleted] at hcall
      cases hcall
      exact ⟨span, hspan, hpc, hinstruction, hcalls⟩
  | returned hcompleted _ =>
      rw [hcompleted] at hcall
      cases hcall
  | kept hcompleted _ => cases (hcompleted _ hcall).1

theorem calls_of_ret (hret : session.completed? = some .ret) :
    session.machine.calls = session.stepped.machine.pc :: session.stepped.machine.calls := by
  cases callCase h with
  | called _ _ _ _ _ hcompleted _ =>
      rw [hcompleted] at hret
      cases hret
  | returned _ hcalls => exact hcalls
  | kept hcompleted _ => exact absurd rfl (hcompleted _ hret).2

/-- A step misses an open call just if it begins a return when there is none. -/
theorem callStackUnderflow_iff :
    (∃ position after, step session = .error (.callStackUnderflow position) after) ↔
      session.machine.due? = some .ret ∧ session.machine.calls = [] := by
  constructor
  · rintro ⟨position, after, hstep⟩
    obtain ⟨instruction, hdue⟩ := exists_due_of_error h hstep trivial
    obtain ⟨span, _, _, _, hexecute⟩ := step_of_due h hdue
    rw [hexecute, Instruction.execute_eq_error_iff] at hstep
    obtain ⟨rfl, hcalls⟩ := (Action.perform_callStackUnderflow_iff _ _ _).mp ⟨position, after, hstep⟩
    exact ⟨hdue, hcalls⟩
  · rintro ⟨hdue, hcalls⟩
    obtain ⟨span, _, _, _, hexecute⟩ := step_of_due h hdue
    obtain ⟨position, after, hperform⟩ :=
      (Action.perform_callStackUnderflow_iff .ret session.machine.pc (session.start span)).mpr ⟨rfl, hcalls⟩
    refine ⟨position, after, ?_⟩
    rw [hexecute, Instruction.execute_eq_error_iff, hperform]

/-- Calls that are open stay open as long as the height of the calls does not fall below theirs. -/
theorem suffix_calls_stepped {base : List Nat} (hbase : base <:+ session.machine.calls)
    (hlength : base.length ≤ session.stepped.machine.calls.length) :
    base <:+ session.stepped.machine.calls := by
  cases callCase h with
  | called span _ _ label _ _ hcalls =>
      rw [hcalls]
      exact hbase.trans (List.suffix_cons _ _)
  | returned _ hcalls =>
      rw [hcalls, List.suffix_cons_iff] at hbase
      refine hbase.resolve_left fun hwhole => ?_
      rw [hwhole, List.length_cons] at hlength
      omega
  | kept _ hcalls => rwa [hcalls]

end Step

/-- How many calls are open after so many steps. -/
def height (session : Session) (count : Nat) : Nat :=
  (stepped^[count] session).machine.calls.length

/-- The call that step `first` completes is answered by the return that step `last` completes: between them
more calls are open than before the call, and after the return no more than before it. -/
structure Answered (session : Session) (label : Label) (first last : Nat) : Prop where
  call : (stepped^[first] session).completed? = some (.call label)
  ret : (stepped^[last] session).completed? = some .ret
  lt : first < last
  above : ∀ index, first < index → index ≤ last → session.height first < session.height index
  back : session.height (last + 1) = session.height first

section Run

variable {program : Program} {session : Session}
  (h : ∀ count, (stepped^[count] session).machine.OnCourse program)
include h

/-- The open calls are the completed ones without those that returns have answered. -/
theorem height_add_returns (hinitial : session.machine.calls = []) (count : Nat) :
    session.height count + (session.completed count).count .ret =
      (session.completed count).countP Instruction.isCall := by
  induction count with
  | zero =>
      rw [height, Function.iterate_zero_apply, hinitial]
      rfl
  | succ count ih =>
      rw [completed_succ, List.count_append, List.countP_append]
      rw [height] at ih ⊢
      rw [Function.iterate_succ_apply']
      cases callCase (h count) with
      | called span _ _ label _ hcompleted hcalls =>
          rw [hcompleted, hcalls]
          simp [Instruction.isCall]
          omega
      | returned hcompleted hcalls =>
          rw [hcalls] at ih
          rw [hcompleted]
          simp [Instruction.isCall] at ih ⊢
          omega
      | kept hcompleted hcalls =>
          rw [hcalls]
          cases hinstruction : (stepped^[count] session).completed? with
          | none => simpa using ih
          | some instruction =>
              obtain ⟨hcall, hret⟩ := hcompleted instruction hinstruction
              simp [hcall, hret, ih]

/-- Until a call is answered, the cursor behind it and the calls open before it stay at the bottom of the
open calls. -/
theorem suffix_calls_of_above {first last : Nat} {base : List Nat}
    (hbase : base <:+ (stepped^[first + 1] session).machine.calls)
    (habove : ∀ index, first < index → index ≤ last → base.length ≤ session.height index)
    (hlt : first < last) : base <:+ (stepped^[last] session).machine.calls := by
  induction last, hlt using Nat.le_induction with
  | base => exact hbase
  | succ last hle ih =>
      have hlast := ih fun index hfirst hlast => habove index hfirst (by omega)
      have hheight := habove (last + 1) (by omega) le_rfl
      rw [height, Function.iterate_succ_apply'] at hheight
      rw [Function.iterate_succ_apply']
      exact suffix_calls_stepped (h last) hlast hheight

/-- A return goes back behind the call that it answers, with the same calls open as before that call. -/
theorem Answered.returns {label : Label} {first last : Nat} (hanswered : session.Answered label first last) :
    ∃ span ∈ program.walk.spans, span.position = (stepped^[first] session).machine.pc ∧
      span.instruction = .call label ∧
      (stepped^[last + 1] session).machine.pc = span.next ∧
      (stepped^[last + 1] session).machine.calls = (stepped^[first] session).machine.calls := by
  obtain ⟨hcall, hret, hlt, habove, hback⟩ := hanswered
  obtain ⟨span, hspan, hpc, hinstruction, hopened⟩ := exists_span_of_call (h first) hcall
  have hclosed := calls_of_ret (h last) hret
  refine ⟨span, hspan, hpc, hinstruction, ?_⟩
  have hbase : (span.next :: (stepped^[first] session).machine.calls) <:+
      (stepped^[last] session).machine.calls := by
    refine suffix_calls_of_above h ⟨[], ?_⟩ habove hlt
    rw [Function.iterate_succ_apply', hopened, List.nil_append]
  -- What is left open has the height that was open before the call, so the suffix is all there is.
  rw [height, height, Function.iterate_succ_apply'] at hback
  have hwhole := hbase.eq_of_length (by rw [hclosed, List.length_cons, List.length_cons, hback])
  rw [hclosed, List.cons.injEq] at hwhole
  rw [Function.iterate_succ_apply']
  exact ⟨hwhole.1.symm, hwhole.2.symm⟩

/-- Every return that is completed answers a call: the one completed by the last step before it from which
on more calls have been open than after the return. -/
theorem exists_answered (hinitial : session.machine.calls = []) {last : Nat}
    (hret : (stepped^[last] session).completed? = some .ret) :
    ∃ label first, session.Answered label first last := by
  have hdown : session.height last = session.height (last + 1) + 1 := by
    rw [height, height, Function.iterate_succ_apply', calls_of_ret (h last) hret, List.length_cons]
  have hzero : session.height 0 = 0 := by
    rw [height, Function.iterate_zero_apply, hinitial, List.length_nil]
  generalize hfirst : Nat.findGreatest (fun index => session.height index ≤ session.height (last + 1)) last =
    first
  obtain ⟨hle, hspec, hgreatest⟩ := Nat.findGreatest_eq_iff.mp hfirst
  have hlow : session.height first ≤ session.height (last + 1) := by
    by_cases hstart : first = 0
    · rw [hstart, hzero]
      exact Nat.zero_le _
    · exact hspec hstart
  have habove : ∀ index, first < index → index ≤ last →
      session.height (last + 1) < session.height index := by
    intro index hindex hlast
    exact Nat.lt_of_not_le (hgreatest hindex hlast)
  have hlt : first < last := by
    refine Nat.lt_of_le_of_ne hle ?_
    rintro rfl
    omega
  have hup := habove (first + 1) (Nat.lt_succ_self first) hlt
  -- The height rises at that step, so the step completes a call, and by one only.
  cases callCase (h first) with
  | called _ _ _ label _ hcompleted hcalls =>
      have hnext : session.height (first + 1) = session.height first + 1 := by
        rw [height, height, Function.iterate_succ_apply', hcalls, List.length_cons]
      have hsame : session.height (last + 1) = session.height first := by omega
      refine ⟨label, first, hcompleted, hret, hlt, ?_, hsame⟩
      rwa [← hsame]
  | returned _ hcalls =>
      have hnext : session.height first = session.height (first + 1) + 1 := by
        rw [height, height, Function.iterate_succ_apply', hcalls, List.length_cons]
      omega
  | kept _ hcalls =>
      have hnext : session.height (first + 1) = session.height first := by
        rw [height, height, Function.iterate_succ_apply', hcalls]
      omega

end Run

/-- **Returns answer calls.** After any steps from a loaded source, failed ones included, there are as many
open calls as calls have been completed more than returns. A step fails for want of an open call just if it
begins a return when both are equally many. A return goes back behind the call that it answers, with the
same calls open as before that call, and every return that is completed answers a call. -/
theorem returns_answer_calls {source : String} {feed : Feed} {sink : Sink} {session : Session}
    (hload : Session.load source feed sink = .ok session) :
    (∀ count, (stepped^[count] session).machine.calls.length + (session.completed count).count .ret =
      (session.completed count).countP Instruction.isCall) ∧
    (∀ count,
      (∃ position after, step (stepped^[count] session) = .error (.callStackUnderflow position) after) ↔
      (stepped^[count] session).machine.due? = some .ret ∧
        (session.completed count).countP Instruction.isCall = (session.completed count).count .ret) ∧
    (∀ label first last, session.Answered label first last →
      ∃ span ∈ (Program.ofSource source).walk.spans, span.position = (stepped^[first] session).machine.pc ∧
        span.instruction = .call label ∧
        (stepped^[last + 1] session).machine.pc = span.next ∧
        (stepped^[last + 1] session).machine.calls = (stepped^[first] session).machine.calls) ∧
    ∀ last, (stepped^[last] session).completed? = some .ret →
      ∃ label first, session.Answered label first last := by
  have hcourse := onCourse_of_load hload
  have hinitial : session.machine.calls = [] := by
    obtain ⟨machine, hmachine, rfl⟩ := Session.load_eq_ok_iff.mp hload
    obtain ⟨_, rfl⟩ := Machine.ofProgram_eq_ok_iff.mp hmachine
    rfl
  have hheight := height_add_returns hcourse hinitial
  refine ⟨hheight, fun count => ?_, fun label first last => Answered.returns hcourse,
    fun last => exists_answered hcourse hinitial⟩
  rw [callStackUnderflow_iff (hcourse count), ← hheight count, height, Nat.add_eq_right,
    List.length_eq_zero_iff]

/-- A program that calls a subroutine and then stops. The subroutine only returns, in the second step, which
leads behind the call. -/
theorem returns_answer_calls_once :
    ∃ session, Session.load "\n便利感極まってきました\n\n\n\n\n便利便利\n\n感極まってきました\n" ⟨[], none⟩ {} = .ok session ∧
      session.Answered [] 0 1 ∧ (stepped^[2] session).machine.pc = 4 := by
  have hending : (Program.ofSource
      "\n便利感極まってきました\n\n\n\n\n便利便利\n\n感極まってきました\n").walk.ending = .ok 14 := by
    decide +kernel
  have hload := Session.load_of_ending hending ⟨[], none⟩ {}
  refine ⟨_, hload, ?_⟩
  generalize hsession : Session.mk _ _ _ = session at hload ⊢
  have hanswered : session.Answered [] 0 1 := by
    refine ⟨?_, ?_, Nat.zero_lt_one, ?_, ?_⟩
    · subst hsession
      decide +kernel
    · subst hsession
      decide +kernel
    · intro index hpos hle
      obtain rfl : index = 1 := by omega
      subst hsession
      decide +kernel
    · subst hsession
      decide +kernel
  refine ⟨hanswered, ?_⟩
  obtain ⟨span, hspan, hposition, _, hpc, _⟩ := (returns_answer_calls hload).2.2.1 _ _ _ hanswered
  have hspans : (Program.ofSource
      "\n便利感極まってきました\n\n\n\n\n便利便利\n\n感極まってきました\n").walk.spans =
      [⟨0, .call [], 4⟩, ⟨4, .stop, 7⟩, ⟨7, .define [], 11⟩, ⟨11, .ret, 14⟩] := by
    decide +kernel
  have hstart : (stepped^[0] session).machine.pc = 0 := by
    subst hsession
    rfl
  rw [hpc]
  rw [hstart] at hposition
  rw [hspans] at hspan
  simp only [List.mem_cons, List.not_mem_nil, or_false] at hspan
  rcases hspan with rfl | rfl | rfl | rfl
  · rfl
  · cases hposition
  · cases hposition
  · cases hposition

end Session

end MarkMachine
