import MarkMachine.Execution
import MarkMachine.Proofs.Grammar

/-! What a step can do. The instructions that say where a machine goes on are the call, the jump, the two
branches, the return and the stop; for each of them there is an equation. All others are local: they
leave alone everything that says where the machine is and goes, however they end. An instruction that
fails leaves the machine where it is, and one that succeeds leads it into a subroutine, out of one or on.
A step that begins an instruction carries it out on a session whose cursor already stands behind it. -/

namespace MarkMachine

namespace Action

variable {α β : Type}

/-- The session that is left, whether or not an action failed. -/
def left : EStateM.Result Fault Session α → Session
  | .ok _ session => session
  | .error _ session => session

theorem bind_apply (action : Action α) (next : α → Action β) (session : Session) :
    (action >>= next) session =
      match action session with
      | .ok value session => next value session
      | .error fault session => .error fault session := by
  cases hresult : action session <;> simp only [bind, EStateM.bind, hresult]

/-- Whatever comes of an action, the sessions before and after are related, and a fault is one of those
expected. -/
def Ensures (related : Session → Session → Prop) (expected : Fault → Prop) (action : Action α) : Prop :=
  ∀ session, match action session with
    | .ok _ after => related session after
    | .error fault after => related session after ∧ expected fault

namespace Ensures

variable {related : Session → Session → Prop} {expected : Fault → Prop}

theorem bind (htrans : ∀ first second third, related first second → related second third →
      related first third) {action : Action α} {next : α → Action β}
    (haction : Ensures related expected action) (hnext : ∀ value, Ensures related expected (next value)) :
    Ensures related expected (action >>= next) := by
  intro session
  have hfirst := haction session
  rw [bind_apply]
  cases hresult : action session with
  | error fault after =>
      rw [hresult] at hfirst
      exact hfirst
  | ok value middle =>
      rw [hresult] at hfirst
      have hsecond := hnext value middle
      dsimp only
      cases hlast : next value middle with
      | ok result after =>
          rw [hlast] at hsecond
          exact htrans _ _ _ hfirst hsecond
      | error fault after =>
          rw [hlast] at hsecond
          exact ⟨htrans _ _ _ hfirst hsecond.1, hsecond.2⟩

theorem left {action : Action α} (h : Ensures related expected action) (session : Session) :
    related session (left (action session)) := by
  have hsession := h session
  cases hresult : action session with
  | ok value after =>
      rw [hresult] at hsession
      exact hsession
  | error fault after =>
      rw [hresult] at hsession
      exact hsession.1

theorem fault {action : Action α} (h : Ensures related expected action) {session after : Session}
    {fault : Fault} (hresult : action session = .error fault after) : expected fault := by
  have hsession := h session
  rw [hresult] at hsession
  exact hsession.2

end Ensures

end Action

/-- Two machines that stand at the same place of the same program, with the same way to go on. -/
structure Machine.SameCourse (first second : Machine) : Prop where
  program : second.program = first.program
  labels : second.labels = first.labels
  pc : second.pc = first.pc
  lastPc : second.lastPc = first.lastPc
  calls : second.calls = first.calls
  halted : second.halted = first.halted
  steps : second.steps = first.steps

/-- Two sessions whose machines stand at the same place. -/
def Session.SameCourse (first second : Session) : Prop :=
  first.machine.SameCourse second.machine

theorem Session.SameCourse.refl (session : Session) : session.SameCourse session :=
  ⟨rfl, rfl, rfl, rfl, rfl, rfl, rfl⟩

theorem Session.SameCourse.trans {first second third : Session} (h : first.SameCourse second)
    (h' : second.SameCourse third) : first.SameCourse third :=
  ⟨h'.program.trans h.program, h'.labels.trans h.labels, h'.pc.trans h.pc, h'.lastPc.trans h.lastPc,
    h'.calls.trans h.calls, h'.halted.trans h.halted, h'.steps.trans h.steps⟩

/-- The faults of carrying out an instruction, as opposed to those of reading it. -/
def Fault.OfExecution : Fault → Prop
  | .malformed _ => False
  | .numberOverflow _ => False
  | _ => True

/-- The faults of working with values, input and output, as opposed to those of finding the way. -/
def Fault.OfWork : Fault → Prop
  | .stackUnderflow _ _ => True
  | .divisionByZero _ _ => True
  | .device _ => True
  | _ => False

theorem Fault.OfWork.ofExecution {fault : Fault} (h : fault.OfWork) : fault.OfExecution := by
  cases fault with
  | malformed position => exact h
  | numberOverflow position => exact h
  | _ => trivial

namespace Action

variable {α β : Type}

/-- An action that leaves the place of the machine alone and fails only at work. -/
abbrev Local (action : Action α) : Prop :=
  Ensures Session.SameCourse Fault.OfWork action

theorem Local.bind {action : Action α} {next : α → Action β} (haction : Local action)
    (hnext : ∀ value, Local (next value)) : Local (action >>= next) := by
  refine Ensures.bind ?_ haction hnext
  exact fun _ _ _ => Session.SameCourse.trans

theorem local_pure (value : α) : Local (pure value : Action α) :=
  fun session => Session.SameCourse.refl session

theorem local_throw {fault : Fault} (h : fault.OfWork) : Local (throw fault : Action α) :=
  fun session => ⟨Session.SameCourse.refl session, h⟩

theorem local_push (value : Value) : Local (push value) :=
  fun _ => ⟨rfl, rfl, rfl, rfl, rfl, rfl, rfl⟩

theorem local_store (address : Int64) (value : Value) : Local (store address value) :=
  fun _ => ⟨rfl, rfl, rfl, rfl, rfl, rfl, rfl⟩

theorem local_load (address : Int64) : Local (load address) :=
  fun session => Session.SameCourse.refl session

theorem local_pop (instruction : String) (position : Nat) : Local (pop instruction position) := by
  rintro ⟨machine, feed, sink⟩
  rw [pop]
  cases machine.stack with
  | nil => exact ⟨Session.SameCourse.refl _, trivial⟩
  | cons top below => exact ⟨rfl, rfl, rfl, rfl, rfl, rfl, rfl⟩

theorem local_peek (instruction : String) (position : Nat) : Local (peek instruction position) := by
  rintro ⟨machine, feed, sink⟩
  rw [peek, ask]
  dsimp only
  cases machine.stack with
  | nil => exact ⟨Session.SameCourse.refl _, trivial⟩
  | cons top below => exact Session.SameCourse.refl _

theorem local_ensure (count : Nat) (instruction : String) (position : Nat) :
    Local (ensure count instruction position) := by
  rintro ⟨machine, feed, sink⟩
  rw [ensure, ask]
  dsimp only [Stack.ensure]
  split_ifs
  · exact Session.SameCourse.refl _
  · exact ⟨Session.SameCourse.refl _, trivial⟩

theorem local_fromFeed (read : Feed.Reader α) : Local (fromFeed read) := by
  rintro ⟨machine, feed, sink⟩
  rw [fromFeed]
  cases read feed with
  | ok value feed => exact ⟨rfl, rfl, rfl, rfl, rfl, rfl, rfl⟩
  | error fault feed => exact ⟨⟨rfl, rfl, rfl, rfl, rfl, rfl, rfl⟩, trivial⟩

theorem local_toSink (write : Sink.Writer α) : Local (toSink write) := by
  rintro ⟨machine, feed, sink⟩
  rw [toSink]
  cases write sink with
  | ok value sink => exact ⟨rfl, rfl, rfl, rfl, rfl, rfl, rfl⟩
  | error fault sink => exact ⟨⟨rfl, rfl, rfl, rfl, rfl, rfl, rfl⟩, trivial⟩

end Action

namespace Instruction

/-- The label of a branch, and on which numbers it is taken. -/
def branch? : Instruction → Option (Label × (Int64 → Bool))
  | .jumpIfZero label => some (label, fun n => n = 0)
  | .jumpIfNegative label => some (label, fun n => n < 0)
  | _ => none

/-- The label that an instruction can lead to. -/
def transfer? : Instruction → Option Label
  | .call label => some label
  | .jump label => some label
  | .jumpIfZero label => some label
  | .jumpIfNegative label => some label
  | _ => none

theorem transfer?_of_branch? {instruction : Instruction} {label : Label} {taken : Int64 → Bool}
    (h : instruction.branch? = some (label, taken)) : instruction.transfer? = some label := by
  cases instruction <;> cases h <;> rfl

theorem transfer?_cases {instruction : Instruction} {label : Label}
    (h : instruction.transfer? = some label) :
    instruction = .jump label ∨ instruction = .call label ∨
      ∃ taken, instruction.branch? = some (label, taken) := by
  cases instruction <;> cases h <;> simp [branch?]

/-- Whether an instruction leaves alone where the machine is and goes. -/
def isLocal : Instruction → Bool
  | .call _ => false
  | .jump _ => false
  | .jumpIfZero _ => false
  | .jumpIfNegative _ => false
  | .ret => false
  | .stop => false
  | _ => true

def isCall : Instruction → Bool
  | .call _ => true
  | _ => false

/-- The kinds of instruction by what they do to the course of a machine. -/
theorem course_cases (instruction : Instruction) :
    instruction.isLocal = true ∨ (∃ label, instruction = .call label) ∨
      (∃ label, instruction = .jump label) ∨
      (∃ label taken, instruction.branch? = some (label, taken)) ∨ instruction = .ret ∨
      instruction = .stop := by
  cases instruction <;> simp [isLocal, branch?]

end Instruction

namespace Action

theorem local_perform {instruction : Instruction} (h : instruction.isLocal = true) (position : Nat) :
    Local (perform instruction position) := by
  cases instruction with
  | push value => exact local_push _
  | duplicate => exact (local_peek _ _).bind fun _ => local_push _
  | swap =>
      refine (local_ensure _ _ _).bind fun _ => (local_pop _ _).bind fun _ => ?_
      exact (local_pop _ _).bind fun _ => (local_push _).bind fun _ => local_push _
  | discard => exact (local_pop _ _).bind fun _ => local_pure _
  | arithmetic operator =>
      refine (local_ensure _ _ _).bind fun _ => (local_pop _ _).bind fun right => ?_
      refine (local_pop _ _).bind fun left => ?_
      cases operator.apply? left.toInteger right.toInteger with
      | some result => exact local_push _
      | none => exact local_throw trivial
  | store =>
      refine (local_ensure _ _ _).bind fun _ => (local_pop _ _).bind fun _ => ?_
      exact (local_pop _ _).bind fun _ => local_store _ _
  | load => exact (local_pop _ _).bind fun _ => (local_load _).bind fun _ => local_push _
  | define label => exact local_pure _
  | outputChar =>
      refine (local_pop _ _).bind fun value => ?_
      cases value.toChar? with
      | some c => exact local_toSink _
      | none => exact local_pure _
  | outputNumber => exact (local_pop _ _).bind fun _ => local_toSink _
  | inputChar =>
      refine (local_toSink _).bind fun _ => (local_fromFeed _).bind fun _ => ?_
      exact (local_pop _ _).bind fun _ => local_store _ _
  | inputNumber =>
      refine (local_toSink _).bind fun _ => (local_fromFeed _).bind fun _ => ?_
      exact (local_pop _ _).bind fun _ => local_store _ _
  | debugPrint => exact local_toSink _
  | _ => cases h

variable {machine : Machine} {feed : Feed} {sink : Sink}

theorem perform_call (label : Label) (position : Nat) :
    perform (.call label) position ⟨machine, feed, sink⟩ =
      match machine.labels[label]? with
      | some cursor =>
          .ok () ⟨{ machine with calls := machine.pc :: machine.calls, pc := cursor }, feed, sink⟩
      | none => .error (.unknownLabel label position) ⟨machine, feed, sink⟩ := by
  simp only [perform, call, bind_apply, target, ask, Machine.target]
  cases machine.labels[label]? <;> rfl

theorem perform_jump (label : Label) (position : Nat) :
    perform (.jump label) position ⟨machine, feed, sink⟩ =
      match machine.labels[label]? with
      | some cursor => .ok () ⟨{ machine with pc := cursor }, feed, sink⟩
      | none => .error (.unknownLabel label position) ⟨machine, feed, sink⟩ := by
  simp only [perform, jump, bind_apply, target, ask, Machine.target]
  cases machine.labels[label]? <;> rfl

theorem perform_call_of_label {session : Session} {label : Label} {cursor : Nat}
    (h : session.machine.labels[label]? = some cursor) (position : Nat) :
    perform (.call label) position session = .ok () { session with machine := { session.machine with
      calls := session.machine.pc :: session.machine.calls, pc := cursor } } := by
  obtain ⟨machine, feed, sink⟩ := session
  dsimp only at h
  rw [perform_call, h]

theorem perform_jump_of_label {session : Session} {label : Label} {cursor : Nat}
    (h : session.machine.labels[label]? = some cursor) (position : Nat) :
    perform (.jump label) position session =
      .ok () { session with machine := { session.machine with pc := cursor } } := by
  obtain ⟨machine, feed, sink⟩ := session
  dsimp only at h
  rw [perform_jump, h]

/-- A branch takes a value off the stack, and jumps if it is taken on that value. -/
theorem perform_branch {instruction : Instruction} {label : Label} {taken : Int64 → Bool}
    (h : instruction.branch? = some (label, taken)) (position : Nat) :
    perform instruction position ⟨machine, feed, sink⟩ =
      match machine.stack with
      | [] => .error (.stackUnderflow instruction.mnemonic position) ⟨machine, feed, sink⟩
      | value :: rest =>
          if taken value.toInteger then
            perform (.jump label) position ⟨{ machine with stack := rest }, feed, sink⟩
          else .ok () ⟨{ machine with stack := rest }, feed, sink⟩ := by
  cases instruction with
  | jumpIfZero target =>
      cases h
      simp only [perform, bind_apply, pop]
      cases machine.stack with
      | nil => rfl
      | cons value rest =>
          simp only [Stack.pop, decide_eq_true_eq]
          split_ifs <;> rfl
  | jumpIfNegative target =>
      cases h
      simp only [perform, bind_apply, pop]
      cases machine.stack with
      | nil => rfl
      | cons value rest =>
          simp only [Stack.pop, decide_eq_true_eq]
          split_ifs <;> rfl
  | _ => cases h

theorem perform_ret (position : Nat) :
    perform .ret position ⟨machine, feed, sink⟩ =
      match machine.calls with
      | [] => .error (.callStackUnderflow position) ⟨machine, feed, sink⟩
      | cursor :: calls => .ok () ⟨{ machine with calls, pc := cursor }, feed, sink⟩ := rfl

theorem perform_stop (position : Nat) :
    perform .stop position ⟨machine, feed, sink⟩ =
      .ok () ⟨{ machine with halted := true }, feed, sink⟩ := rfl

end Action

/-- Where an instruction can lead a machine whose cursor stands behind it: nowhere else, to where its label
leads, or back to the latest call. -/
structure Machine.Led (instruction : Instruction) (first second : Machine) : Prop where
  program : second.program = first.program
  labels : second.labels = first.labels
  lastPc : second.lastPc = first.lastPc
  steps : second.steps = first.steps
  pc : second.pc = first.pc ∨
    (∃ label, instruction.transfer? = some label ∧ first.labels[label]? = some second.pc) ∨
    instruction = .ret ∧ second.pc ∈ first.calls
  calls : ∀ cursor ∈ second.calls, cursor = first.pc ∨ cursor ∈ first.calls
  halted : first.halted = true → second.halted = true

namespace Machine.Led

variable {instruction : Instruction} {first second : Machine}

theorem of_sameCourse (h : first.SameCourse second) : Led instruction first second where
  program := h.program
  labels := h.labels
  lastPc := h.lastPc
  steps := h.steps
  pc := .inl h.pc
  calls := by
    rw [h.calls]
    exact fun _ hmem => .inr hmem
  halted := h.halted.trans

theorem of_jump {label : Label} {cursor : Nat} (htransfer : instruction.transfer? = some label)
    (hlabel : first.labels[label]? = some cursor) (stack : Stack) :
    Led instruction first { first with stack, pc := cursor } where
  program := rfl
  labels := rfl
  lastPc := rfl
  steps := rfl
  pc := .inr (.inl ⟨label, htransfer, hlabel⟩)
  calls := fun _ hmem => .inr hmem
  halted := id

end Machine.Led

namespace Action

/-- Carrying out an instruction leads the machine where the instruction can lead, also if it fails. -/
theorem perform_led (instruction : Instruction) (position : Nat) (session : Session) :
    Machine.Led instruction session.machine (left (perform instruction position session)).machine := by
  obtain ⟨machine, feed, sink⟩ := session
  have hsame : Machine.Led instruction machine machine :=
    .of_sameCourse (Session.SameCourse.refl ⟨machine, feed, sink⟩)
  rcases instruction.course_cases with
    hlocal | ⟨label, rfl⟩ | ⟨label, rfl⟩ | ⟨label, taken, hbranch⟩ | rfl | rfl
  · exact .of_sameCourse ((local_perform hlocal position).left _)
  · rw [perform_call]
    cases hlabel : machine.labels[label]? with
    | none => exact hsame
    | some cursor =>
        refine ⟨rfl, rfl, rfl, rfl, .inr (.inl ⟨label, rfl, hlabel⟩), ?_, id⟩
        exact fun _ hmem => List.mem_cons.mp hmem
  · rw [perform_jump]
    cases hlabel : machine.labels[label]? with
    | none => exact hsame
    | some cursor => exact .of_jump rfl hlabel machine.stack
  · rw [perform_branch hbranch]
    cases hstack : machine.stack with
    | nil => exact hsame
    | cons value rest =>
        dsimp only
        split_ifs
        · rw [perform_jump]
          dsimp only
          cases hlabel : machine.labels[label]? with
          | none => exact .of_sameCourse ⟨rfl, rfl, rfl, rfl, rfl, rfl, rfl⟩
          | some cursor => exact .of_jump (Instruction.transfer?_of_branch? hbranch) hlabel rest
        · exact .of_sameCourse ⟨rfl, rfl, rfl, rfl, rfl, rfl, rfl⟩
  · rw [perform_ret]
    cases hcalls : machine.calls with
    | nil => exact hsame
    | cons cursor calls =>
        refine ⟨rfl, rfl, rfl, rfl, .inr (.inr ⟨rfl, ?_⟩), fun _ hmem => .inr ?_, id⟩
        · rw [hcalls]
          exact List.mem_cons_self
        · rw [hcalls]
          exact List.mem_cons_of_mem cursor hmem
  · rw [perform_stop]
    exact ⟨rfl, rfl, rfl, rfl, .inl rfl, fun _ hmem => .inr hmem, fun _ => rfl⟩

end Action

/-- What makes an instruction that stands at `position` fail: its work, a label that leads nowhere, or a
return without an open call. -/
inductive Fault.DueTo (instruction : Instruction) (position : Nat) (machine : Machine) : Fault → Prop
  | work {fault : Fault} (hwork : fault.OfWork) : DueTo instruction position machine fault
  | label {label : Label} (htransfer : instruction.transfer? = some label)
      (hlabel : machine.labels[label]? = none) :
      DueTo instruction position machine (.unknownLabel label position)
  | ret (hret : instruction = .ret) (hcalls : machine.calls = []) :
      DueTo instruction position machine (.callStackUnderflow position)

namespace Action

/-- An instruction that fails leaves the machine where it is. -/
theorem perform_error {instruction : Instruction} {position : Nat} {session after : Session}
    {fault : Fault} (h : perform instruction position session = .error fault after) :
    session.SameCourse after ∧ fault.DueTo instruction position session.machine := by
  obtain ⟨machine, feed, sink⟩ := session
  rcases instruction.course_cases with
    hlocal | ⟨label, rfl⟩ | ⟨label, rfl⟩ | ⟨label, taken, hbranch⟩ | rfl | rfl
  · have hsame := (local_perform hlocal position).left ⟨machine, feed, sink⟩
    rw [h] at hsame
    exact ⟨hsame, .work ((local_perform hlocal position).fault h)⟩
  · rw [perform_call] at h
    split at h <;> cases h
    exact ⟨Session.SameCourse.refl _, .label rfl ‹_›⟩
  · rw [perform_jump] at h
    split at h <;> cases h
    exact ⟨Session.SameCourse.refl _, .label rfl ‹_›⟩
  · rw [perform_branch hbranch] at h
    split at h
    · cases h
      exact ⟨Session.SameCourse.refl _, .work trivial⟩
    · split_ifs at h
      rw [perform_jump] at h
      split at h <;> cases h
      exact ⟨⟨rfl, rfl, rfl, rfl, rfl, rfl, rfl⟩,
        .label (Instruction.transfer?_of_branch? hbranch) ‹_›⟩
  · rw [perform_ret] at h
    split at h <;> cases h
    exact ⟨Session.SameCourse.refl _, .ret rfl ‹_›⟩
  · cases h

theorem fault_of_perform {instruction : Instruction} {position : Nat} {session after : Session}
    {fault : Fault} (h : perform instruction position session = .error fault after) :
    fault.OfExecution := by
  cases (perform_error h).2 with
  | work hwork => exact hwork.ofExecution
  | label _ _ => trivial
  | ret _ _ => trivial

end Action

/-- The way of a machine whose cursor stands behind an instruction that has been carried out: into a
subroutine, out of one, or on, with the same calls open. -/
inductive Machine.Went (instruction : Instruction) (first second : Machine) : Prop
  | called (label : Label) (hinstruction : instruction = .call label)
      (hlabel : first.labels[label]? = some second.pc) (hcalls : second.calls = first.pc :: first.calls)
  | returned (hinstruction : instruction = .ret) (hcalls : first.calls = second.pc :: second.calls)
  | moved (hcall : instruction.isCall = false) (hret : instruction ≠ .ret)
      (hpc : second.pc = first.pc ∨
        ∃ label, instruction.transfer? = some label ∧ first.labels[label]? = some second.pc)
      (hcalls : second.calls = first.calls)

namespace Action

theorem perform_went {instruction : Instruction} {position : Nat} {session after : Session}
    (h : perform instruction position session = .ok () after) :
    Machine.Went instruction session.machine after.machine := by
  obtain ⟨machine, feed, sink⟩ := session
  rcases instruction.course_cases with
    hlocal | ⟨label, rfl⟩ | ⟨label, rfl⟩ | ⟨label, taken, hbranch⟩ | rfl | rfl
  · have hsame := (local_perform hlocal position).left ⟨machine, feed, sink⟩
    rw [h] at hsame
    refine .moved ?_ ?_ (.inl hsame.pc) hsame.calls
    · cases instruction with
      | call label => cases hlocal
      | _ => rfl
    · rintro rfl
      cases hlocal
  · rw [perform_call] at h
    split at h <;> cases h
    exact .called label rfl ‹_› rfl
  · rw [perform_jump] at h
    split at h <;> cases h
    exact .moved rfl (nomatch ·) (.inr ⟨label, rfl, ‹_›⟩) rfl
  · have htransfer := Instruction.transfer?_of_branch? hbranch
    have hcall : instruction.isCall = false := by
      cases instruction with
      | call label => cases hbranch
      | _ => rfl
    have hret : instruction ≠ .ret := by
      rintro rfl
      cases hbranch
    rw [perform_branch hbranch] at h
    split at h
    · cases h
    · split_ifs at h
      · rw [perform_jump] at h
        split at h <;> cases h
        exact .moved hcall hret (.inr ⟨label, htransfer, ‹_›⟩) rfl
      · cases h
        exact .moved hcall hret (.inl rfl) rfl
  · rw [perform_ret] at h
    split at h <;> cases h
    exact .returned rfl ‹_›
  · cases h
    exact .moved rfl (nomatch ·) (.inl rfl) rfl

/-- Only a return finds no open call, and only if there is none. -/
theorem perform_callStackUnderflow_iff (instruction : Instruction) (position : Nat) (session : Session) :
    (∃ place after, perform instruction position session = .error (.callStackUnderflow place) after) ↔
      instruction = .ret ∧ session.machine.calls = [] := by
  constructor
  · rintro ⟨place, after, h⟩
    cases (perform_error h).2 with
    | work hwork => exact hwork.elim
    | ret hret hcalls => exact ⟨hret, hcalls⟩
  · rintro ⟨rfl, hcalls⟩
    obtain ⟨machine, feed, sink⟩ := session
    dsimp only at hcalls
    refine ⟨position, ⟨machine, feed, sink⟩, ?_⟩
    rw [perform_ret, hcalls]

end Action

theorem Instruction.execute_eq (instruction : Instruction) (position : Nat) (session : Session) :
    instruction.execute position session =
      match Action.perform instruction position session with
      | .ok _ after => .ok (if instruction = .stop then .finished else .running) after
      | .error fault after => .error fault after := by
  rw [Instruction.execute, Action.bind_apply]
  cases Action.perform instruction position session <;> rfl

theorem Instruction.execute_running {instruction : Instruction} {position : Nat}
    {session after : Session} (h : Action.perform instruction position session = .ok () after)
    (hstop : instruction ≠ .stop) :
    instruction.execute position session = .ok .running after := by
  rw [Instruction.execute_eq, h]
  dsimp only
  rw [if_neg hstop]

theorem Instruction.execute_eq_error_iff {instruction : Instruction} {position : Nat}
    {session after : Session} {fault : Fault} :
    instruction.execute position session = .error fault after ↔
      Action.perform instruction position session = .error fault after := by
  rw [Instruction.execute_eq]
  cases Action.perform instruction position session <;> simp

theorem Instruction.left_execute (instruction : Instruction) (position : Nat) (session : Session) :
    Action.left (instruction.execute position session) =
      Action.left (Action.perform instruction position session) := by
  rw [Instruction.execute_eq]
  cases Action.perform instruction position session <;> rfl

theorem Instruction.fault_of_execute {instruction : Instruction} {position : Nat}
    {session after : Session} {fault : Fault}
    (h : instruction.execute position session = .error fault after) : fault.OfExecution :=
  Action.fault_of_perform (Instruction.execute_eq_error_iff.mp h)

theorem Machine.halted_of_isDone {machine : Machine} (h : machine.isDone = false) :
    machine.halted = false := by
  rw [Machine.isDone, Bool.or_eq_false_iff] at h
  exact h.1

/-- The next step would begin where the last one began. -/
def Machine.Stalled (machine : Machine) : Prop :=
  machine.isDone = false ∧ machine.lastPc = some machine.pc

instance (machine : Machine) : Decidable machine.Stalled :=
  inferInstanceAs (Decidable (_ ∧ _))

namespace Session

def stepped (session : Session) : Session :=
  Action.left (step session)

/-- The session on which a step carries out the instruction of a span. -/
def start (session : Session) (span : Span) : Session :=
  { session with
    machine := { session.machine with
      pc := span.next, lastPc := some span.position, steps := session.machine.steps + 1 } }

@[simp] theorem start_pc (session : Session) (span : Span) :
    (session.start span).machine.pc = span.next := rfl

@[simp] theorem start_calls (session : Session) (span : Span) :
    (session.start span).machine.calls = session.machine.calls := rfl

variable {session : Session}

theorem step_of_isDone (h : session.machine.isDone = true) : step session = .ok .finished session := by
  rw [step, if_pos h]

theorem step_of_stalled (h : session.machine.Stalled) :
    step session = .error (.malformed session.machine.pc) session := by
  rw [step, if_neg (by rw [h.1]; decide), if_pos h.2]

/-- A step carries out the instruction that stands at the cursor. -/
theorem step_of_decode {instruction : Instruction} {width : Nat} (hdone : session.machine.isDone = false)
    (hlast : session.machine.lastPc ≠ some session.machine.pc)
    (hdecode : Instruction.decode session.machine.ahead = .found instruction width) :
    step session = instruction.execute session.machine.pc
      (session.start ⟨session.machine.pc, instruction, session.machine.pc + width⟩) := by
  rw [step, if_neg (by rw [hdone]; decide), if_neg hlast]
  simp only [hdecode]
  rfl

/-- Before padding a step stops the machine. -/
theorem step_of_padding (hdone : session.machine.isDone = false)
    (hlast : session.machine.lastPc ≠ some session.machine.pc) (hahead : session.machine.ahead = [.line]) :
    step session = .ok .finished { session with
      machine := { session.machine with lastPc := some session.machine.pc, halted := true } } := by
  have hdecode : Instruction.decode session.machine.ahead = .missing := by
    rw [hahead]
    exact Instruction.decode_line
  rw [step, if_neg (by rw [hdone]; decide), if_neg hlast]
  simp only [hdecode]
  rw [if_pos hahead]

end Session

end MarkMachine
