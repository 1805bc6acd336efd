import Mathlib.Data.List.Forall2
import MarkMachine.Proofs.Step

/-! Two sessions side by side. Their machines may run different programs and stand at different cursors, as
long as places of one program are matched with places of the other. If the work in hand is the same and
labels lead to matching places, then carrying out the same instruction, up to the names of labels, keeps
everything matched: both succeed, or both fail for the same reason. -/

namespace MarkMachine

namespace Instruction

/-- The instruction with another name for its label. -/
def rename (names : Label → Label) : Instruction → Instruction
  | .define label => .define (names label)
  | .call label => .call (names label)
  | .jump label => .jump (names label)
  | .jumpIfZero label => .jumpIfZero (names label)
  | .jumpIfNegative label => .jumpIfNegative (names label)
  | instruction => instruction

variable {names : Label → Label} {instruction : Instruction}

theorem rename_id : instruction.rename id = instruction := by
  cases instruction <;> rfl

theorem mnemonic_rename : (instruction.rename names).mnemonic = instruction.mnemonic := by
  cases instruction <;> rfl

theorem rename_eq_stop_iff : instruction.rename names = .stop ↔ instruction = .stop := by
  cases instruction <;> simp [rename]

theorem rename_eq_define_iff {label : Label} :
    instruction.rename names = .define label ↔ ∃ other, instruction = .define other ∧ names other = label := by
  cases instruction <;> simp [rename]

theorem branch?_rename {label : Label} {taken : Int64 → Bool}
    (h : instruction.branch? = some (label, taken)) :
    (instruction.rename names).branch? = some (names label, taken) := by
  cases instruction <;> cases h <;> rfl

theorem label?_of_branch? {label : Label} {taken : Int64 → Bool}
    (h : instruction.branch? = some (label, taken)) : instruction.label? = some label := by
  cases instruction <;> cases h <;> rfl

end Instruction

/-- The same fault at matching places and about labels of the same meaning. -/
inductive Fault.Matches (places : Nat → Nat → Prop) (names : Label → Label) : Fault → Fault → Prop
  | malformed {first second : Nat} : places first second →
      Matches places names (.malformed first) (.malformed second)
  | stackUnderflow {first second : Nat} (instruction : String) : places first second →
      Matches places names (.stackUnderflow instruction first) (.stackUnderflow instruction second)
  | callStackUnderflow {first second : Nat} : places first second →
      Matches places names (.callStackUnderflow first) (.callStackUnderflow second)
  | unknownLabel {first second : Nat} (label : Label) : places first second →
      Matches places names (.unknownLabel label first) (.unknownLabel (names label) second)
  | divisionByZero {first second : Nat} (instruction : String) : places first second →
      Matches places names (.divisionByZero instruction first) (.divisionByZero instruction second)
  | numberOverflow {first second : Nat} : places first second →
      Matches places names (.numberOverflow first) (.numberOverflow second)
  | device (fault : DeviceFault) : Matches places names (.device fault) (.device fault)

/-- Sessions with the same values, input and output whose machines are to go on at matching places. -/
structure Session.Matches (places : Nat → Nat → Prop) (first second : Session) : Prop where
  stack : second.machine.stack = first.machine.stack
  heap : second.machine.heap = first.machine.heap
  feed : second.feed = first.feed
  sink : second.sink = first.sink
  pc : places first.machine.pc second.machine.pc
  calls : List.Forall₂ places first.machine.calls second.machine.calls

/-- Matching sessions whose machines have both halted, or both not. -/
structure Session.Paired (places : Nat → Nat → Prop) (first second : Session) : Prop
    extends Session.Matches places first second where
  halted : second.machine.halted = first.machine.halted

namespace Action

variable {α β : Type}

/-- Two results with the same value, or with faults that match, that leave related sessions. -/
inductive Alike (related : Session → Session → Prop) (matched : Fault → Fault → Prop) :
    EStateM.Result Fault Session α → EStateM.Result Fault Session α → Prop
  | ok {first second : Session} (value : α) : related first second →
      Alike related matched (.ok value first) (.ok value second)
  | error {first second : Session} {fault fault' : Fault} : matched fault fault' → related first second →
      Alike related matched (.error fault first) (.error fault' second)

/-- Two actions that come to alike results on related sessions. -/
def Agree (related : Session → Session → Prop) (matched : Fault → Fault → Prop)
    (first second : Action α) : Prop :=
  ∀ session session', related session session' → Alike related matched (first session) (second session')

/-- Alike results stay alike when more is known of the sessions they leave. -/
theorem Alike.of_left {related related' : Session → Session → Prop} {matched : Fault → Fault → Prop}
    {first second : EStateM.Result Fault Session α} (h : Alike related matched first second)
    (hleft : related (left first) (left second) → related' (left first) (left second)) :
    Alike related' matched first second := by
  cases h with
  | ok value hrelated => exact .ok value (hleft hrelated)
  | error hfault hrelated => exact .error hfault (hleft hrelated)

theorem Alike.left {related : Session → Session → Prop} {matched : Fault → Fault → Prop}
    {first second : EStateM.Result Fault Session α} (h : Alike related matched first second) :
    related (left first) (left second) := by
  cases h with
  | ok value hrelated => exact hrelated
  | error hfault hrelated => exact hrelated

theorem Agree.bind {related : Session → Session → Prop} {matched : Fault → Fault → Prop}
    {first second : Action α} {next next' : α → Action β} (h : Agree related matched first second)
    (hnext : ∀ value, Agree related matched (next value) (next' value)) :
    Agree related matched (first >>= next) (second >>= next') := by
  intro session session' hrelated
  have halike := h session session' hrelated
  rw [bind_apply, bind_apply]
  generalize first session = result at halike ⊢
  generalize second session' = result' at halike ⊢
  cases halike with
  | ok value hafter => exact hnext value _ _ hafter
  | error hfault hafter => exact .error hfault hafter

section Matched

variable {places sites : Nat → Nat → Prop} (names : Label → Label)

theorem agree_pure (value : α) :
    Agree (Session.Paired places) (Fault.Matches sites names) (pure value) (pure value) :=
  fun _ _ h => .ok value h

theorem agree_throw {fault fault' : Fault} (h : fault.Matches sites names fault') :
    Agree (Session.Paired places) (Fault.Matches sites names)
      (throw fault : Action α) (throw fault' : Action α) :=
  fun _ _ hpaired => .error h hpaired

theorem agree_push (value : Value) :
    Agree (Session.Paired places) (Fault.Matches sites names) (push value) (push value) := by
  intro session session' h
  exact .ok () { h with stack := congrArg (value :: ·) h.stack }

theorem agree_store (address : Int64) (value : Value) :
    Agree (Session.Paired places) (Fault.Matches sites names) (store address value)
      (store address value) := by
  intro session session' h
  exact .ok () { h with heap := congrArg (·.store address value) h.heap }

theorem agree_load (address : Int64) :
    Agree (Session.Paired places) (Fault.Matches sites names) (load address) (load address) := by
  intro session session' h
  rw [load, ask, ask, h.heap]
  exact .ok _ h

theorem agree_fromFeed (read : Feed.Reader α) :
    Agree (Session.Paired places) (Fault.Matches sites names) (fromFeed read) (fromFeed read) := by
  rintro ⟨machine, feed, sink⟩ ⟨machine', feed', sink'⟩ h
  obtain rfl : feed' = feed := h.feed
  rw [fromFeed, fromFeed]
  cases read feed' with
  | ok value feed => exact .ok value { h with feed := rfl }
  | error fault feed => exact .error (.device fault) { h with feed := rfl }

theorem agree_toSink (write : Sink.Writer α) :
    Agree (Session.Paired places) (Fault.Matches sites names) (toSink write) (toSink write) := by
  rintro ⟨machine, feed, sink⟩ ⟨machine', feed', sink'⟩ h
  obtain rfl : sink' = sink := h.sink
  rw [toSink, toSink]
  cases write sink' with
  | ok value sink => exact .ok value { h with sink := rfl }
  | error fault sink => exact .error (.device fault) { h with sink := rfl }

variable {position position' : Nat} (hplace : sites position position')
include hplace

theorem agree_pop (instruction : String) :
    Agree (Session.Paired places) (Fault.Matches sites names) (pop instruction position)
      (pop instruction position') := by
  rintro ⟨machine, feed, sink⟩ ⟨machine', feed', sink'⟩ h
  have hstack : machine'.stack = machine.stack := h.stack
  rw [pop, pop, hstack]
  cases machine.stack with
  | nil => exact .error (.stackUnderflow instruction hplace) h
  | cons top below => exact .ok top { h with stack := rfl }

theorem agree_peek (instruction : String) :
    Agree (Session.Paired places) (Fault.Matches sites names) (peek instruction position)
      (peek instruction position') := by
  intro session session' h
  rw [peek, peek, ask, ask, h.stack]
  cases session.machine.stack with
  | nil => exact .error (.stackUnderflow instruction hplace) h
  | cons top below => exact .ok top h

theorem agree_ensure (count : Nat) (instruction : String) :
    Agree (Session.Paired places) (Fault.Matches sites names) (ensure count instruction position)
      (ensure count instruction position') := by
  intro session session' h
  rw [ensure, ensure, ask, ask, h.stack, Stack.ensure, Stack.ensure]
  split_ifs
  · exact .ok () h
  · exact .error (.stackUnderflow instruction hplace) h

theorem agree_perform {instruction : Instruction} (h : instruction.isLocal = true) :
    Agree (Session.Paired places) (Fault.Matches sites names) (perform instruction position)
      (perform (instruction.rename names) position') := by
  cases instruction with
  | push value => exact agree_push names _
  | duplicate => exact (agree_peek names hplace _).bind fun _ => agree_push names _
  | swap =>
      refine (agree_ensure names hplace _ _).bind fun _ => (agree_pop names hplace _).bind fun _ => ?_
      refine (agree_pop names hplace _).bind fun _ => ?_
      exact (agree_push names _).bind fun _ => agree_push names _
  | discard => exact (agree_pop names hplace _).bind fun _ => agree_pure names _
  | arithmetic operator =>
      refine (agree_ensure names hplace _ _).bind fun _ => (agree_pop names hplace _).bind fun right => ?_
      refine (agree_pop names hplace _).bind fun left => ?_
      cases operator.apply? left.toInteger right.toInteger with
      | some result => exact agree_push names _
      | none => exact agree_throw names (.divisionByZero _ hplace)
  | store =>
      refine (agree_ensure names hplace _ _).bind fun _ => (agree_pop names hplace _).bind fun _ => ?_
      exact (agree_pop names hplace _).bind fun _ => agree_store names _ _
  | load =>
      refine (agree_pop names hplace _).bind fun _ => ?_
      exact (agree_load names _).bind fun _ => agree_push names _
  | define label => exact agree_pure names _
  | outputChar =>
      refine (agree_pop names hplace _).bind fun value => ?_
      cases value.toChar? with
      | some c => exact agree_toSink names _
      | none => exact agree_pure names _
  | outputNumber => exact (agree_pop names hplace _).bind fun _ => agree_toSink names _
  | inputChar =>
      refine (agree_toSink names _).bind fun _ => (agree_fromFeed names _).bind fun _ => ?_
      exact (agree_pop names hplace _).bind fun _ => agree_store names _ _
  | inputNumber =>
      refine (agree_toSink names _).bind fun _ => (agree_fromFeed names _).bind fun _ => ?_
      exact (agree_pop names hplace _).bind fun _ => agree_store names _ _
  | debugPrint => exact agree_toSink names _
  | _ => cases h

/-- Jumps to labels that lead to matching places agree. -/
theorem alike_jump {session session' : Session} (h : session.Paired places session') {label : Label}
    (hlabel : Option.Rel places session.machine.labels[label]? session'.machine.labels[names label]?) :
    Alike (Session.Paired places) (Fault.Matches sites names) (perform (.jump label) position session)
      (perform (.jump (names label)) position' session') := by
  obtain ⟨machine, feed, sink⟩ := session
  obtain ⟨machine', feed', sink'⟩ := session'
  dsimp only at hlabel
  rw [perform_jump, perform_jump]
  generalize machine.labels[label]? = target at hlabel ⊢
  generalize machine'.labels[names label]? = target' at hlabel ⊢
  cases hlabel with
  | none => exact .error (.unknownLabel label hplace) h
  | some hcursor => exact .ok () { h with pc := hcursor }

/-- Calls of labels that lead to matching places agree. -/
theorem alike_call {session session' : Session} (h : session.Paired places session') {label : Label}
    (hlabel : Option.Rel places session.machine.labels[label]? session'.machine.labels[names label]?) :
    Alike (Session.Paired places) (Fault.Matches sites names) (perform (.call label) position session)
      (perform (.call (names label)) position' session') := by
  obtain ⟨machine, feed, sink⟩ := session
  obtain ⟨machine', feed', sink'⟩ := session'
  dsimp only at hlabel
  rw [perform_call, perform_call]
  generalize machine.labels[label]? = target at hlabel ⊢
  generalize machine'.labels[names label]? = target' at hlabel ⊢
  cases hlabel with
  | none => exact .error (.unknownLabel label hplace) h
  | some hcursor => exact .ok () { h with pc := hcursor, calls := .cons h.pc h.calls }

theorem alike_branch {session session' : Session} (h : session.Paired places session')
    {instruction : Instruction} {label : Label} {taken : Int64 → Bool}
    (hbranch : instruction.branch? = some (label, taken))
    (hlabel : Option.Rel places session.machine.labels[label]? session'.machine.labels[names label]?) :
    Alike (Session.Paired places) (Fault.Matches sites names) (perform instruction position session)
      (perform (instruction.rename names) position' session') := by
  obtain ⟨machine, feed, sink⟩ := session
  obtain ⟨machine', feed', sink'⟩ := session'
  have hstack : machine'.stack = machine.stack := h.stack
  rw [perform_branch hbranch, perform_branch (Instruction.branch?_rename hbranch), hstack,
    Instruction.mnemonic_rename]
  cases machine.stack with
  | nil => exact .error (.stackUnderflow _ hplace) h
  | cons value rest =>
      have hpopped : Session.Paired places ⟨{ machine with stack := rest }, feed, sink⟩
          ⟨{ machine' with stack := rest }, feed', sink'⟩ := { h with stack := rfl }
      dsimp only
      split_ifs
      · exact alike_jump names hplace hpopped hlabel
      · exact .ok () hpopped

theorem alike_ret {session session' : Session} (h : session.Paired places session') :
    Alike (Session.Paired places) (Fault.Matches sites names) (perform .ret position session)
      (perform .ret position' session') := by
  obtain ⟨machine, feed, sink⟩ := session
  obtain ⟨machine', feed', sink'⟩ := session'
  have hcalls : List.Forall₂ places machine.calls machine'.calls := h.calls
  rw [perform_ret, perform_ret]
  generalize machine.calls = calls at hcalls ⊢
  generalize machine'.calls = calls' at hcalls ⊢
  cases hcalls with
  | nil => exact .error (.callStackUnderflow hplace) h
  | cons hcursor hrest => exact .ok () { h with pc := hcursor, calls := hrest }

/-- **Instructions keep sessions paired.** At matching places, an instruction and the same one with other
names for labels agree on paired sessions in which its label leads to matching places. -/
theorem alike_perform {session session' : Session} (h : session.Paired places session')
    (instruction : Instruction)
    (hlabels : ∀ label, instruction.label? = some label →
      Option.Rel places session.machine.labels[label]? session'.machine.labels[names label]?) :
    Alike (Session.Paired places) (Fault.Matches sites names) (perform instruction position session)
      (perform (instruction.rename names) position' session') := by
  rcases instruction.course_cases with
    hlocal | ⟨label, rfl⟩ | ⟨label, rfl⟩ | ⟨label, taken, hbranch⟩ | rfl | rfl
  · exact agree_perform names hplace hlocal _ _ h
  · exact alike_call names hplace h (hlabels label rfl)
  · exact alike_jump names hplace h (hlabels label rfl)
  · exact alike_branch names hplace h hbranch (hlabels label (Instruction.label?_of_branch? hbranch))
  · exact alike_ret names hplace h
  · exact .ok () { h with halted := rfl }

theorem alike_execute {session session' : Session} (h : session.Paired places session')
    (instruction : Instruction)
    (hlabels : ∀ label, instruction.label? = some label →
      Option.Rel places session.machine.labels[label]? session'.machine.labels[names label]?) :
    Alike (Session.Paired places) (Fault.Matches sites names) (instruction.execute position session)
      ((instruction.rename names).execute position' session') := by
  have halike := alike_perform names hplace h instruction hlabels
  have houtcome : (if instruction.rename names = .stop then Outcome.finished else .running) =
      if instruction = .stop then Outcome.finished else .running :=
    if_congr Instruction.rename_eq_stop_iff rfl rfl
  rw [Instruction.execute_eq, Instruction.execute_eq, houtcome]
  generalize perform instruction position session = result at halike ⊢
  generalize perform (instruction.rename names) position' session' = result' at halike ⊢
  cases halike with
  | ok value hafter => exact .ok _ hafter
  | error hfault hafter => exact .error hfault hafter

end Matched

end Action

end MarkMachine
