import MarkMachine.Run
import MarkMachine.Proofs.Step

/-! Steps as sequences of actions. A step asks the machine what is due and then acts on the machine alone,
or flushes the output, writes some bytes to it, or reads a character or a number from the input. So what
holds of all of these, and of actions that follow each other if it holds of each, holds of every step. -/

namespace MarkMachine

namespace Action

variable {α β : Type}

def leaving (f : Session → Session) : EStateM.Result Fault Session α → EStateM.Result Fault Session α
  | .ok value session => .ok value (f session)
  | .error fault session => .error fault (f session)

@[simp] theorem left_leaving (f : Session → Session) (result : EStateM.Result Fault Session α) :
    left (leaving f result) = f (left result) := by
  cases result <;> rfl

theorem leaving_congr {f g : Session → Session} {result : EStateM.Result Fault Session α}
    (h : f (left result) = g (left result)) : leaving f result = leaving g result := by
  cases result with
  | ok value session => exact congrArg (EStateM.Result.ok value) h
  | error fault session => exact congrArg (EStateM.Result.error fault) h

/-- An action on the machine alone: it neither heeds nor changes the input and the output. -/
def Inward (action : Action α) : Prop :=
  ∀ session feed sink, action { session with feed, sink } =
    leaving (fun after => { after with feed, sink }) (action session)

theorem Inward.devices_left {action : Action α} (h : Inward action) (session : Session) :
    (left (action session)).feed = session.feed ∧ (left (action session)).sink = session.sink := by
  have hsession := h session session.feed session.sink
  constructor
  · rw [hsession, left_leaving]
  · rw [hsession, left_leaving]

theorem inward_pure (value : α) : Inward (pure value : Action α) :=
  fun _ _ _ => rfl

theorem inward_throw (fault : Fault) : Inward (throw fault : Action α) :=
  fun _ _ _ => rfl

theorem inward_change (f : Machine → Machine) : Inward (change f) :=
  fun _ _ _ => rfl

theorem inward_ask (f : Machine → Except Fault α) : Inward (ask f) := by
  intro session feed sink
  rw [ask, ask]
  dsimp only
  cases f session.machine <;> rfl

theorem inward_pop (instruction : String) (position : Nat) : Inward (pop instruction position) := by
  rintro ⟨machine, feed, sink⟩ feed' sink'
  rw [pop, pop]
  dsimp only
  cases machine.stack.pop instruction position <;> rfl

theorem inward_goBack (position : Nat) : Inward (goBack position) := by
  rintro ⟨machine, feed, sink⟩ feed' sink'
  rw [goBack, goBack]
  dsimp only
  cases machine.calls <;> rfl

theorem toSink_bind (write : Sink.Writer α) (next : α → Sink.Writer β) :
    toSink (write >>= next) = toSink write >>= fun value => toSink (next value) := by
  funext ⟨machine, feed, sink⟩
  rw [bind_apply]
  cases hwrite : write sink <;> simp only [toSink, bind, EStateM.bind, hwrite]

/-- Writing neither heeds nor changes the input. -/
theorem toSink_feed (write : Sink.Writer α) (f : Feed → Feed) (session : Session) :
    toSink write { session with feed := f session.feed } =
      leaving (fun after => { after with feed := f after.feed }) (toSink write session) := by
  rw [toSink, toSink]
  cases write session.sink <;> rfl

theorem fromFeed_bind (read : Feed.Reader α) (next : α → Feed.Reader β) :
    fromFeed (read >>= next) = fromFeed read >>= fun value => fromFeed (next value) := by
  funext ⟨machine, feed, sink⟩
  rw [bind_apply]
  cases hread : read feed <;> simp only [fromFeed, bind, EStateM.bind, hread]

/-- A property of actions that all actions on the machine alone and all writes have, and with two actions
the one that carries them out one after the other. -/
structure Inputless (holds : ∀ {α : Type}, Action α → Prop) : Prop where
  bind : ∀ {α β : Type} {action : Action α} {next : α → Action β},
    holds action → (∀ value, holds (next value)) → holds (action >>= next)
  inward : ∀ {α : Type} {action : Action α}, Inward action → holds action
  write : ∀ bytes, holds (toSink (Sink.write bytes))

/-- Such a property that flushing and reading have as well. -/
structure Compositional (holds : ∀ {α : Type}, Action α → Prop) : Prop extends Inputless @holds where
  flush : holds (toSink Sink.flush)
  readChar : holds (fromFeed Feed.readChar)
  readNumber : holds (fromFeed Feed.readNumber)

end Action

def Instruction.isInput : Instruction → Bool
  | .inputChar => true
  | .inputNumber => true
  | _ => false

namespace Action

variable {α : Type}

namespace Inputless

variable {holds : ∀ {α : Type}, Action α → Prop} (h : Inputless @holds)
include h

theorem pure (value : α) : holds (Pure.pure value : Action α) :=
  h.inward (inward_pure value)

theorem throw (fault : Fault) : holds (throw fault : Action α) :=
  h.inward (inward_throw fault)

theorem change (f : Machine → Machine) : holds (change f) :=
  h.inward (inward_change f)

theorem ask (f : Machine → Except Fault α) : holds (ask f) :=
  h.inward (inward_ask f)

theorem pop (instruction : String) (position : Nat) : holds (pop instruction position) :=
  h.inward (inward_pop instruction position)

theorem push (value : Value) : holds (push value) :=
  h.change _

theorem halt : holds halt :=
  h.change _

theorem jump (label : Label) (position : Nat) : holds (jump label position) :=
  h.bind (h.ask _) fun _ => h.change _

theorem perform {instruction : Instruction} (hinput : instruction.isInput = false) (position : Nat) :
    holds (perform instruction position) := by
  cases instruction with
  | push value => exact h.push _
  | duplicate => exact h.bind (h.ask _) fun _ => h.change _
  | swap =>
      refine h.bind (h.ask _) fun _ => h.bind (h.pop _ _) fun _ => h.bind (h.pop _ _) fun _ => ?_
      exact h.bind (h.change _) fun _ => h.change _
  | discard => exact h.bind (h.pop _ _) fun _ => h.pure _
  | arithmetic operator =>
      refine h.bind (h.ask _) fun _ => h.bind (h.pop _ _) fun right => h.bind (h.pop _ _) fun left => ?_
      cases operator.apply? left.toInteger right.toInteger with
      | some result => exact h.change _
      | none => exact h.throw _
  | store =>
      refine h.bind (h.ask _) fun _ => h.bind (h.pop _ _) fun _ => ?_
      exact h.bind (h.pop _ _) fun _ => h.change _
  | load => exact h.bind (h.pop _ _) fun _ => h.bind (h.ask _) fun _ => h.change _
  | define label => exact h.pure _
  | call label => exact h.bind (h.ask _) fun _ => h.change _
  | jump label => exact h.jump _ _
  | jumpIfZero label =>
      refine h.bind (h.pop _ _) fun value => ?_
      split_ifs
      · exact h.jump _ _
      · exact h.pure _
  | jumpIfNegative label =>
      refine h.bind (h.pop _ _) fun value => ?_
      split_ifs
      · exact h.jump _ _
      · exact h.pure _
  | ret => exact h.inward (inward_goBack _)
  | stop => exact h.halt
  | outputChar =>
      refine h.bind (h.pop _ _) fun value => ?_
      cases value.toChar? with
      | some c => exact h.write _
      | none => exact h.pure _
  | outputNumber => exact h.bind (h.pop _ _) fun _ => h.write _
  | debugPrint => exact h.write _
  | inputChar => cases hinput
  | inputNumber => cases hinput

end Inputless

theorem Compositional.perform {holds : ∀ {α : Type}, Action α → Prop} (h : Compositional @holds)
    (instruction : Instruction) (position : Nat) : holds (perform instruction position) := by
  cases hinput : instruction.isInput with
  | false => exact h.toInputless.perform hinput position
  | true =>
      cases instruction with
      | inputChar =>
          refine h.bind h.flush fun _ => h.bind h.readChar fun _ => ?_
          exact h.bind (h.pop _ _) fun _ => h.change _
      | inputNumber =>
          refine h.bind h.flush fun _ => h.bind h.readNumber fun _ => ?_
          exact h.bind (h.pop _ _) fun _ => h.change _
      | _ => cases hinput

end Action

/-- The instruction that the next step begins, if it begins one. -/
def Machine.due? (machine : Machine) : Option Instruction :=
  if machine.isDone = true ∨ machine.lastPc = some machine.pc then none
  else
    match Instruction.decode machine.ahead with
    | .found instruction _ => some instruction
    | _ => none

theorem Machine.due?_eq_some_iff {machine : Machine} {instruction : Instruction} :
    machine.due? = some instruction ↔ machine.isDone = false ∧ machine.lastPc ≠ some machine.pc ∧
      ∃ width, Instruction.decode machine.ahead = .found instruction width := by
  rw [Machine.due?]
  by_cases hrests : machine.isDone = true ∨ machine.lastPc = some machine.pc
  · rw [if_pos hrests]
    refine ⟨nofun, fun ⟨hdone, hlast, _⟩ => ?_⟩
    rcases hrests with hfinished | hstalled
    · rw [hdone] at hfinished
      cases hfinished
    · exact absurd hstalled hlast
  · rw [if_neg hrests]
    rw [not_or, Bool.not_eq_true] at hrests
    cases Instruction.decode machine.ahead with
    | found found width => simp [hrests.1, hrests.2]
    | missing => simp
    | overflow => simp

namespace Session

open MarkMachine.Action

/-- What a step does when it begins with a machine. -/
def stepFrom (machine : Machine) : Action Outcome :=
  if machine.isDone then pure .finished
  else if machine.lastPc = some machine.pc then throw (.malformed machine.pc)
  else do
    change fun machine => { machine with lastPc := some machine.pc }
    match Instruction.decode machine.ahead with
    | .found instruction width =>
        change fun machine => { machine with pc := machine.pc + width, steps := machine.steps + 1 }
        instruction.execute machine.pc
    | .missing =>
        if machine.ahead = [.line] then
          change fun machine => { machine with halted := true }
          return .finished
        else throw (.malformed machine.pc)
    | .overflow => throw (.numberOverflow machine.pc)

theorem step_eq_ask_bind : step = ask Except.ok >>= stepFrom := by
  funext session
  change step session = stepFrom session.machine session
  rw [step, stepFrom]
  split
  · rfl
  · split
    · rfl
    · rw [bind_apply, change]
      dsimp only
      cases Instruction.decode session.machine.ahead with
      | found instruction width => rfl
      | missing =>
          dsimp only
          split_ifs <;> rfl
      | overflow => rfl

end Session

/-- What holds of everything that needs no input, and of the instruction that is due, holds of a step. -/
theorem Action.Inputless.stepFrom {holds : ∀ {α : Type}, Action α → Prop} (h : Inputless @holds)
    {machine : Machine}
    (hperform : ∀ instruction, machine.due? = some instruction →
      ∀ position, holds (Action.perform instruction position)) :
    holds (Session.stepFrom machine) := by
  rw [Session.stepFrom]
  by_cases hdone : machine.isDone = true
  · rw [if_pos hdone]
    exact h.pure _
  rw [if_neg hdone]
  by_cases hlast : machine.lastPc = some machine.pc
  · rw [if_pos hlast]
    exact h.throw _
  · rw [if_neg hlast]
    refine h.bind (h.change _) fun _ => ?_
    cases hdecode : Instruction.decode machine.ahead with
    | found instruction width =>
        have hdue : machine.due? = some instruction :=
          Machine.due?_eq_some_iff.mpr ⟨eq_false_of_ne_true hdone, hlast, width, hdecode⟩
        exact h.bind (h.change _) fun _ => h.bind (hperform instruction hdue _) fun _ => h.pure _
    | missing =>
        dsimp only
        split_ifs
        · exact h.bind (h.change _) fun _ => h.pure _
        · exact h.throw _
    | overflow => exact h.throw _

/-- What is compositional holds of a step. -/
theorem Action.Compositional.step {holds : ∀ {α : Type}, Action α → Prop} (h : Compositional @holds) :
    holds Session.step := by
  rw [Session.step_eq_ask_bind]
  refine h.bind (h.ask _) fun machine => ?_
  exact h.toInputless.stepFrom fun instruction _ position => h.perform instruction position

namespace Progress

def session : Progress → Session
  | .running session => session
  | .ended _ session => session

def leaving (f : Session → Session) : Progress → Progress
  | .running session => .running (f session)
  | .ended result session => .ended result (f session)

end Progress

namespace Session

open MarkMachine.Action

/-- What a run comes to whose last step came to `result`: a fault of that step, or else of the last flush. -/
def verdict (result : Except Fault Unit) (sink : Sink) : Except Fault Unit :=
  match result with
  | .error fault => .error fault
  | .ok _ => if sink.refusesFlush sink.flushes then .error (.device .flushRefused) else .ok ()

/-- A run that is closed has ended, with the session that the last flush leaves. -/
theorem close_eq (result : Except Fault Unit) (session : Session) :
    close result session = .ended (verdict result session.sink) (left (toSink Sink.flush session)) := by
  rw [close, toSink, Sink.flush]
  cases result with
  | ok _ =>
      simp only [verdict]
      split_ifs <;> rfl
  | error fault =>
      simp only [verdict]
      split_ifs <;> rfl

theorem exists_close_eq_ended (result : Except Fault Unit) (session : Session) :
    ∃ final, close result session = .ended final (left (toSink Sink.flush session)) :=
  ⟨_, close_eq result session⟩

theorem session_close (result : Except Fault Unit) (session : Session) :
    (close result session).session = left (toSink Sink.flush session) := by
  obtain ⟨final, hclose⟩ := exists_close_eq_ended result session
  rw [hclose, Progress.session]

/-- What a flush does not heed, the end of a run does not heed. -/
theorem close_leaving {f : Session → Session} {session : Session}
    (h : toSink Sink.flush (f session) = leaving f (toSink Sink.flush session))
    (result : Except Fault Unit) : close result (f session) = (close result session).leaving f := by
  rw [close, close, h]
  cases toSink Sink.flush session with
  | ok _ after => rfl
  | error fault after => cases result <;> rfl

end Session

end MarkMachine
