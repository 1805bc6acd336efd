import MarkMachine.Feed
import MarkMachine.Machine
import MarkMachine.Sink

/-! Sessions and the actions on them. A session is a machine with its input and output. An action can
fail, and what it did before it failed stays done. -/

namespace MarkMachine

/-- A machine with its input and output. -/
structure Session where
  machine : Machine
  feed : Feed
  sink : Sink

/-- Something done to a session that can fail and keeps what it did before. -/
abbrev Action := EStateM Fault Session

namespace Action

variable {α : Type}

def change (f : Machine → Machine) : Action Unit := fun ⟨machine, feed, sink⟩ =>
  .ok () ⟨f machine, feed, sink⟩

/-- Asks the machine for something that it may not have. -/
def ask (f : Machine → Except Fault α) : Action α := fun session =>
  match f session.machine with
  | .ok value => .ok value session
  | .error fault => .error fault session

def fromFeed (read : Feed.Reader α) : Action α := fun ⟨machine, feed, sink⟩ =>
  match read feed with
  | .ok value feed => .ok value ⟨machine, feed, sink⟩
  | .error fault feed => .error (.device fault) ⟨machine, feed, sink⟩

def toSink (write : Sink.Writer α) : Action α := fun ⟨machine, feed, sink⟩ =>
  match write sink with
  | .ok value sink => .ok value ⟨machine, feed, sink⟩
  | .error fault sink => .error (.device fault) ⟨machine, feed, sink⟩

def push (value : Value) : Action Unit :=
  change fun machine => { machine with stack := value :: machine.stack }

def pop (instruction : String) (position : Nat) : Action Value := fun ⟨machine, feed, sink⟩ =>
  match machine.stack.pop instruction position with
  | .ok (value, stack) => .ok value ⟨{ machine with stack }, feed, sink⟩
  | .error fault => .error fault ⟨machine, feed, sink⟩

def peek (instruction : String) (position : Nat) : Action Value :=
  ask fun machine => machine.stack.peek instruction position

/-- Asks for a number of values on the stack. -/
def ensure (count : Nat) (instruction : String) (position : Nat) : Action Unit :=
  ask fun machine => machine.stack.ensure count instruction position

def load (address : Int64) : Action Value :=
  ask fun machine => .ok (machine.heap.load address)

def store (address : Int64) (value : Value) : Action Unit :=
  change fun machine => { machine with heap := machine.heap.store address value }

def target (label : Label) (position : Nat) : Action Nat :=
  ask fun machine => machine.target label position

def moveTo (cursor : Nat) : Action Unit :=
  change fun machine => { machine with pc := cursor }

def jump (label : Label) (position : Nat) : Action Unit := do
  moveTo (← target label position)

/-- Moves the cursor to where a label leads, to come back to where it is now. -/
def call (label : Label) (position : Nat) : Action Unit := do
  let cursor ← target label position
  change fun machine => { machine with calls := machine.pc :: machine.calls, pc := cursor }

/-- Moves the cursor back to where the latest call was made. -/
def goBack (position : Nat) : Action Unit := fun ⟨machine, feed, sink⟩ =>
  match machine.calls with
  | [] => .error (.callStackUnderflow position) ⟨machine, feed, sink⟩
  | cursor :: calls => .ok () ⟨{ machine with calls, pc := cursor }, feed, sink⟩

def halt : Action Unit :=
  change fun machine => { machine with halted := true }

end Action

end MarkMachine
