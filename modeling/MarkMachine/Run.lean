import MarkMachine.Event
import MarkMachine.Execution

/-! Whole runs. A run takes steps until one finishes or fails, and then tries to flush the output; a
fault of a step counts for more than a fault of that flush. As a run need not end, it is advanced by
a number of steps at a time. -/

namespace MarkMachine

/-- How far a run has come. -/
inductive Progress where
  | running (session : Session)
  | ended (result : Except Fault Unit) (session : Session)

namespace Session

/-- A session about to run a source text. -/
def load (source : String) (feed : Feed) (sink : Sink) : Except Fault Session :=
  (Machine.load source).map fun machine => { machine, feed, sink }

/-- Ends a run whose last step came to `result`. -/
def close (result : Except Fault Unit) (session : Session) : Progress :=
  match Action.toSink Sink.flush session with
  | .ok _ session => .ended result session
  | .error fault session =>
      match result with
      | .ok _ => .ended (.error fault) session
      | .error first => .ended (.error first) session

/-- Takes so many steps, unless the run ends before. -/
def advance : Nat → Session → Progress
  | 0, session => .running session
  | count + 1, session =>
      match step session with
      | .ok .running session => advance count session
      | .ok .finished session => close (.ok ()) session
      | .error fault session => close (.error fault) session

/-- What is told about the next so many steps. -/
def events : Nat → Session → List Event
  | 0, _ => []
  | count + 1, session =>
      (Event.ofStep? session.machine).toList ++
        match step session with
        | .ok .running session => events count session
        | .ok .finished session => [.halted session.machine.steps]
        | .error fault session => [.failed session.machine.steps session.machine.pc fault]

end Session

/-- What is left of a run. -/
structure Report where
  result : Except Fault Unit
  /-- The machine, unless the program could not be read. -/
  machine : Option Machine
  feed : Feed
  sink : Sink

/-- The report of a source text's run, if it ends within so many steps. A program that cannot be read is
reported at once and touches neither input nor output. -/
def run (count : Nat) (source : String) (feed : Feed) (sink : Sink) : Option Report :=
  match Session.load source feed sink with
  | .error fault => some ⟨.error fault, none, feed, sink⟩
  | .ok session =>
      match session.advance count with
      | .running _ => none
      | .ended result session => some ⟨result, some session.machine, session.feed, session.sink⟩

/-- All that is told about a source text's run in its first so many steps. -/
def trace (count : Nat) (source : String) (feed : Feed) (sink : Sink) : List Event :=
  Event.loading source ++
    match Session.load source feed sink with
    | .error _ => []
    | .ok session => session.events count

end MarkMachine
