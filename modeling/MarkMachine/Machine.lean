import MarkMachine.Heap
import MarkMachine.Listing
import MarkMachine.Stack

/-! The state of a machine. The cursor is where the next instruction is read; a machine is done when it
has halted or when its cursor has passed the end of the program. -/

namespace MarkMachine

structure Machine where
  program : Program
  labels : LabelTable
  /-- The cursor of the next instruction. -/
  pc : Nat := 0
  /-- Where the last step began. -/
  lastPc : Option Nat := none
  stack : Stack := []
  heap : Heap := ∅
  /-- The cursors that calls return to, the latest first. -/
  calls : List Nat := []
  halted : Bool := false
  /-- How many instructions have been started. -/
  steps : Nat := 0

namespace Machine

/-- A machine about to run a program, with the labels of that program. -/
def ofProgram (program : Program) : Except Fault Machine :=
  program.labels.map fun labels => { program, labels }

/-- A machine about to run a source text. -/
def load (source : String) : Except Fault Machine :=
  ofProgram (Program.ofSource source)

/-- The marks from the cursor on. -/
def ahead (machine : Machine) : List Mark :=
  machine.program.drop machine.pc

def isDone (machine : Machine) : Bool :=
  machine.halted || machine.ahead.isEmpty

def target (machine : Machine) (label : Label) (position : Nat) : Except Fault Nat :=
  match machine.labels[label]? with
  | some cursor => .ok cursor
  | none => .error (.unknownLabel label position)

end Machine

end MarkMachine
