import MarkMachine.Fault
import MarkMachine.Value

/-! The value stack. An operation that finds too few values says which instruction wanted them and
where it stands, and leaves the stack as it was. -/

namespace MarkMachine

/-- A stack of values, the top first. -/
abbrev Stack := List Value

namespace Stack

def pop (stack : Stack) (instruction : String) (position : Nat) : Except Fault (Value × Stack) :=
  match stack with
  | [] => .error (.stackUnderflow instruction position)
  | top :: below => .ok (top, below)

def peek (stack : Stack) (instruction : String) (position : Nat) : Except Fault Value :=
  match stack with
  | [] => .error (.stackUnderflow instruction position)
  | top :: _ => .ok top

/-- Asks for a number of values. -/
def ensure (stack : Stack) (count : Nat) (instruction : String) (position : Nat) : Except Fault Unit :=
  if count ≤ stack.length then .ok () else .error (.stackUnderflow instruction position)

/-- A stack as it is shown, the bottom first. -/
def text (stack : Stack) : String :=
  "[" ++ ", ".intercalate (stack.reverse.map Value.text) ++ "]"

end Stack

end MarkMachine
