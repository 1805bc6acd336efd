import MarkMachine.Mark

/-! What reading at a cursor can come to: something was found and took some marks, nothing complete
stands there, or a number stands there that is out of range. -/

namespace MarkMachine

/-- The outcome of looking for an `α` at the front of some marks. -/
inductive Reading (α : Type) where
  /-- Found, in the first `width` marks. -/
  | found (value : α) (width : Nat)
  /-- Nothing complete is there. -/
  | missing
  /-- A number too large for 64 bits is there. -/
  | overflow
  deriving DecidableEq, Repr

namespace Reading

variable {α β : Type}

def map (f : α → β) : Reading α → Reading β
  | .found value width => .found (f value) width
  | .missing => .missing
  | .overflow => .overflow

/-- Counts `extra` marks read before. -/
def widen (extra : Nat) : Reading α → Reading α
  | .found value width => .found value (extra + width)
  | .missing => .missing
  | .overflow => .overflow

/-- Goes on behind what was found. -/
def andThen (next : α → Nat → Reading β) : Reading α → Reading β
  | .found value width => (next value width).widen width
  | .missing => .missing
  | .overflow => .overflow

/-- The first reading unless it found nothing, else the second. -/
def orElse : Reading α → (Unit → Reading α) → Reading α
  | .missing, second => second ()
  | first, _ => first

/-- Reads with `read` behind a fixed pattern, which has to be there. -/
def behind (pattern : List Mark) (read : List Mark → Reading α) (marks : List Mark) : Reading α :=
  if pattern.isPrefixOf marks then (read (marks.drop pattern.length)).widen pattern.length
  else .missing

end Reading

end MarkMachine
