import MarkMachine.Reading

/-! Labels, the names of places in a program. A label is any list of marks and two labels are the same
only if their marks are; as an operand it ends at the first line mark, so labels that programs can
mention have none. -/

namespace MarkMachine

/-- The name of a place in a program. -/
abbrev Label := List Mark

namespace Label

/-- A label for people: its shorthand, and a word of its own for the empty label. -/
def text (label : Label) : String :=
  if label = [] then "<empty>" else shorthand label

/-- Reads a label operand: the marks up to the next line mark, which is taken too. -/
def read : List Mark → Reading Label
  | [] => .missing
  | .line :: _ => .found [] 1
  | mark :: rest => ((read rest).widen 1).map (mark :: ·)

def write (label : Label) : List Mark :=
  label ++ [.line]

/-- A letter that cannot stand in a label. -/
structure BadLetter where
  letter : Char
  deriving DecidableEq, Repr

def BadLetter.message (bad : BadLetter) : String :=
  "invalid label token '" ++ bad.letter.toString ++ "'"

/-- The mark of a letter that can stand in a label. -/
def ofLetter (letter : Char) : Except BadLetter Mark :=
  match Mark.ofLetter? letter with
  | some .line => .error ⟨letter⟩
  | some mark => .ok mark
  | none => .error ⟨letter⟩

/-- Reads the shorthand of a label without line marks; the first other letter is reported. -/
def ofChars : List Char → Except BadLetter Label
  | [] => .ok []
  | letter :: rest => do
      let mark ← ofLetter letter
      let label ← ofChars rest
      return mark :: label

/-- Reads the shorthand of a label without line marks. -/
def ofText (text : String) : Except BadLetter Label :=
  ofChars text.toList

end Label

end MarkMachine
