/-! Marks, the alphabet of the machine's programs. Three of them are spelled as Japanese words and the
fourth is the line break; everything else in a source text is commentary. Each mark also has a letter,
and a list of marks is written for people as the string of its letters, its *shorthand*. -/

namespace MarkMachine

/-- One symbol of a program. -/
inductive Mark where
  | space
  | tab
  | line
  | extra
  deriving DecidableEq, Repr, Inhabited

namespace Mark

def letter : Mark → Char
  | .space => 'S'
  | .tab => 'T'
  | .line => 'L'
  | .extra => 'E'

/-- The mark a letter stands for. -/
def ofLetter? : Char → Option Mark
  | 'S' => some .space
  | 'T' => some .tab
  | 'L' => some .line
  | 'E' => some .extra
  | _ => none

theorem ofLetter?_letter (m : Mark) : ofLetter? m.letter = some m := by
  cases m <;> rfl

/-- The characters that spell a mark in a source text. -/
def spelling : Mark → List Char
  | .space => ['便', '利']
  | .tab => ['感', '極', 'ま', 'っ', 'て', 'き', 'ま', 'し', 'た']
  | .line => ['\n']
  | .extra => ['か', 'な', 'り']

/-- The marks in the order in which their spellings are tried. -/
def all : List Mark := [.space, .tab, .extra, .line]

theorem mem_all (m : Mark) : m ∈ all := by
  cases m <;> decide

/-- Marks are ordered by this rank, so that lists of marks can be keys of a table. -/
def rank : Mark → Nat
  | .space => 0
  | .tab => 1
  | .line => 2
  | .extra => 3

instance : Ord Mark where
  compare a b := compare a.rank b.rank

instance : Std.TransOrd Mark where
  eq_swap := by intro a b; cases a <;> cases b <;> rfl
  isLE_trans := by intro a b c; cases a <;> cases b <;> cases c <;> decide

instance : Std.LawfulEqOrd Mark where
  eq_of_compare := by intro a b; cases a <;> cases b <;> decide

end Mark

def shorthand (marks : List Mark) : String :=
  String.ofList (marks.map Mark.letter)

/-- Reads shorthand; any other letter makes it unreadable. -/
def ofShorthand? (text : String) : Option (List Mark) :=
  text.toList.mapM Mark.ofLetter?

end MarkMachine
