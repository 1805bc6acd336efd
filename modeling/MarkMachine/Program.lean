import MarkMachine.Mark
import MarkMachine.Scan

/-! Programs as lists of marks. A source text is searched from left to right for the spellings of the
marks and whatever spells none is passed over, so every text is a program. A cursor is a position
between marks; a line mark that stands alone at the end of a program is padding. -/

namespace MarkMachine

/-- A program: its marks in order. -/
abbrev Program := List Mark

/-- The mark spelled at the front of a text, with the number of characters of its spelling. -/
def Mark.spelledAt? (text : List Char) : Option (Mark × Nat) :=
  (Mark.all.find? fun mark => mark.spelling.isPrefixOf text).map fun mark =>
    (mark, mark.spelling.length)

namespace Program

/-- The marks found in a text. -/
def ofChars (text : List Char) : Program :=
  Scan.items Mark.spelledAt? text

/-- The marks found in a source text. -/
def ofSource (source : String) : Program :=
  ofChars source.toList

/-- The shortest text a program can be read from: its marks spelled one after the other. -/
def toChars (program : Program) : List Char :=
  program.flatMap Mark.spelling

/-- A source text of the program, without commentary. -/
def toSource (program : Program) : String :=
  String.ofList program.toChars

/-- The mark at a cursor, if the program reaches that far. -/
def markAt? (program : Program) (cursor : Nat) : Option Mark :=
  program[cursor]?

/-- Whether all that is left at a cursor is one line mark. -/
def isPadding (program : Program) (cursor : Nat) : Bool :=
  program.drop cursor == [.line]

end Program

end MarkMachine
