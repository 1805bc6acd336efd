/-! The lines of a text. A line ends at a line feed, and a carriage return right before that belongs to
the line's end. -/

namespace MarkMachine.Lines

/-- A line without a carriage return at its end. -/
def withoutReturn (line : List Char) : List Char :=
  if line.getLast? = some '\r' then line.dropLast else line

/-- The lines of a text that is written with a line feed behind it. -/
def ofText (text : String) : List String :=
  (text.toList.splitOn '\n').map fun line => String.ofList (withoutReturn line)

end MarkMachine.Lines
