import Std.Data.TreeMap.Basic
import MarkMachine.Fault
import MarkMachine.Opcode
import MarkMachine.Program

/-! Whole programs as instructions. A walk reads one instruction after the other from the start and
stops at the end of the program, before padding, or where no instruction can be read. From its spans
come the listing of a program and the table of its labels; a label that is defined more than once
means the place behind its last definition. -/

namespace MarkMachine

/-- An instruction with the cursors before and behind it. -/
structure Span where
  position : Nat
  instruction : Instruction
  next : Nat
  deriving DecidableEq, Repr

/-- The instructions of a program up to where a walk stops. The `ending` is the cursor where it stops
at the end or before padding, or what kept it from getting there. -/
structure Walk where
  spans : List Span
  ending : Except Fault Nat

def Instruction.decodeAt (program : Program) (cursor : Nat) : Reading Instruction :=
  Instruction.decode (program.drop cursor)

namespace Walk

/-- A walk with one more instruction in front. -/
def cons (span : Span) (walk : Walk) : Walk :=
  { walk with spans := span :: walk.spans }

/-- The walk from `position` on, when `skip` marks of the instruction there are yet to be passed. -/
def ofMarks (position : Nat) : Nat → List Mark → Walk
  | _, [] => ⟨[], .ok position⟩
  | skip + 1, _ :: rest => ofMarks (position + 1) skip rest
  | 0, mark :: rest =>
      match Instruction.decode (mark :: rest) with
      | .found instruction width =>
          cons ⟨position, instruction, position + width⟩ (ofMarks (position + 1) (width - 1) rest)
      | .missing =>
          if mark :: rest = [.line] then ⟨[], .ok position⟩ else ⟨[], .error (.malformed position)⟩
      | .overflow => ⟨[], .error (.numberOverflow position)⟩

end Walk

def Program.walk (program : Program) : Walk :=
  Walk.ofMarks 0 0 program

/-- Where the labels of a program lead. -/
abbrev LabelTable := Std.TreeMap Label Nat

namespace LabelTable

/-- Takes note of an instruction: a definition makes its label lead behind it. -/
def note (table : LabelTable) (span : Span) : LabelTable :=
  match span.instruction with
  | .define label => table.insert label span.next
  | _ => table

def ofSpans (spans : List Span) : LabelTable :=
  spans.foldl note ∅

end LabelTable

/-- The label table of a program that can be read to its end. -/
def Program.labels (program : Program) : Except Fault LabelTable :=
  program.walk.ending.map fun _ => LabelTable.ofSpans program.walk.spans

/-- A line of a listing. -/
structure Entry where
  position : Nat
  instruction : Instruction
  deriving DecidableEq, Repr

namespace Entry

/-- Positions are set right in this many columns. -/
def positionColumns : Nat := 6

/-- An entry as a line of text: the position, two blanks, the instruction and a line break. -/
def line (entry : Entry) : List Char :=
  (Decimal.digits entry.position).leftpad positionColumns ' ' ++ [' ', ' '] ++
    entry.instruction.text.toList ++ ['\n']

end Entry

/-- The instructions of a program with their positions. -/
abbrev Listing := List Entry

namespace Listing

def ofSpans (spans : List Span) : Listing :=
  spans.map fun span => ⟨span.position, span.instruction⟩

/-- A listing as text, a line for each entry. -/
def text (listing : Listing) : String :=
  String.ofList (listing.flatMap Entry.line)

end Listing

/-- The listing of a program that can be read to its end. -/
def Program.listing (program : Program) : Except Fault Listing :=
  program.walk.ending.map fun _ => Listing.ofSpans program.walk.spans

end MarkMachine
