import MarkMachine.Instruction
import MarkMachine.Numeral

/-! How instructions are made of marks. Each kind of instruction has a pattern of marks that it begins
with, and no pattern begins another. Behind the pattern stands the operand, if the kind has one; the
arithmetic instructions share a pattern and have a second one for the operator. -/

namespace MarkMachine

/-- What can stand behind a pattern. -/
inductive OperandKind where
  | none
  | number
  | label
  deriving DecidableEq, Repr

/-- An operand as it was read. -/
inductive Operand where
  | none
  | number (value : Int64)
  | label (label : Label)
  deriving DecidableEq, Repr

def Operand.read : OperandKind → List Mark → Reading Operand
  | .none, _ => .found .none 0
  | .number, marks => (Numeral.read marks).map .number
  | .label, marks => (Label.read marks).map .label

/-- A pattern and the kind of operand behind it. -/
structure Signature where
  pattern : List Mark
  operand : OperandKind
  deriving DecidableEq, Repr

namespace Signature

/-- Looks for a signature at the front of some marks. -/
def read (signature : Signature) (marks : List Mark) : Reading Operand :=
  Reading.behind signature.pattern (Operand.read signature.operand) marks

/-- Looks for a signature at a cursor. Even the empty pattern is not found past the end. -/
def readAt (signature : Signature) (program : List Mark) (cursor : Nat) : Reading Operand :=
  if cursor ≤ program.length then signature.read (program.drop cursor) else .missing

end Signature

/-- One row of the instruction table. -/
inductive Opcode where
  /-- The pattern is the whole instruction. -/
  | plain (pattern : List Mark) (instruction : Instruction)
  /-- A number follows. -/
  | number (pattern : List Mark) (build : Int64 → Instruction)
  /-- A label follows. -/
  | label (pattern : List Mark) (build : Label → Instruction)
  /-- A row of the operator table follows. -/
  | operator (pattern : List Mark)

namespace Opcode

/-- The instruction table. -/
def primary : List Opcode :=
  [.number [.space, .space] .push,
    .plain [.space, .line, .space] .duplicate,
    .plain [.space, .line, .tab] .swap,
    .plain [.space, .line, .line] .discard,
    .operator [.tab, .space],
    .plain [.tab, .tab, .space] .store,
    .plain [.tab, .tab, .tab] .load,
    .label [.line, .space, .space] .define,
    .label [.line, .space, .tab] .call,
    .label [.line, .space, .line] .jump,
    .label [.line, .tab, .space] .jumpIfZero,
    .label [.line, .tab, .tab] .jumpIfNegative,
    .plain [.line, .tab, .line] .ret,
    .plain [.line, .line, .line] .stop,
    .plain [.tab, .line, .space, .space] .outputChar,
    .plain [.tab, .line, .space, .tab] .outputNumber,
    .plain [.tab, .line, .tab, .space] .inputChar,
    .plain [.tab, .line, .tab, .tab] .inputNumber,
    .plain [.extra] .debugPrint]

def operators : List (List Mark × Operator) :=
  [([.space, .space], .add),
    ([.space, .tab], .sub),
    ([.space, .line], .mul),
    ([.tab, .space], .div),
    ([.tab, .tab], .mod)]

/-- The first row of an operator table found at the front of some marks. -/
def readOperator (marks : List Mark) : List (List Mark × Operator) → Reading Operator
  | [] => .missing
  | row :: rows =>
      ((Signature.read ⟨row.1, .none⟩ marks).map fun _ => row.2).orElse fun _ => readOperator marks rows

def signature : Opcode → Signature
  | .plain pattern _ => ⟨pattern, .none⟩
  | .number pattern _ => ⟨pattern, .number⟩
  | .label pattern _ => ⟨pattern, .label⟩
  | .operator pattern => ⟨pattern, .none⟩

/-- What a row makes of its operand and of the marks behind that. -/
def build (operators : List (List Mark × Operator)) :
    Opcode → Operand → List Mark → Reading Instruction
  | .plain _ instruction, _, _ => .found instruction 0
  | .number _ build, .number value, _ => .found (build value) 0
  | .label _ build, .label name, _ => .found (build name) 0
  | .operator _, _, marks => (readOperator marks operators).map .arithmetic
  -- The signature fixes the kind of the operand, so no other pairing occurs.
  | _, _, _ => .missing

/-- Reads one row of the instruction table. -/
def read (operators : List (List Mark × Operator)) (row : Opcode) (marks : List Mark) :
    Reading Instruction :=
  (row.signature.read marks).andThen fun operand width =>
    row.build operators operand (marks.drop width)

/-- Reads the first row of an instruction table whose signature is found at the front of some marks. That row
decides, also if no operator stands behind it. -/
def decodeWith (operators : List (List Mark × Operator)) (marks : List Mark) :
    List Opcode → Reading Instruction
  | [] => .missing
  | row :: rows =>
      match row.signature.read marks with
      | .missing => decodeWith operators marks rows
      | _ => row.read operators marks

end Opcode

namespace Instruction

/-- The instruction at the front of some marks. -/
def decode (marks : List Mark) : Reading Instruction :=
  Opcode.decodeWith Opcode.operators marks Opcode.primary

def operatorCode : Operator → List Mark
  | .add => [.space, .space]
  | .sub => [.space, .tab]
  | .mul => [.space, .line]
  | .div => [.tab, .space]
  | .mod => [.tab, .tab]

/-- The marks of an instruction, the number operand as short as can be. -/
def encode : Instruction → List Mark
  | .push value => [.space, .space] ++ Numeral.write value
  | .duplicate => [.space, .line, .space]
  | .swap => [.space, .line, .tab]
  | .discard => [.space, .line, .line]
  | .arithmetic operator => [.tab, .space] ++ operatorCode operator
  | .store => [.tab, .tab, .space]
  | .load => [.tab, .tab, .tab]
  | .define label => [.line, .space, .space] ++ label.write
  | .call label => [.line, .space, .tab] ++ label.write
  | .jump label => [.line, .space, .line] ++ label.write
  | .jumpIfZero label => [.line, .tab, .space] ++ label.write
  | .jumpIfNegative label => [.line, .tab, .tab] ++ label.write
  | .ret => [.line, .tab, .line]
  | .stop => [.line, .line, .line]
  | .outputChar => [.tab, .line, .space, .space]
  | .outputNumber => [.tab, .line, .space, .tab]
  | .inputChar => [.tab, .line, .tab, .space]
  | .inputNumber => [.tab, .line, .tab, .tab]
  | .debugPrint => [.extra]

end Instruction

end MarkMachine
