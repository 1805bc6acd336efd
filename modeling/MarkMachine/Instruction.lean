import MarkMachine.Label
import MarkMachine.Text.Decimal

/-! The instructions of the machine and their text: a mnemonic, followed by the operand if there is
one. -/

namespace MarkMachine

inductive Operator where
  | add
  | sub
  | mul
  | div
  | mod
  deriving DecidableEq, Repr

def Operator.mnemonic : Operator → String
  | .add => "add"
  | .sub => "sub"
  | .mul => "mul"
  | .div => "div"
  | .mod => "mod"

/-- One instruction. -/
inductive Instruction where
  | push (value : Int64)
  | duplicate
  | swap
  | discard
  | arithmetic (operator : Operator)
  | store
  | load
  /-- Gives the place behind it a name. -/
  | define (label : Label)
  | call (label : Label)
  | jump (label : Label)
  | jumpIfZero (label : Label)
  | jumpIfNegative (label : Label)
  | ret
  | stop
  | outputChar
  | outputNumber
  | inputChar
  | inputNumber
  | debugPrint
  deriving DecidableEq, Repr

namespace Instruction

def mnemonic : Instruction → String
  | .push _ => "push"
  | .duplicate => "dup"
  | .swap => "swap"
  | .discard => "discard"
  | .arithmetic operator => operator.mnemonic
  | .store => "store"
  | .load => "load"
  | .define _ => "label"
  | .call _ => "call"
  | .jump _ => "jump"
  | .jumpIfZero _ => "jz"
  | .jumpIfNegative _ => "jn"
  | .ret => "ret"
  | .stop => "end"
  | .outputChar => "putc"
  | .outputNumber => "putn"
  | .inputChar => "getc"
  | .inputNumber => "getn"
  | .debugPrint => "debug"

/-- The label an instruction mentions. -/
def label? : Instruction → Option Label
  | .define label => some label
  | .call label => some label
  | .jump label => some label
  | .jumpIfZero label => some label
  | .jumpIfNegative label => some label
  | _ => none

/-- An instruction as it is listed. -/
def text (instruction : Instruction) : String :=
  match instruction with
  | .push value => "push " ++ Decimal.text value.toInt
  | _ =>
      match instruction.label? with
      | some label => instruction.mnemonic ++ " " ++ label.text
      | none => instruction.mnemonic

end Instruction

end MarkMachine
