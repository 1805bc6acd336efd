import MarkMachine.Label
import MarkMachine.Text.Decimal
import MarkMachine.Text.Quoted

/-! What can go wrong in reading a program or running it, and what is said about it. -/

namespace MarkMachine

/-- What can go wrong with the input or the output of a machine. -/
inductive DeviceFault where
  /-- The input has no more bytes. -/
  | endOfInput
  /-- A word of the input is no number. -/
  | notANumber (word : List Char) (reason : Decimal.Fault)
  /-- The input cannot be read any further. -/
  | sourceBroken
  /-- The output takes no more bytes. -/
  | sinkFull
  /-- The output cannot be flushed. -/
  | flushRefused
  deriving DecidableEq, Repr

def DeviceFault.message : DeviceFault → String
  | .endOfInput => "end of input"
  | .notANumber word reason =>
      "expected an integer, found " ++ Quoted.text word ++ ": " ++ reason.message
  | .sourceBroken => "source broken"
  | .sinkFull => "sink full"
  | .flushRefused => "flush refused"

/-- What ends a run, or the reading of a program, before its end. Positions are those of the
instruction at fault; `instruction` is its mnemonic. -/
inductive Fault where
  /-- No instruction stands here, or control came back to where it just was. -/
  | malformed (position : Nat)
  | stackUnderflow (instruction : String) (position : Nat)
  | callStackUnderflow (position : Nat)
  | unknownLabel (label : Label) (position : Nat)
  | divisionByZero (instruction : String) (position : Nat)
  | numberOverflow (position : Nat)
  | device (fault : DeviceFault)
  deriving DecidableEq, Repr

def Fault.message : Fault → String
  | .malformed position =>
      "malformed program: stalled at token " ++ Decimal.text position
  | .stackUnderflow instruction position =>
      "stack underflow: " ++ instruction ++ " at token " ++ Decimal.text position ++
        " needs more values"
  | .callStackUnderflow position =>
      "call stack underflow: return at token " ++ Decimal.text position ++ " without a matching call"
  | .unknownLabel label position =>
      "unknown label " ++ label.text ++ " referenced at token " ++ Decimal.text position
  | .divisionByZero instruction position =>
      "division by zero: " ++ instruction ++ " at token " ++ Decimal.text position
  | .numberOverflow position =>
      "number operand at token " ++ Decimal.text position ++ " does not fit in 64 bits"
  | .device fault => "I/O failure: " ++ fault.message

end MarkMachine
