/-! Signed 64-bit numbers in decimal. A number is written with a minus sign if it is negative and
without leading zeros. It is read with an optional sign of either kind; the digits are taken one by
one and the first that is none, or that leads out of the range, decides what is wrong. -/

namespace MarkMachine.Decimal

/-- Why a text is no signed 64-bit number. -/
inductive Fault where
  | empty
  | invalidDigit
  | tooLarge
  | tooSmall
  deriving DecidableEq, Repr

def Fault.message : Fault → String
  | .empty => "cannot parse integer from empty string"
  | .invalidDigit => "invalid digit found in string"
  | .tooLarge => "number too large to fit in target type"
  | .tooSmall => "number too small to fit in target type"

def digits (n : Nat) : List Char :=
  Nat.toDigits 10 n

/-- A number as it is written. -/
def chars (n : Int) : List Char :=
  if n < 0 then '-' :: digits n.natAbs else digits n.natAbs

def text (n : Int) : String :=
  String.ofList (chars n)

def digit? (c : Char) : Option Nat :=
  if '0' ≤ c ∧ c ≤ '9' then some (c.toNat - '0'.toNat) else none

/-- Goes on reading digits after those worth `value`. -/
def readDigits (negative : Bool) (value : Int) : List Char → Except Fault Int64
  | [] => .ok (Int64.ofInt value)
  | c :: rest =>
      match digit? c with
      | none => .error .invalidDigit
      | some d =>
          let value := if negative then value * 10 - d else value * 10 + d
          if value < Int64.minValue.toInt then .error .tooSmall
          else if Int64.maxValue.toInt < value then .error .tooLarge
          else readDigits negative value rest

/-- The number that a text is. -/
def read : List Char → Except Fault Int64
  | [] => .error .empty
  | ['+'] => .error .invalidDigit
  | ['-'] => .error .invalidDigit
  | '+' :: rest => readDigits false 0 rest
  | '-' :: rest => readDigits true 0 rest
  | text => readDigits false 0 text

end MarkMachine.Decimal
