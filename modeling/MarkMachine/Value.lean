import MarkMachine.Text.Decimal
import MarkMachine.Text.Quoted
import MarkMachine.Text.Utf8

/-! The values a machine holds. Where a number is wanted a character counts as its code point and an
unset cell as zero; where a character is wanted a number counts as the character with that code
point, and an unset cell is no character at all. -/

namespace MarkMachine

/-- A value on the stack or in the heap. -/
inductive Value where
  | unset
  | integer (n : Int64)
  | character (c : Char)
  deriving DecidableEq, Repr, Inhabited

namespace Value

def toInteger : Value → Int64
  | .unset => 0
  | .integer n => n
  | .character c => Int64.ofNat c.toNat

/-- The character with a code point; numbers that are no code point give the replacement character. -/
def charOfInteger (n : Int64) : Char :=
  if 0 ≤ n ∧ n.toInt.toNat.isValidChar then Char.ofNat n.toInt.toNat else Utf8.replacement

/-- A value taken as a character. -/
def toChar? : Value → Option Char
  | .unset => none
  | .integer n => some (charOfInteger n)
  | .character c => some c

/-- A value as it is shown. -/
def text : Value → String
  | .unset => "unset"
  | .integer n => Decimal.text n.toInt
  | .character c => Quoted.char c

end Value

end MarkMachine
