import MarkMachine.Reading

/-! Number operands: a sign, binary digits from the most significant one, and a line mark. Any mark can
stand for the sign, and all but the space mark mean minus; a tab mark is the digit one and every
other mark the digit zero. The digits are gathered in 64 unsigned bits, so a magnitude beyond them is
an overflow even if the line mark is missing; whether the signed number fits is asked only when the
line mark has been read. -/

namespace MarkMachine

/-- The binary digit a mark stands for. -/
def Mark.bit : Mark → Nat
  | .tab => 1
  | _ => 0

namespace Numeral

/-- Goes on reading digits, after those worth `magnitude`, up to and with the line mark. -/
def readMagnitude (magnitude : Nat) : List Mark → Reading Nat
  | [] => .missing
  | .line :: _ => .found magnitude 1
  | digit :: rest =>
      if 2 * magnitude + digit.bit < UInt64.size then
        (readMagnitude (2 * magnitude + digit.bit) rest).widen 1
      else .overflow

/-- The number of a sign and a magnitude, if it has 64 bits. -/
def signed? (sign : Mark) (magnitude : Nat) : Option Int64 :=
  if sign = .space then
    if magnitude ≤ Int64.maxValue.toInt then some (Int64.ofInt magnitude) else none
  else
    if Int64.minValue.toInt ≤ -magnitude then some (Int64.ofInt (-magnitude)) else none

def read : List Mark → Reading Int64
  | [] => .missing
  | sign :: rest =>
      match readMagnitude 0 rest with
      | .found magnitude width =>
          match signed? sign magnitude with
          | some value => .found value (1 + width)
          | none => .overflow
      | .missing => .missing
      | .overflow => .overflow

/-- The last `width` binary digits of a number, the most significant one first. -/
def bits (n : Nat) : Nat → List Mark
  | 0 => []
  | width + 1 => (if n.testBit width then .tab else .space) :: bits n width

/-- The binary digits of a number, without leading zeros; zero has none. -/
def digits (n : Nat) : List Mark :=
  if n = 0 then [] else bits n (n.log2 + 1)

def write (value : Int64) : List Mark :=
  (if value < 0 then .tab else .space) :: digits value.toInt.natAbs ++ [.line]

end Numeral

end MarkMachine
