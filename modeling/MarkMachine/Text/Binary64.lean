/-! Numbers of the binary format with 64 bits, in decimal. A decimal is read as the nearest number of the
format, of two equally near ones as that with the even mantissa. A number is written with the fewest
digits that are read as it, of those with the nearest, from halfway with the larger, and always
without an exponent. -/

namespace MarkMachine

/-- A number of the format. A finite one is its mantissa times a power of two. The mantissa has 53 binary
digits, or fewer if the exponent is the lowest. -/
inductive Binary64 where
  | finite (negative : Bool) (mantissa : Nat) (exponent : Int)
  | infinite (negative : Bool)
  | notANumber
  deriving DecidableEq, Repr

namespace Binary64

def lowest : Int := -1074

def highest : Int := 971

/-- A quotient rounded to the nearest whole number, from halfway to the even one. -/
def roundDiv (numerator denominator : Nat) : Nat :=
  let quotient := numerator / denominator
  let twice := 2 * (numerator % denominator)
  if twice < denominator then quotient
  else if denominator < twice then quotient + 1
  else quotient + quotient % 2

/-- The number nearest to a fraction that is not zero. -/
def ofFraction (negative : Bool) (numerator denominator : Nat) : Binary64 :=
  let mantissa (exponent : Int) : Nat :=
    roundDiv (numerator * Nat.pow 2 (-exponent).toNat) (denominator * Nat.pow 2 exponent.toNat)
  let isWide (exponent : Int) : Bool :=
    denominator * Nat.pow 2 exponent.toNat * Nat.pow 2 53 ≤ numerator * Nat.pow 2 (-exponent).toNat
  let least : Int := numerator.log2 - denominator.log2 - 53
  let exponent := max lowest (if isWide least then least + 1 else least)
  let (mantissa, exponent) :=
    if mantissa exponent = Nat.pow 2 53 then (Nat.pow 2 52, exponent + 1) else (mantissa exponent, exponent)
  if highest < exponent then .infinite negative else .finite negative mantissa exponent

/-- The number nearest to `digits` times a power of ten. Decimals far beyond the format are not
counted out. -/
def ofDecimal (negative : Bool) (digits : Nat) (exponent : Int) : Binary64 :=
  let size : Int := exponent + (Nat.toDigits 10 digits).length
  if digits = 0 ∨ size < -330 then .finite negative 0 lowest
  else if 310 < size then .infinite negative
  else ofFraction negative (digits * Nat.pow 10 exponent.toNat) (Nat.pow 10 (-exponent).toNat)

def isNonzero : Binary64 → Bool
  | .finite _ mantissa _ => mantissa ≠ 0
  | _ => true

/-- How many digits stand before the point, if the number is at least one, or else how many zeros stand
behind it, below zero. -/
def magnitude (mantissa : Nat) (exponent : Int) : Int :=
  let scaled := mantissa * Nat.pow 2 exponent.toNat * Nat.pow 10 400 / Nat.pow 2 (-exponent).toNat
  (Nat.toDigits 10 scaled).length - 400

/-- The whole number of units nearest to a finite number among those that are read as it, where a unit
is a power of ten. Of two equally near ones it is the larger. -/
def nearest? (mantissa : Nat) (exponent unit : Int) : Option Nat :=
  let up := Nat.pow 2 (exponent - 2).toNat * Nat.pow 10 (-unit).toNat
  let down := Nat.pow 2 (2 - exponent).toNat * Nat.pow 10 unit.toNat
  let low := 4 * mantissa - if mantissa = Nat.pow 2 52 ∧ lowest < exponent then 1 else 2
  let high := 4 * mantissa + 2
  let isRead (count : Nat) : Bool :=
    if mantissa % 2 = 0 then low * up ≤ count * down && count * down ≤ high * up
    else low * up < count * down && count * down < high * up
  let below := 4 * mantissa * up / down
  let isLow : Bool := 2 * (4 * mantissa * up % down) < down
  (if isLow then [below, below + 1] else [below + 1, below]).find? isRead

/-- The digits of a finite number and the power of ten that they count: the fewest, or all if seventeen
were not enough. The first power tried is the one above the number, for a number so close below it
that it is written with the digit one. -/
def shortest (mantissa : Nat) (exponent : Int) : Nat × Int :=
  let size := magnitude mantissa exponent
  let found := (List.range 18).findSome? fun (count : Nat) =>
    let unit : Int := size - count
    (nearest? mantissa exponent unit).map fun digits => (digits, unit)
  found.getD (mantissa * Nat.pow 2 exponent.toNat * Nat.pow 5 (-exponent).toNat, min exponent 0)

/-- Digits that count a power of ten, with a point if need be. -/
def positional (digits : List Char) (unit : Int) : List Char :=
  let whole := digits.length + unit
  if 0 ≤ unit then digits ++ List.replicate unit.toNat '0'
  else if 0 < whole then digits.take whole.toNat ++ ['.'] ++ digits.drop whole.toNat
  else ['0', '.'] ++ List.replicate (-whole).toNat '0' ++ digits

def text : Binary64 → String
  | .notANumber => "NaN"
  | .infinite negative => if negative then "-inf" else "inf"
  | .finite negative mantissa exponent =>
      let (digits, unit) := if mantissa = 0 then (0, 0) else shortest mantissa exponent
      (if negative then "-" else "") ++ String.ofList (positional (Nat.toDigits 10 digits) unit)

end Binary64

end MarkMachine
