import MarkMachine.Json.Reader
import MarkMachine.Settings.Tree

/-! Numbers in TOML. Whole numbers have 64 bits and can be written in four bases; other numbers have a
fraction or an exponent, or are one of a few words. Single underscores may stand between digits. -/

namespace MarkMachine.Settings.Toml

/-- Digits with single underscores between them. -/
def spacedDigits? (base : Nat) (text : List Char) : Option (List Nat) := do
  let groups := text.splitOn '_'
  if groups.any List.isEmpty then none
  let digits ← groups.flatten.mapM Json.hexDigit?
  if digits.all (· < base) then return digits else none

/-- The number that digits stand for. -/
def ofDigits (base : Nat) (digits : List Nat) : Nat :=
  digits.foldl (fun value digit => value * base + digit) 0

/-- The digits and underscores at the front of a text, and what is behind them. -/
def spanDigits (text : List Char) : List Char × List Char :=
  text.span fun c => (Json.hexDigit? c).isSome || c = '_'

/-- The decimal digits and underscores at the front of a text, and what is behind them. -/
def spanDecimal (text : List Char) : List Char × List Char :=
  text.span fun c => c.isDigit || c = '_'

/-- A whole number, if it has 64 bits. -/
def whole? (value : Int) : Option Tree :=
  if Int64.minValue.toInt ≤ value ∧ value ≤ Int64.maxValue.toInt then some (.integer value) else none

/-- A whole number in a base other than ten, behind the letter for the base. -/
def readBased (base : Nat) (text : List Char) : Option (Tree × List Char) := do
  let (word, rest) := spanDigits text
  return (← whole? (ofDigits base (← spacedDigits? base word)), rest)

/-- Digits behind a point, if there is one. -/
def readFraction : List Char → Option (List Nat × List Char)
  | '.' :: text => do
      let (word, rest) := spanDecimal text
      return (← spacedDigits? 10 word, rest)
  | text => some ([], text)

def readExponent : List Char → Option (Option Int × List Char)
  | e :: text =>
      if e = 'e' || e = 'E' then do
        let (negative, text) :=
          match text with
          | '-' :: rest => (true, rest)
          | '+' :: rest => (false, rest)
          | _ => (false, text)
        let (word, rest) := spanDecimal text
        let size : Int := ofDigits 10 (← spacedDigits? 10 word)
        return (some (if negative then -size else size), rest)
      else some (none, e :: text)
  | [] => some (none, [])

/-- A decimal number behind its sign. The part before the point has no zero in front of other digits.
A number too large to be finite is refused if it is positive. -/
def readDecimal (negative : Bool) (text : List Char) : Option (Tree × List Char) := do
  let (word, text) := spanDecimal text
  if word.head? = some '0' ∧ word.length ≠ 1 then none
  let digits ← spacedDigits? 10 word
  let (fraction, text) ← readFraction text
  let (exponent, text) ← readExponent text
  if fraction.isEmpty ∧ exponent.isNone then
    let value : Int := ofDigits 10 digits
    return (← whole? (if negative then -value else value), text)
  else
    let value := Binary64.ofDecimal negative (ofDigits 10 (digits ++ fraction))
      (exponent.getD 0 - fraction.length)
    if value = .infinite false then none else return (.real value, text)

/-- A number behind its sign. -/
def readUnsigned (negative : Bool) (text : List Char) : Option (Tree × List Char) :=
  match text with
  | 'i' :: 'n' :: 'f' :: rest => some (.real (.infinite negative), rest)
  | 'n' :: 'a' :: 'n' :: rest => some (.real .notANumber, rest)
  | _ => readDecimal negative text

def readNumber (text : List Char) : Option (Tree × List Char) :=
  match text with
  | '0' :: 'x' :: rest => readBased 16 rest
  | '0' :: 'o' :: rest => readBased 8 rest
  | '0' :: 'b' :: rest => readBased 2 rest
  | '+' :: rest => readUnsigned false rest
  | '-' :: rest => readUnsigned true rest
  | _ => readUnsigned false text

end MarkMachine.Settings.Toml
