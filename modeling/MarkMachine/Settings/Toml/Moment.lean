import MarkMachine.Text.Decimal

/-! Dates and times in TOML: a date, a time, or both with or without an offset. They are settings only as
the text in which they are written again: with a `T` between date and time, fractions of a second cut
to nine digits and without zeros at their end, and the offset `Z` in a capital letter. -/

namespace MarkMachine.Settings.Toml

/-- A number of exactly so many digits between two bounds. -/
def readFixed (size low high : Nat) (text : List Char) : Option (Nat × List Char) := do
  let digits ← (text.take size).mapM Decimal.digit?
  let number := digits.foldl (fun number digit => number * 10 + digit) 0
  if digits.length = size ∧ low ≤ number ∧ number ≤ high then return (number, text.drop size)
  else none

/-- The text behind a character. -/
def pass? (c : Char) : List Char → Option (List Char)
  | d :: rest => if d = c then some rest else none
  | [] => none

/-- A number with zeros before it. -/
def padded (size n : Nat) : List Char :=
  (Decimal.digits n).leftpad size '0'

def daysIn (year month : Nat) : Nat :=
  if month = 2 then
    if year % 4 = 0 ∧ (year % 100 ≠ 0 ∨ year % 400 = 0) then 29 else 28
  else if [4, 6, 9, 11].contains month then 30
  else 31

def readDate (text : List Char) : Option (List Char × List Char) := do
  let (year, rest) ← readFixed 4 0 9999 text
  let (month, rest) ← readFixed 2 1 12 (← pass? '-' rest)
  let (day, rest) ← readFixed 2 1 (daysIn year month) (← pass? '-' rest)
  return (padded 4 year ++ ['-'] ++ padded 2 month ++ ['-'] ++ padded 2 day, rest)

/-- The fraction of a second, if there is one. -/
def readSecondFraction (text : List Char) : List Char × List Char :=
  let digits := (text.drop 1).takeWhile Char.isDigit
  if text.head? ≠ some '.' ∨ digits.isEmpty then ([], text)
  else
    let shown := ((digits.take 9).reverse.dropWhile (· = '0')).reverse
    (if shown.isEmpty then [] else '.' :: shown, text.drop (1 + digits.length))

def readTime (text : List Char) : Option (List Char × List Char) := do
  let (hour, rest) ← readFixed 2 0 23 text
  let (minute, rest) ← readFixed 2 0 59 (← pass? ':' rest)
  let (second, rest) ← readFixed 2 0 60 (← pass? ':' rest)
  let (fraction, rest) := readSecondFraction rest
  return (padded 2 hour ++ [':'] ++ padded 2 minute ++ [':'] ++ padded 2 second ++ fraction, rest)

/-- An offset, if there is one. One of no minutes is written as positive. -/
def readOffset : List Char → Option (List Char × List Char)
  | c :: text =>
      if c = 'Z' || c = 'z' then some (['Z'], text)
      else if c = '+' || c = '-' then do
        let (hours, rest) ← readFixed 2 0 23 text
        let (minutes, rest) ← readFixed 2 0 59 (← pass? ':' rest)
        let sign := if hours = 0 ∧ minutes = 0 then '+' else c
        return ([sign] ++ padded 2 hours ++ [':'] ++ padded 2 minutes, rest)
      else some ([], c :: text)
  | [] => some ([], [])

/-- A time and its offset behind a date. -/
def readDayTime : List Char → Option (List Char × List Char)
  | c :: text =>
      if c = 'T' || c = 't' || c = ' ' then do
        let (time, rest) ← readTime text
        let (offset, rest) ← readOffset rest
        return (['T'] ++ time ++ offset, rest)
      else none
  | [] => none

/-- A date, a time, or both. -/
def readMoment (text : List Char) : Option (String × List Char) :=
  match readDate text with
  | some (date, rest) =>
      let (time, rest) := (readDayTime rest).getD ([], rest)
      some (String.ofList (date ++ time), rest)
  | none => (readTime text).map fun (time, rest) => (String.ofList time, rest)

end MarkMachine.Settings.Toml
