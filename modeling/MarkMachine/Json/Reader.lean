import MarkMachine.Json.Basic

/-! Reading JSON text. Every reader takes what it reads off the front of the text. The nesting of a
document, and the number of items in an array, are bounded by the length of the text that is left. -/

namespace MarkMachine.Json

/-- The text without the blanks at its front. -/
def trimBlanks (text : List Char) : List Char :=
  text.dropWhile fun c => c = ' ' || c = '\t' || c = '\n' || c = '\r'

def hexDigit? (c : Char) : Option Nat :=
  if '0' ≤ c ∧ c ≤ '9' then some (c.toNat - '0'.toNat)
  else if 'a' ≤ c ∧ c ≤ 'f' then some (c.toNat - 'a'.toNat + 10)
  else if 'A' ≤ c ∧ c ≤ 'F' then some (c.toNat - 'A'.toNat + 10)
  else none

/-- A number of four hexadecimal digits. -/
def readHex : List Char → Option (Nat × List Char)
  | a :: b :: c :: d :: rest => do
      let high := (← hexDigit? a) * 16 + (← hexDigit? b)
      let low := (← hexDigit? c) * 16 + (← hexDigit? d)
      return (high * 256 + low, rest)
  | _ => none

/-- The character behind a backslash and a `u`; two halves of a pair stand for one character. -/
def readCodePoint (text : List Char) : Option (Char × List Char) := do
  let (high, rest) ← readHex text
  if 0xD800 ≤ high ∧ high < 0xDC00 then
    match rest with
    | '\\' :: 'u' :: rest =>
        let (low, rest) ← readHex rest
        if 0xDC00 ≤ low ∧ low < 0xE000 then
          return (Char.ofNat (0x10000 + (high - 0xD800) * 0x400 + (low - 0xDC00)), rest)
        else none
    | _ => none
  else if high.isValidChar then return (Char.ofNat high, rest)
  else none

/-- The character behind a backslash. -/
def readEscape : List Char → Option (Char × List Char)
  | '"' :: rest => some ('"', rest)
  | '\\' :: rest => some ('\\', rest)
  | '/' :: rest => some ('/', rest)
  | 'b' :: rest => some ('\x08', rest)
  | 'f' :: rest => some ('\x0c', rest)
  | 'n' :: rest => some ('\n', rest)
  | 'r' :: rest => some ('\r', rest)
  | 't' :: rest => some ('\t', rest)
  | 'u' :: rest => readCodePoint rest
  | _ => none

/-- The characters of a string whose opening quote has been read, with at most `fuel` of them. -/
def readChars : Nat → List Char → Option (List Char × List Char)
  | 0, _ => none
  | fuel + 1, text =>
      match text with
      | [] => none
      | '"' :: rest => some ([], rest)
      | '\\' :: rest => do
          let (c, rest) ← readEscape rest
          let (chars, rest) ← readChars fuel rest
          return (c :: chars, rest)
      | c :: rest =>
          if c.toNat < 0x20 then none
          else do
            let (chars, rest) ← readChars fuel rest
            return (c :: chars, rest)

/-- A string whose opening quote has been read. -/
def readString (text : List Char) : Option (String × List Char) := do
  let (chars, rest) ← readChars (text.length + 1) text
  return (String.ofList chars, rest)

/-- The digits at the front of a text; there has to be one. -/
def readDigits (text : List Char) : Option (List Char × List Char) :=
  let (digits, rest) := text.span fun c => '0' ≤ c && c ≤ '9'
  if digits.isEmpty then none else some (digits, rest)

/-- The digits before the point: no zero stands in front of others. -/
def readWhole (text : List Char) : Option (List Char × List Char) := do
  let (digits, rest) ← readDigits text
  if digits.head? = some '0' ∧ digits.length ≠ 1 then none else return (digits, rest)

/-- A point and the digits behind it, if there is one. -/
def readFraction : List Char → Option (List Char × List Char)
  | '.' :: rest => do
      let (digits, rest) ← readDigits rest
      return ('.' :: digits, rest)
  | text => some ([], text)

def readExponent : List Char → Option (List Char × List Char)
  | e :: rest =>
      if e = 'e' ∨ e = 'E' then
        match rest with
        | sign :: later =>
            if sign = '+' ∨ sign = '-' then do
              let (digits, rest) ← readDigits later
              return (e :: sign :: digits, rest)
            else do
              let (digits, rest) ← readDigits rest
              return (e :: digits, rest)
        | [] => none
      else some ([], e :: rest)
  | [] => some ([], [])

def readNumber (text : List Char) : Option (Json × List Char) := do
  let (sign, text) :=
    match text with
    | '-' :: rest => (['-'], rest)
    | _ => ([], text)
  let (whole, rest) ← readWhole text
  let (fraction, rest) ← readFraction rest
  let (exponent, rest) ← readExponent rest
  let magnitude : Nat := whole.foldl (fun value digit => value * 10 + (digit.toNat - '0'.toNat)) 0
  if fraction.isEmpty ∧ exponent.isEmpty ∧ ¬(sign = ['-'] ∧ magnitude = 0) then
    return (.integer (if sign.isEmpty then magnitude else -magnitude), rest)
  else return (.real (sign ++ whole ++ fraction ++ exponent), rest)

mutual

/-- A document, with blanks before it. -/
def readValue : Nat → List Char → Option (Json × List Char)
  | 0, _ => none
  | fuel + 1, text =>
      match trimBlanks text with
      | 'n' :: 'u' :: 'l' :: 'l' :: rest => some (.null, rest)
      | 't' :: 'r' :: 'u' :: 'e' :: rest => some (.bool true, rest)
      | 'f' :: 'a' :: 'l' :: 's' :: 'e' :: rest => some (.bool false, rest)
      | '"' :: rest => do
          let (value, rest) ← readString rest
          return (.string value, rest)
      | '[' :: rest => do
          let (items, rest) ← readItems fuel rest
          return (.array items, rest)
      | '\x7b' :: rest => do
          let (fields, rest) ← readFields fuel rest
          return (.object fields, rest)
      | text => readNumber text

/-- The items of an array and its closing bracket. -/
def readItems : Nat → List Char → Option (List Json × List Char)
  | 0, _ => none
  | fuel + 1, text =>
      match trimBlanks text with
      | ']' :: rest => some ([], rest)
      | text => do
          let (item, rest) ← readValue fuel text
          let (items, rest) ← readMoreItems fuel rest
          return (item :: items, rest)

/-- The items behind the first, each after a comma, and the closing bracket. -/
def readMoreItems : Nat → List Char → Option (List Json × List Char)
  | 0, _ => none
  | fuel + 1, text =>
      match trimBlanks text with
      | ']' :: rest => some ([], rest)
      | ',' :: rest => do
          let (item, rest) ← readValue fuel rest
          let (items, rest) ← readMoreItems fuel rest
          return (item :: items, rest)
      | _ => none

/-- The fields of an object and its closing brace. -/
def readFields : Nat → List Char → Option (List (String × Json) × List Char)
  | 0, _ => none
  | fuel + 1, text =>
      match trimBlanks text with
      | '\x7d' :: rest => some ([], rest)
      | text => do
          let (field, rest) ← readField fuel text
          let (fields, rest) ← readMoreFields fuel rest
          return (field :: fields, rest)

/-- The fields behind the first, each after a comma, and the closing brace. -/
def readMoreFields : Nat → List Char → Option (List (String × Json) × List Char)
  | 0, _ => none
  | fuel + 1, text =>
      match trimBlanks text with
      | '\x7d' :: rest => some ([], rest)
      | ',' :: rest => do
          let (field, rest) ← readField fuel rest
          let (fields, rest) ← readMoreFields fuel rest
          return (field :: fields, rest)
      | _ => none

/-- A name, a colon and a document. -/
def readField : Nat → List Char → Option ((String × Json) × List Char)
  | 0, _ => none
  | fuel + 1, text =>
      match trimBlanks text with
      | '"' :: rest => do
          let (name, rest) ← readString rest
          match trimBlanks rest with
          | ':' :: rest =>
              let (value, rest) ← readValue fuel rest
              return ((name, value), rest)
          | _ => none
      | _ => none

end

/-- The document that a text is. -/
def ofText? (text : String) : Option Json := do
  let chars := text.toList
  let (document, rest) ← readValue (2 * chars.length + 1) chars
  if (trimBlanks rest).isEmpty then return document else none

end MarkMachine.Json
