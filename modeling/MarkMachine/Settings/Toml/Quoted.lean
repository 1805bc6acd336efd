import MarkMachine.Json.Reader

/-! Strings in TOML. Double quotes enclose strings with escapes, single quotes strings that stand as they
are. Three quotes of a kind enclose strings with line breaks; a line break right behind the opening
quotes does not count, and one that is escaped vanishes with all blanks and line breaks behind it. -/

namespace MarkMachine.Settings.Toml

/-- The text without the spaces and tabs at its front. -/
def trimBlanks (text : List Char) : List Char :=
  text.dropWhile fun c => c = ' ' || c = '\t'

/-- The text behind a line break. -/
def passBreak? : List Char → Option (List Char)
  | '\n' :: rest => some rest
  | '\r' :: '\n' :: rest => some rest
  | _ => none

/-- The text without the blanks and line breaks at its front. -/
def trimBreaks : List Char → List Char
  | ' ' :: rest => trimBreaks rest
  | '\t' :: rest => trimBreaks rest
  | '\n' :: rest => trimBreaks rest
  | '\r' :: '\n' :: rest => trimBreaks rest
  | text => text

/-- Whether a character may stand in a comment or a string. -/
def isPlain (c : Char) : Bool :=
  c = '\t' || (0x20 ≤ c.toNat && c.toNat ≠ 0x7F)

/-- A code point of so many hexadecimal digits. -/
def readCodePoint (count : Nat) (text : List Char) : Option (Char × List Char) := do
  if text.length < count then none
  let digits ← (text.take count).mapM Json.hexDigit?
  let value := digits.foldl (fun value digit => value * 16 + digit) 0
  if value.isValidChar then return (Char.ofNat value, text.drop count) else none

def readEscape : List Char → Option (Char × List Char)
  | 'b' :: rest => some ('\x08', rest)
  | 't' :: rest => some ('\t', rest)
  | 'n' :: rest => some ('\n', rest)
  | 'f' :: rest => some ('\x0c', rest)
  | 'r' :: rest => some ('\r', rest)
  | '"' :: rest => some ('"', rest)
  | '\\' :: rest => some ('\\', rest)
  | 'u' :: rest => readCodePoint 4 rest
  | 'U' :: rest => readCodePoint 8 rest
  | _ => none

/-- The characters up to a double quote, with escapes. -/
def readBasic : Nat → List Char → Option (List Char × List Char)
  | 0, _ => none
  | fuel + 1, text =>
      match text with
      | [] => none
      | '"' :: rest => some ([], rest)
      | '\\' :: rest => do
          let (c, rest) ← readEscape rest
          let (chars, rest) ← readBasic fuel rest
          return (c :: chars, rest)
      | c :: rest =>
          if isPlain c then do
            let (chars, rest) ← readBasic fuel rest
            return (c :: chars, rest)
          else none

/-- The characters up to a single quote, as they are. -/
def readLiteral : List Char → Option (List Char × List Char)
  | [] => none
  | '\'' :: rest => some ([], rest)
  | c :: rest =>
      if isPlain c then do
        let (chars, rest) ← readLiteral rest
        return (c :: chars, rest)
      else none

/-- What is behind three quotes that end a string: up to two more of them belong to the string. -/
def closeLong (quote : Char) (text : List Char) : List Char × List Char :=
  let more := (text.take 2).takeWhile (· = quote)
  (more, text.drop more.length)

/-- The characters up to three quotes, over line breaks. Escapes count between double quotes only. -/
def readLong (quote : Char) : Nat → List Char → Option (List Char × List Char)
  | 0, _ => none
  | fuel + 1, text =>
      let go (c : Char) (rest : List Char) : Option (List Char × List Char) := do
        let (chars, rest) ← readLong quote fuel rest
        return (c :: chars, rest)
      if [quote, quote, quote].isPrefixOf text then some (closeLong quote (text.drop 3))
      else
        match passBreak? text, text with
        | some rest, _ => go '\n' rest
        | none, [] => none
        | none, c :: rest =>
            if c = '\\' && quote = '"' then
              match passBreak? (trimBlanks rest) with
              | some rest => readLong quote fuel (trimBreaks rest)
              | none => do
                  let (c, rest) ← readEscape rest
                  go c rest
            else if isPlain c then go c rest
            else none

/-- A string on one line. -/
def readString : List Char → Option (String × List Char)
  | '"' :: rest => do
      let (chars, rest) ← readBasic (rest.length + 1) rest
      return (String.ofList chars, rest)
  | '\'' :: rest => do
      let (chars, rest) ← readLiteral rest
      return (String.ofList chars, rest)
  | _ => none

def readAnyString (text : List Char) : Option (String × List Char) :=
  match text with
  | a :: b :: c :: rest =>
      if (a = '"' || a = '\'') && b = a && c = a then do
        let (chars, rest) ← readLong a (rest.length + 1) ((passBreak? rest).getD rest)
        return (String.ofList chars, rest)
      else readString text
  | _ => readString text

end MarkMachine.Settings.Toml
