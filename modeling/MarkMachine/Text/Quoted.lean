import MarkMachine.Text.Hidden

/-! Characters and texts in quotes. The characters that have a short escape use it, the quote itself is
escaped, and a character that does not show by itself is written as its code point. -/

namespace MarkMachine.Quoted

/-- A code point as an escape. -/
def codePoint (c : Char) : List Char :=
  ['\\', 'u', '\x7b'] ++ Nat.toDigits 16 c.toNat ++ ['\x7d']

/-- A character between quotes of the given kind. -/
def escape (quote c : Char) : List Char :=
  if c = '\x00' then ['\\', '0']
  else if c = '\t' then ['\\', 't']
  else if c = '\n' then ['\\', 'n']
  else if c = '\r' then ['\\', 'r']
  else if c = '\\' ∨ c = quote then ['\\', c]
  else if Hidden.isHidden c then codePoint c
  else [c]

/-- A character in single quotes. -/
def char (c : Char) : String :=
  String.ofList (['\''] ++ escape '\'' c ++ ['\''])

/-- A text in double quotes. -/
def text (chars : List Char) : String :=
  String.ofList (['"'] ++ chars.flatMap (escape '"') ++ ['"'])

end MarkMachine.Quoted
