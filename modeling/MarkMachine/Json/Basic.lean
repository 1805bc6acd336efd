import MarkMachine.Text.Decimal

/-! JSON documents and their text. Whole numbers are kept apart from all other numbers, of which only the
literal is kept: nothing here counts with fractions. -/

namespace MarkMachine

/-- A JSON document. -/
inductive Json where
  | null
  | bool (value : Bool)
  | integer (value : Int)
  /-- A number with a fraction, an exponent or a negative zero, as it is written. -/
  | real (literal : List Char)
  | string (value : String)
  | array (items : List Json)
  | object (fields : List (String × Json))
  deriving Inhabited

namespace Json

/-- The value of a field. A document is read as a whole before anything is made of it, and of several fields
with one name the last is then the one that is kept. -/
def find? (name : String) (fields : List (String × Json)) : Option Json :=
  (fields.reverse.find? fun field => field.1 = name).map Prod.snd

def field? (name : String) : Json → Option Json
  | .object fields => find? name fields
  | _ => none

/-- A character in a JSON string. -/
def escape (c : Char) : List Char :=
  if c = '"' ∨ c = '\\' then ['\\', c]
  else if c = '\n' then ['\\', 'n']
  else if c = '\r' then ['\\', 'r']
  else if c = '\t' then ['\\', 't']
  else if c = '\x08' then ['\\', 'b']
  else if c = '\x0c' then ['\\', 'f']
  else if c.toNat < 0x20 then ['\\', 'u'] ++ (Nat.toDigits 16 c.toNat).leftpad 4 '0'
  else [c]

/-- A text as a JSON string. -/
def quote (text : String) : List Char :=
  ['"'] ++ text.toList.flatMap escape ++ ['"']

/-- A document without arrays and objects; the text of those is left out. -/
def scalar : Json → List Char
  | .null => "null".toList
  | .bool true => "true".toList
  | .bool false => "false".toList
  | .integer value => Decimal.chars value
  | .real literal => literal
  | .string value => quote value
  | .array _ => []
  | .object _ => []

mutual

/-- The text of a document without blanks. -/
def compact : Json → List Char
  | .array items => ['['] ++ compactItems items ++ [']']
  | .object fields => ['\x7b'] ++ compactFields fields ++ ['\x7d']
  | document => scalar document

def compactItems : List Json → List Char
  | [] => []
  | [item] => compact item
  | item :: later => compact item ++ ',' :: compactItems later

def compactFields : List (String × Json) → List Char
  | [] => []
  | [(name, value)] => quote name ++ ':' :: compact value
  | (name, value) :: later => quote name ++ ':' :: compact value ++ ',' :: compactFields later

end

/-- A line break and the indentation behind it, two blanks for each level. -/
def newline (level : Nat) : List Char :=
  '\n' :: List.replicate (2 * level) ' '

mutual

/-- The text of a document with an item or field on each line. -/
def pretty (level : Nat) : Json → List Char
  | .array [] => ['[', ']']
  | .array items => ['['] ++ prettyItems (level + 1) items ++ newline level ++ [']']
  | .object [] => ['\x7b', '\x7d']
  | .object fields => ['\x7b'] ++ prettyFields (level + 1) fields ++ newline level ++ ['\x7d']
  | document => scalar document

def prettyItems (level : Nat) : List Json → List Char
  | [] => []
  | [item] => newline level ++ pretty level item
  | item :: later => newline level ++ pretty level item ++ ',' :: prettyItems level later

def prettyFields (level : Nat) : List (String × Json) → List Char
  | [] => []
  | [(name, value)] => newline level ++ quote name ++ ':' :: ' ' :: pretty level value
  | (name, value) :: later =>
      newline level ++ quote name ++ ':' :: ' ' :: pretty level value ++
        ',' :: prettyFields level later

end

/-- The text of a document on one line. -/
def text (document : Json) : String :=
  String.ofList document.compact

/-- The text of a document over many lines. -/
def prettyText (document : Json) : String :=
  String.ofList (document.pretty 0)

end Json

end MarkMachine
