import MarkMachine.Text.Decimal

/-! Names of settings. A name is a path: a word, and behind it more words, each after a point, and numbers
of items in square brackets. A name that does not have this form stands for itself. -/

namespace MarkMachine.Settings

/-- A step into a tree of settings. -/
inductive Step where
  /-- Into the field of a table. -/
  | field (name : String)
  /-- To an item of an array; below zero they are counted from the end. -/
  | item (index : Int)
  deriving DecidableEq, Repr

namespace Step

/-- The characters that the words of a path are made of. -/
def isWordChar (c : Char) : Bool :=
  c.isAlphanum || c = ' ' || c = '_' || c = '-'

def readWord (text : List Char) : Option (Step × List Char) :=
  let word := text.takeWhile isWordChar
  if word.isEmpty then none else some (.field (String.ofList word), text.dropWhile isWordChar)

/-- The text without the spaces and tabs at its front. -/
def trimBlanks (text : List Char) : List Char :=
  text.dropWhile fun c => c = ' ' || c = '\t'

/-- The number of an item, behind its opening bracket. It has to fit in 64 bits. -/
def readItem (text : List Char) : Option (Step × List Char) := do
  let text := trimBlanks text
  let sign := text.takeWhile (· = '-')
  let digits := (text.drop sign.length).takeWhile (Decimal.digit? · |>.isSome)
  if sign.length > 1 || digits.isEmpty then none
  let index ← (Decimal.read (sign ++ digits)).toOption
  match trimBlanks (text.drop (sign.length + digits.length)) with
  | ']' :: rest => return (.item index.toInt, rest)
  | _ => none

/-- The steps behind the first word. -/
def readMore : Nat → List Char → Option (List Step)
  | _, [] => some []
  | 0, _ => none
  | fuel + 1, c :: text => do
      let (step, rest) ←
        if c = '.' then readWord text else if c = '[' then readItem text else none
      return step :: (← readMore fuel rest)

/-- The path that a name stands for. -/
def ofName (name : String) : List Step :=
  let path := do
    let (step, rest) ← readWord name.toList
    return step :: (← readMore rest.length rest)
  path.getD [.field name]

end Step

end MarkMachine.Settings
