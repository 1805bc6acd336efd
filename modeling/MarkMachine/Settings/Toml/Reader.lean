import MarkMachine.Settings.Toml.Document
import MarkMachine.Settings.Toml.Moment
import MarkMachine.Settings.Toml.Number
import MarkMachine.Settings.Toml.Quoted

/-! Reading TOML. A text is first read as a list of statements; those are then put together, which fails
if something is defined twice. Values do not nest without limit, and keys do not have parts without
limit. -/

namespace MarkMachine.Settings.Toml

def passComment : List Char → Option (List Char)
  | '#' :: rest =>
      let (comment, later) := rest.span fun c => c ≠ '\n' && c ≠ '\r'
      if comment.all isPlain then some later else none
  | text => some text

/-- The text behind what may stand at the end of a line: blanks, a comment and the line break. -/
def passLineEnd (text : List Char) : Option (List Char) := do
  let text ← passComment (trimBlanks text)
  if text.isEmpty then some [] else passBreak? text

/-- The text behind blanks, comments and line breaks. -/
def passLines : Nat → List Char → Option (List Char)
  | 0, text => some text
  | fuel + 1, text => do
      let text ← passComment (trimBlanks text)
      match passBreak? text with
      | some rest => passLines fuel rest
      | none => some text

/-- Whether a character may stand in a key without quotes. -/
def isKeyChar (c : Char) : Bool :=
  c.isAlphanum || c = '_' || c = '-'

def readKeyPart (text : List Char) : Option (String × List Char) :=
  match text with
  | '"' :: _ => readString text
  | '\'' :: _ => readString text
  | _ =>
      let (word, rest) := text.span isKeyChar
      if word.isEmpty then none else some (String.ofList word, rest)

/-- How many parts a key can have, and how deep arrays and inline tables can nest. -/
def depthLimit : Nat := 79

/-- A key of at most so many parts, with points between them. -/
def readKey : Nat → List Char → Option (List String × List Char)
  | 0, _ => none
  | room + 1, text => do
      let (part, rest) ← readKeyPart (trimBlanks text)
      match trimBlanks rest with
      | '.' :: rest =>
          let (path, rest) ← readKey room rest
          return (part :: path, rest)
      | rest => return ([part], rest)

/-- A value that holds no others. -/
def readScalar (text : List Char) : Option (Tree × List Char) :=
  match text with
  | '"' :: _ => (readAnyString text).map fun (value, rest) => (.text value, rest)
  | '\'' :: _ => (readAnyString text).map fun (value, rest) => (.text value, rest)
  | 't' :: 'r' :: 'u' :: 'e' :: rest => some (.bool true, rest)
  | 'f' :: 'a' :: 'l' :: 's' :: 'e' :: rest => some (.bool false, rest)
  | _ =>
      match readMoment text with
      | some (moment, rest) => some (.text moment, rest)
      | none => readNumber text

mutual

/-- A value, in which arrays and inline tables nest `room` deep at most. -/
def readValue : Nat → Nat → List Char → Option (Tree × List Char)
  | 0, _, _ => none
  | fuel + 1, room, text =>
      match text with
      | '[' :: rest => do
          if room = 0 then none
          let (items, rest) ← readItems fuel (room - 1) rest
          return (.array items, rest)
      | '\x7b' :: rest => do
          if room = 0 then none
          let (fields, rest) ← readFields fuel (room - 1) [] rest
          return (.table (treesOfFields fields), rest)
      | text => readScalar text

/-- The items of an array and its closing bracket; they may stand on many lines. -/
def readItems : Nat → Nat → List Char → Option (List Tree × List Char)
  | 0, _, _ => none
  | fuel + 1, room, text => do
      match ← passLines text.length text with
      | ']' :: rest => return ([], rest)
      | text =>
          let (item, rest) ← readValue fuel room text
          match ← passLines rest.length rest with
          | ']' :: rest => return ([item], rest)
          | ',' :: rest =>
              let (items, rest) ← readItems fuel room rest
              return (item :: items, rest)
          | _ => none

/-- The fields of an inline table and its closing brace, all on one line. -/
def readFields : Nat → Nat → Fields → List Char → Option (Fields × List Char)
  | 0, _, _, _ => none
  | fuel + 1, room, fields, text =>
      match trimBlanks text with
      | '\x7d' :: rest => if fields.isEmpty then some (fields, rest) else none
      | text => do
          let (path, rest) ← readKey depthLimit text
          match rest with
          | '=' :: rest =>
              let (value, rest) ← readValue fuel room (trimBlanks rest)
              let fields ← fields.assignAt? path value
              match trimBlanks rest with
              | '\x7d' :: rest => return (fields, rest)
              | ',' :: rest => readFields fuel room fields rest
              | _ => none
          | _ => none

end

/-- A statement at the front of a text, up to the end of its line. -/
def readStatement (text : List Char) : Option (Statement × List Char) := do
  match text with
  | '[' :: '[' :: rest =>
      let (path, rest) ← readKey depthLimit rest
      match rest with
      | ']' :: ']' :: rest => return (.series path, ← passLineEnd rest)
      | _ => none
  | '[' :: rest =>
      let (path, rest) ← readKey depthLimit rest
      match rest with
      | ']' :: rest => return (.table path, ← passLineEnd rest)
      | _ => none
  | _ =>
      let (path, rest) ← readKey depthLimit text
      match rest with
      | '=' :: rest =>
          let rest := trimBlanks rest
          let (value, rest) ← readValue (rest.length + 1) depthLimit rest
          return (.assign path value, ← passLineEnd rest)
      | _ => none

def readStatements : Nat → List Char → Option (List Statement)
  | 0, _ => none
  | fuel + 1, text => do
      match ← passLines text.length text with
      | [] => return []
      | text =>
          let (statement, rest) ← readStatement text
          let statements ← readStatements fuel rest
          return statement :: statements

/-- The fields at the top of a text. A byte order mark may stand before it. -/
def read (text : List Char) : Option (List (String × Tree)) := do
  let text := if text.head? = some '﻿' then text.tail else text
  let statements ← readStatements (text.length + 1) text
  return treesOfFields (← build? [] [] statements)

end MarkMachine.Settings.Toml
