import MarkMachine.Text.Alphanumeric
import MarkMachine.Text.Blank
import MarkMachine.Text.Utf8

/-! Environment variables, and files that add to them. Each line of such a file gives a name and a value,
with `export` before it or not; a value can be quoted, can mention other variables and, between
quotes, can go on over line breaks. A variable that is set already keeps its value. Reading ends at
the first line that is not understood, and the variables before it stay set. -/

namespace MarkMachine.Settings

/-- The value of each variable. -/
abbrev Variables := List (String × String)

namespace Variables

/-- What a line leaves open. -/
inductive Open where
  | nothing
  /-- A space was the last character. -/
  | space
  | escape
  | weak
  | weakEscape
  | strong
  | strongEscape
  deriving DecidableEq

/-- What the end of a line leaves open, and the part of it that stands before a comment. -/
def scanLine : Open → List Char → Open × List Char
  | state, [] => (state, [])
  | state, c :: rest =>
      let go (next : Open) : Open × List Char :=
        let (last, kept) := scanLine next rest
        (last, c :: kept)
      let word (c : Char) : Open :=
        if c = '\\' then .escape else if c = '"' then .weak else if c = '\'' then .strong else .nothing
      match state with
      | .nothing => if Blank.isBlank c && c ≠ '\n' && c ≠ '\r' then go .space else go (word c)
      | .space => if c = '#' then (.nothing, []) else go (word c)
      | .escape => go .nothing
      | .weak => if c = '\\' then go .weakEscape else if c = '"' then go .nothing else go .weak
      | .weakEscape => go .weak
      | .strong => if c = '\\' then go .strongEscape else if c = '\'' then go .nothing else go .strong
      | .strongEscape => go .strong

/-- Where the reading of a value stands. -/
inductive Place where
  | bare
  | strong
  | weak
  /-- Behind a backslash, between double quotes or not. -/
  | escaped (quoted : Bool)
  /-- In the name of a variable behind a dollar sign. -/
  | name (quoted : Bool) (sofar : List Char)
  /-- In the name of a variable in braces. -/
  | braced (quoted : Bool) (sofar : List Char)
  /-- Behind the value. -/
  | behind

/-- Back between double quotes or outside them. -/
def Place.back (quoted : Bool) : Place :=
  if quoted then .weak else .bare

/-- The characters of a value. `lookup` gives what a name stands for. -/
def readValue (lookup : List Char → List Char) : Place → List Char → Option (List Char)
  | .strong, [] => none
  | .weak, [] => none
  | .escaped true, [] => none
  | .name true _, [] => none
  | .braced _ _, [] => none
  | .name false sofar, [] => some (lookup sofar)
  | _, [] => some []
  | .behind, c :: rest =>
      if c = ' ' ∨ c = '\t' then readValue lookup .behind rest
      else if c = '#' then some []
      else none
  | .escaped quoted, c :: rest =>
      if c = '\\' ∨ c = '\'' ∨ c = '"' ∨ c = '$' ∨ c = ' ' then
        (readValue lookup (Place.back quoted) rest).map (c :: ·)
      else if c = 'n' then (readValue lookup (Place.back quoted) rest).map ('\n' :: ·)
      else none
  | .strong, c :: rest =>
      if c = '\'' then readValue lookup .bare rest
      else (readValue lookup .strong rest).map (c :: ·)
  | .name quoted sofar, c :: rest =>
      if Alphanumeric.isAlphanumeric c then readValue lookup (.name quoted (sofar ++ [c])) rest
      else if c = '\x7b' ∧ sofar = [] then readValue lookup (.braced quoted []) rest
      else if c = '$' then (readValue lookup (.name quoted []) rest).map (lookup sofar ++ ·)
      else (readValue lookup (Place.back quoted) rest).map (lookup sofar ++ c :: ·)
  | .braced quoted sofar, c :: rest =>
      if c = '\x7d' then (readValue lookup (Place.back quoted) rest).map (lookup sofar ++ ·)
      else readValue lookup (.braced quoted (sofar ++ [c])) rest
  | .weak, c :: rest =>
      if c = '$' then readValue lookup (.name true []) rest
      else if c = '"' then readValue lookup .bare rest
      else if c = '\\' then readValue lookup (.escaped true) rest
      else (readValue lookup .weak rest).map (c :: ·)
  | .bare, c :: rest =>
      if c = '$' then readValue lookup (.name false []) rest
      else if c = '\'' then readValue lookup .strong rest
      else if c = '"' then readValue lookup .weak rest
      else if c = '\\' then readValue lookup (.escaped false) rest
      else if c = ' ' ∨ c = '\t' then readValue lookup .behind rest
      else (readValue lookup .bare rest).map (c :: ·)

def readName (text : List Char) : Option (List Char × List Char) :=
  let isChar (c : Char) : Bool := c.isAlphanum || c = '_' || c = '.'
  match text with
  | c :: _ =>
      if c.isAlpha || c = '_' then some (text.takeWhile isChar, text.dropWhile isChar) else none
  | [] => none

/-- A name, an equals sign and the text behind them. -/
def readAssignment (text : List Char) : Option (List Char × List Char) := do
  let (name, rest) ← readName text
  match name == "export".toList, Blank.trimStart rest with
  | _, '=' :: rest => return (name, Blank.trimStart rest)
  | true, rest =>
      let (name, rest) ← readName rest
      match Blank.trimStart rest with
      | '=' :: rest => return (name, Blank.trimStart rest)
      | _ => none
  | false, _ => none

/-- What a line says: nothing, or a name and a value. Not to be understood is `none`. -/
def readLine (lookup : List Char → List Char) (line : List Char) :
    Option (Option (List Char × List Char)) := do
  match Blank.trim line with
  | [] => return none
  | '#' :: _ => return none
  | text =>
      let (name, rest) ← readAssignment text
      match rest with
      | [] => return some (name, [])
      | '#' :: _ => return some (name, [])
      | rest => return some (name, ← readValue lookup .bare rest)

def find? (vars : Variables) (name : String) : Option String :=
  vars.lookup name

/-- The bytes cut behind each line break. -/
def splitLines (bytes : List UInt8) : List (List UInt8) :=
  bytes.foldr (fun byte lines =>
    if byte = 0x0A then [byte] :: lines
    else
      match lines with
      | [] => [[byte]]
      | line :: later => (byte :: line) :: later) []

/-- Goes on reading the lines of a file. `given` are the values the file gave before and `pending` is the
beginning of an unfinished line. -/
def addLines (vars given : Variables) (pending : List Char) (state : Open) :
    List (List UInt8) → Variables
  | [] => vars
  | bytes :: later =>
      match Utf8.strict? bytes with
      | none => vars
      | some chars =>
          if (Blank.trimStart (pending ++ chars)).head? = some '#' then
            addLines vars given [] .nothing later
          else
            let (last, kept) := scanLine state chars
            if last ≠ .nothing then addLines vars given (pending ++ chars) last later
            else
              let lookup (name : List Char) : List Char :=
                let name := String.ofList name
                (((vars.find? name).orElse fun _ => given.find? name).getD "").toList
              match readLine lookup (pending ++ kept) with
              | none => vars
              | some none => addLines vars given [] .nothing later
              | some (some (name, value)) =>
                  let name := String.ofList name
                  let value := String.ofList value
                  let vars :=
                    if (vars.find? name).isSome then vars else vars ++ [(name, value)]
                  addLines vars ((name, value) :: given) [] .nothing later

def addFile (vars : Variables) (bytes : List UInt8) : Variables :=
  let bytes :=
    match bytes with
    | 0xEF :: 0xBB :: 0xBF :: rest => rest
    | _ => bytes
  addLines vars [] [] .nothing (splitLines bytes)

end Variables

end MarkMachine.Settings
