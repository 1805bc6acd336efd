import MarkMachine.Json.Reader
import MarkMachine.Pattern.Basic
import MarkMachine.Text.Alphanumeric
import MarkMachine.Text.Blank

/-! Reading patterns. In a filter a pattern stands before a closing brace and so holds none. An opening
brace is therefore never closed: it is a character if it is escaped or in a set, and else an error, as
are numbered repetitions and everything else that is written in braces. Neither references to groups
nor conditions on the text around are patterns. -/

namespace MarkMachine.Pattern

/-- The text behind space and comments, if those are passed over. A comment reaches to the end of its
line. -/
def skip (spacing : Bool) : List Char → List Char
  | text => if spacing then go false text else text
where
  /-- Passes over space, or over the rest of a comment. -/
  go (inComment : Bool) : List Char → List Char
    | [] => []
    | c :: rest =>
        if inComment then go (c ≠ '\n') rest
        else if c = '#' then go true rest
        else if Blank.isBlank c then go false rest
        else c :: rest

/-- A number of hexadecimal digits. -/
def readDigits (spacing : Bool) : Nat → List Char → Option (List Nat × List Char)
  | 0, text => some ([], text)
  | count + 1, text =>
      match skip spacing text with
      | [] => none
      | c :: rest => do
          let digit ← Json.hexDigit? c
          let (digits, rest) ← readDigits spacing count rest
          return (digit :: digits, rest)

/-- A character by its code point. With two digits it can be meant as a byte. -/
def readCodePoint (spacing : Bool) (count : Nat) (text : List Char) :
    Option (Pattern × List Char) := do
  let (digits, rest) ← readDigits spacing count text
  let value := digits.foldl (fun value digit => value * 16 + digit) 0
  if value.isValidChar then return (.char (Char.ofNat value) (count = 2), rest) else none

/-- What a letter behind a backslash stands for. -/
def ofLetter? : Char → Option Pattern
  | 'a' => some (.char '\x07' false)
  | 'f' => some (.char '\x0c' false)
  | 't' => some (.char '\t' false)
  | 'n' => some (.char '\n' false)
  | 'r' => some (.char '\r' false)
  | 'v' => some (.char '\x0b' false)
  | 'A' => some .edge
  | 'z' => some .edge
  | 'b' => some .wordEdge
  | 'B' => some .wordEdge
  | '<' => some .wordEdge
  | '>' => some .wordEdge
  | 'd' => some (.kind false)
  | 's' => some (.kind false)
  | 'w' => some (.kind false)
  | 'D' => some (.kind true)
  | 'S' => some (.kind true)
  | 'W' => some (.kind true)
  | _ => none

/-- What stands behind a backslash. All of ASCII but letters, digits and the angles stands for itself.
Properties of characters are not known. -/
def readEscape (spacing : Bool) : List Char → Option (Pattern × List Char)
  | [] => none
  | 'x' :: rest => readCodePoint spacing 2 rest
  | 'u' :: rest => readCodePoint spacing 4 rest
  | 'U' :: rest => readCodePoint spacing 8 rest
  | c :: rest =>
      if c.toNat < 0x80 && !c.isAlphanum && c ≠ '<' && c ≠ '>' then some (.char c false, rest)
      else (ofLetter? c).map fun pattern => (pattern, rest)

def classNames : List String :=
  ["alnum", "alpha", "ascii", "blank", "cntrl", "digit", "graph", "lower", "print", "punct", "space",
    "upper", "word", "xdigit"]

/-- An ASCII class behind its opening bracket: a name between colons. -/
def readNamed : List Char → Option (CharSet × List Char)
  | ':' :: text => do
      let negated := text.head? = some '^'
      let (name, rest) := (if negated then text.tail else text).span (· ≠ ':')
      match rest with
      | ':' :: ']' :: rest =>
          if classNames.contains (String.ofList name) then return (.named negated, rest) else none
      | _ => none
  | _ => none

/-- An item of a set before it is known whether it begins a range. -/
def readItem (spacing : Bool) : List Char → Option (Pattern × List Char)
  | [] => none
  | '\\' :: rest => readEscape spacing rest
  | c :: rest => some (.char c false, rest)

/-- A pattern as an item of a set. -/
def CharSet.ofItem? : Pattern → Option CharSet
  | .char c _ => some (.char c)
  | .kind negated => some (.kind negated)
  | _ => none

/-- A range from one item to another. -/
def CharSet.ofBounds? : Pattern → Pattern → Option CharSet
  | .char first _, .char last _ => if first ≤ last then some (.range first last) else none
  | _, _ => none

/-- An item of a set, or a range. A dash before the end or before another dash makes no range. -/
def readRange (spacing : Bool) (text : List Char) : Option (CharSet × List Char) := do
  let (first, rest) ← readItem spacing text
  match skip spacing rest with
  | '-' :: later =>
      let later := skip spacing later
      if later.head? = some ']' || later.head? = some '-' then
        return (← CharSet.ofItem? first, '-' :: later)
      else
        let (last, rest) ← readItem spacing later
        return (← CharSet.ofBounds? first last, rest)
  | rest => return (← CharSet.ofItem? first, rest)

/-- The dashes at the front of a set, which stand for themselves, and what is behind them. -/
def readDashes (spacing : Bool) : Nat → List Char → List CharSet × List Char
  | fuel + 1, '-' :: rest =>
      let (dashes, rest) := readDashes spacing fuel (skip spacing rest)
      (.char '-' :: dashes, rest)
  | _, text => ([], text)

/-- What stands at the front of a set for itself: dashes, or else a closing bracket. -/
def readFront (spacing : Bool) (text : List Char) : List CharSet × List Char :=
  match readDashes spacing text.length text with
  | ([], ']' :: rest) => ([.char ']'], rest)
  | front => front

/-- A set behind what has been combined before it. -/
def CharSet.behind (left : Option CharSet) (parts : List CharSet) : CharSet :=
  match left with
  | some left => .combined left (ofParts parts)
  | none => ofParts parts

mutual

/-- A set behind its opening bracket. -/
def readSet : Nat → Bool → List Char → Option (CharSet × List Char)
  | 0, _, _ => none
  | fuel + 1, spacing, text => do
      let text := skip spacing text
      let negated := text.head? = some '^'
      let text := if negated then skip spacing text.tail else text
      let (front, text) := readFront spacing text
      let (inner, rest) ← readParts fuel spacing none front text
      return (.nested negated inner, rest)

/-- The rest of a set behind `parts`, which stand behind the set `left`. -/
def readParts : Nat → Bool → Option CharSet → List CharSet → List Char →
    Option (CharSet × List Char)
  | 0, _, _, _, _ => none
  | fuel + 1, spacing, left, parts, text =>
      match skip spacing text with
      | [] => none
      | ']' :: rest => some (CharSet.behind left parts, rest)
      | '[' :: rest => do
          let (part, rest) ← (readNamed rest).orElse fun _ => readSet fuel spacing rest
          readParts fuel spacing left (parts ++ [part]) rest
      | '&' :: '&' :: rest => readParts fuel spacing (some (CharSet.behind left parts)) [] rest
      | '-' :: '-' :: rest => readParts fuel spacing (some (CharSet.behind left parts)) [] rest
      | '~' :: '~' :: rest => readParts fuel spacing (some (CharSet.behind left parts)) [] rest
      | text => do
          let (part, rest) ← readRange spacing text
          readParts fuel spacing left (parts ++ [part]) rest

end

/-- What flags change, a dash before those that are turned off. No flag is given twice, and a dash is
before some flag. -/
def Changes.ofFlags? (word : List Char) : Option Changes :=
  if word.all ("imsUuRx-".toList.contains ·) && word.eraseDups.length = word.length &&
      word.getLast? ≠ some '-' then
    let state (flag : Char) : Option Bool :=
      if word.contains flag then some ((word.takeWhile (· ≠ '-')).contains flag) else none
    some { unicode := state 'u', ignoreCase := state 'i', spacing := state 'x' }
  else none

/-- What an opening parenthesis begins. -/
inductive Opening where
  /-- Flags without a group. -/
  | flags (changes : Changes)
  | group (changes : Changes) (name : Option String)

def isName : List Char → Bool
  | [] => false
  | c :: rest =>
      (c = '_' || Alphanumeric.isAlphabetic c) &&
        rest.all fun c => ['_', '.', '[', ']'].contains c || Alphanumeric.isAlphanumeric c

/-- A group behind the angle before its name. -/
def readName (text : List Char) : Option (Opening × List Char) :=
  let (name, rest) := text.span (· ≠ '>')
  if isName name && !rest.isEmpty then some (.group {} (some (String.ofList name)), rest.tail)
  else none

/-- What stands behind an opening parenthesis. -/
def readOpening : List Char → Option (Opening × List Char)
  | '?' :: 'P' :: '<' :: text => readName text
  | '?' :: '<' :: text => readName text
  | '?' :: text => do
      let (word, rest) := text.span fun c => c ≠ ':' && c ≠ ')'
      let changes ← Changes.ofFlags? word
      match rest with
      | ':' :: rest => return (.group changes none, rest)
      | ')' :: rest => if word.isEmpty then none else return (.flags changes, rest)
      | _ => none
  | text => some (.group {} none, text)

/-- Makes the last one of some parts a repeated one. Flags cannot be repeated. -/
def repeatLast? (parts : List Pattern) : Option (List Pattern) :=
  match parts.getLast? with
  | none => none
  | some (.flags _) => none
  | some part => some (parts.dropLast ++ [.repeated part])

/-- Reads on behind `branches` of a choice and `parts` of its next branch, up to a closing parenthesis or
the end. No two groups have the same one of the `names`. -/
def readOn : Nat → Bool → List String → List Pattern → List Pattern → List Char →
    Option (Pattern × List String × List Char)
  | 0, _, _, _, _, _ => none
  | fuel + 1, spacing, names, branches, parts, text =>
      let ended := ofBranches (branches ++ [ofParts parts])
      match skip spacing text with
      | [] => some (ended, names, [])
      | ')' :: rest => some (ended, names, ')' :: rest)
      | '|' :: rest => readOn fuel spacing names (branches ++ [ofParts parts]) [] rest
      | '(' :: rest => do
          match ← readOpening (skip spacing rest) with
          | (.flags changes, rest) =>
              readOn fuel (changes.spacing.getD spacing) names branches (parts ++ [.flags changes])
                rest
          | (.group changes name, rest) =>
              if name.any names.contains then none
              let (inner, names, rest) ←
                readOn fuel (changes.spacing.getD spacing) (names ++ name.toList) [] [] rest
              match rest with
              | ')' :: rest =>
                  readOn fuel spacing names branches (parts ++ [.group changes inner]) rest
              | _ => none
      | '[' :: rest => do
          let (inner, rest) ← readSet (2 * rest.length + 2) spacing rest
          readOn fuel spacing names branches (parts ++ [.brackets inner]) rest
      | '\\' :: rest => do
          let (part, rest) ← readEscape spacing rest
          readOn fuel spacing names branches (parts ++ [part]) rest
      | c :: rest => do
          if ['?', '*', '+'].contains c then
            let rest := if rest.head? = some '?' then rest.tail else rest
            readOn fuel spacing names branches (← repeatLast? parts) rest
          else if c = '\x7b' then none
          else
            let part : Pattern :=
              if c = '.' then .anyChar else if c = '^' || c = '$' then .edge else .char c false
            readOn fuel spacing names branches (parts ++ [part]) rest

def ofText? (text : List Char) : Option Pattern :=
  match readOn (text.length + 1) false [] [] [] text with
  | some (pattern, _, []) => some pattern
  | _ => none

end MarkMachine.Pattern
