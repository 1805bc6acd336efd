/-! Patterns that the value of a field can be asked to match. Whether a pattern can be used is decided
here; it is never matched, for nothing runs inside a span. A pattern cannot be used if it nests too
deep, or if it depends on tables of Unicode: on which characters are letters, digits or space, on the
edges of words, or on which letters are the same but for their case. With the flag for Unicode off
these mean ASCII, but then nothing may match a part of a character that is not ASCII. -/

namespace MarkMachine

namespace Pattern

/-- What flags change. Those that have no bearing on the use of a pattern are not kept. -/
structure Changes where
  unicode : Option Bool := none
  ignoreCase : Option Bool := none
  /-- Whether space and comments in the pattern are passed over. -/
  spacing : Option Bool := none
  deriving DecidableEq, Repr

/-- How a part of a pattern is meant. -/
structure Mode where
  unicode : Bool := true
  ignoreCase : Bool := false
  deriving DecidableEq, Repr

/-- The mode behind flags. -/
def Mode.change (mode : Mode) (changes : Changes) : Mode :=
  { unicode := changes.unicode.getD mode.unicode
    ignoreCase := changes.ignoreCase.getD mode.ignoreCase }

/-- What stands in brackets. -/
inductive CharSet where
  | empty
  | char (c : Char)
  | range (first last : Char)
  /-- An ASCII class with a name. -/
  | named (negated : Bool)
  /-- The digits, space, or the characters of words. -/
  | kind (negated : Bool)
  | nested (negated : Bool) (inner : CharSet)
  | union (parts : List CharSet)
  /-- What two sets have in common, or what one of them has alone. -/
  | combined (left right : CharSet)

namespace CharSet

/-- Some sets in a row. -/
def ofParts : List CharSet → CharSet
  | [] => .empty
  | [part] => part
  | parts => .union parts

mutual

/-- How deep sets nest. -/
def depth : CharSet → Nat
  | .nested _ inner => inner.depth + 1
  | .union parts => depthAll parts + 1
  | .combined left right => max left.depth right.depth + 1
  | _ => 0

def depthAll : List CharSet → Nat
  | [] => 0
  | part :: rest => max part.depth (depthAll rest)

end

mutual

def isUsable (mode : Mode) : CharSet → Bool
  | .empty => true
  | .char c => if mode.unicode then !mode.ignoreCase else c.toNat < 0x80
  | .range _ last => if mode.unicode then !mode.ignoreCase else last.toNat < 0x80
  | .named negated => if mode.unicode then !mode.ignoreCase else !negated
  | .kind negated => !mode.unicode && !negated
  | .nested negated inner => (mode.unicode || !negated) && inner.isUsable mode
  | .union parts => allUsable mode parts
  | .combined left right => left.isUsable mode && right.isUsable mode

def allUsable (mode : Mode) : List CharSet → Bool
  | [] => true
  | part :: rest => part.isUsable mode && allUsable mode rest

end

end CharSet

end Pattern

inductive Pattern where
  | empty
  /-- Flags for what follows in the same group. -/
  | flags (changes : Pattern.Changes)
  /-- A character. With the flag for Unicode off it can also be meant as a byte. -/
  | char (c : Char) (isByte : Bool)
  | anyChar
  /-- The beginning or the end of a line or of the text. -/
  | edge
  | wordEdge
  /-- The digits, space, or the characters of words. -/
  | kind (negated : Bool)
  | brackets (inner : Pattern.CharSet)
  | repeated (inner : Pattern)
  | group (changes : Pattern.Changes) (inner : Pattern)
  | sequence (parts : List Pattern)
  | choice (branches : List Pattern)

namespace Pattern

/-- Some patterns one behind the other. -/
def ofParts : List Pattern → Pattern
  | [] => .empty
  | [part] => part
  | parts => .sequence parts

def ofBranches : List Pattern → Pattern
  | [] => .empty
  | [branch] => branch
  | branches => .choice branches

mutual

/-- How deep a pattern nests. -/
def depth : Pattern → Nat
  | .brackets inner => inner.depth
  | .repeated inner => inner.depth + 1
  | .group _ inner => inner.depth + 1
  | .sequence parts => depthAll parts + 1
  | .choice branches => depthAll branches + 1
  | _ => 0

def depthAll : List Pattern → Nat
  | [] => 0
  | part :: rest => max part.depth (depthAll rest)

end

mutual

/-- The mode behind a pattern, if all its parts can be used. Flags in a group have an effect up to its
end. -/
def modeBehind? (mode : Mode) : Pattern → Option Mode
  | .empty => some mode
  | .flags changes => some (mode.change changes)
  | .char c isByte =>
      if mode.unicode && mode.ignoreCase then none
      else if !mode.unicode && isByte && 0x80 ≤ c.toNat then none
      else some mode
  | .anyChar => if mode.unicode then some mode else none
  | .edge => some mode
  | .wordEdge => if mode.unicode then none else some mode
  | .kind negated => if mode.unicode || negated then none else some mode
  | .brackets inner => if inner.isUsable mode then some mode else none
  | .repeated inner => modeBehind? mode inner
  | .group changes inner => (modeBehind? (mode.change changes) inner).map fun _ => mode
  | .sequence parts => modeBehindAll? mode parts
  | .choice branches => modeBehindAll? mode branches

/-- The mode behind some patterns, if all of them can be used. -/
def modeBehindAll? (mode : Mode) : List Pattern → Option Mode
  | [] => some mode
  | part :: rest => do modeBehindAll? (← modeBehind? mode part) rest

end

/-- How deep a pattern can nest. -/
def depthLimit : Nat := 250

def isUsable (pattern : Pattern) : Bool :=
  pattern.depth ≤ depthLimit && (modeBehind? {} pattern).isSome

end Pattern

end MarkMachine
