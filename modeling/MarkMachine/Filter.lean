import MarkMachine.Event
import MarkMachine.Pattern.Reader
import MarkMachine.Text.Alphanumeric
import MarkMachine.Text.Blank

/-! Which events are told. A filter is a list of directives with commas between them. A directive sets a
level, for all events or for those whose origin begins in a certain way; it can further ask for
fields of the event, or for a span around it. Of the directives that concern an event the most
specific one decides, and among equals the last. Nothing here runs inside a span, so directives that
ask for one concern no event. -/

namespace MarkMachine

/-- How much is told. -/
inductive Level where
  | off
  | error
  | warn
  | info
  | debug
  | trace
  deriving DecidableEq, Repr

namespace Level

def names : List (String × Level) :=
  [("off", .off), ("error", .error), ("warn", .warn), ("info", .info), ("debug", .debug),
    ("trace", .trace)]

/-- The number that a text is, with a plus sign before it or not. -/
def number? (text : List Char) : Option Nat := do
  let digits := if text.head? = some '+' then text.tail else text
  if digits.isEmpty then none
  let values ← digits.mapM Decimal.digit?
  return values.foldl (fun number digit => number * 10 + digit) 0

/-- The level that a word stands for: its name in any letters, or its number. -/
def ofWord? (word : List Char) : Option Level :=
  match number? word with
  | some number => (names[number]?).map Prod.snd
  | none => names.lookup (String.ofList word).toLower

/-- Whether events are told at a level. All events are of the level `debug`. -/
def tells : Level → Bool
  | .debug => true
  | .trace => true
  | _ => false

end Level

/-- A rule of a filter. -/
structure Directive where
  level : Level := .trace
  /-- What the origin of an event has to begin with. -/
  origin : Option String := none
  /-- The span that an event has to be in. -/
  span : Option String := none
  /-- The fields that an event has to have, and whether a value is asked for. -/
  fields : List (String × Bool) := []
  deriving DecidableEq, Repr

namespace Directive

/-- Why a text is no directive. -/
inductive Fault where
  | malformed
  | unknownLevel
  /-- The value asked of a field is neither a number nor a pattern that can be used. -/
  | unusableValue
  deriving DecidableEq, Repr

def Fault.message : Fault → String
  | .malformed => "invalid filter directive"
  | .unknownLevel =>
      "error parsing level filter: expected one of \"off\", \"error\", \"warn\", \"info\", " ++
        "\"debug\", \"trace\", or a number 0-5"
  | .unusableValue => "invalid field filter: error building NFA"

/-- Where the reading of a directive stands, with the place where its current part began. -/
inductive Stage where
  | start
  | word (since : Nat)
  | span (since : Nat)
  | field (since : Nat)
  | behindFields
  | behindSpan
  | level (since : Nat)
  deriving DecidableEq

/-- The part of a text between two places, counted in bytes. -/
def slice (text : List Char) (first last : Nat) : Except Fault (List Char) :=
  match Utf8.strict? (((Utf8.encode text).drop first).take (last - first)) with
  | some part => .ok part
  | none => .error .malformed

/-- Whether a text is a number, which can have a fraction and an exponent or be one of a few words. -/
def isNumber (text : List Char) : Bool :=
  let text := if text.head? = some '+' || text.head? = some '-' then text.tail else text
  let (whole, rest) := text.span Char.isDigit
  let (fraction, rest) := if rest.head? = some '.' then rest.tail.span Char.isDigit else ([], rest)
  let isExponent : Bool :=
    match rest with
    | [] => true
    | e :: digits =>
        let digits :=
          if digits.head? = some '+' || digits.head? = some '-' then digits.tail else digits
        (e = 'e' || e = 'E') && !digits.isEmpty && digits.all Char.isDigit
  ["inf", "infinity", "nan"].contains (String.ofList text).toLower ||
    (!(whole ++ fraction).isEmpty && isExponent)

/-- Whether a value can be asked of a field: a number, or else a pattern. -/
def isValue (text : List Char) : Bool :=
  isNumber text || (Pattern.ofText? text).any Pattern.isUsable

/-- Adds a field: a name, and a value behind an equals sign. What is behind a second one does not
count. -/
def withField (directive : Directive) (part : List Char) : Except Fault Directive :=
  if part.isEmpty then .error .malformed
  else
    match part.splitOn '=' with
    | name :: value :: _ =>
        if isValue value then
          .ok { directive with fields := directive.fields ++ [(String.ofList name, true)] }
        else .error .unusableValue
    | _ => .ok { directive with fields := directive.fields ++ [(String.ofList part, false)] }

/-- Takes one character, which stands at a place. -/
def take (text : List Char) (place : Nat) (c : Char) :
    Directive × Stage → Except Fault (Directive × Stage)
  | (directive, .start) =>
      if c = '[' then .ok (directive, .span (place + 1))
      else if c = '-' || c = ':' || c = '_' || Alphanumeric.isAlphanumeric c then
        .ok (directive, .word place)
      else .error .malformed
  | (directive, .word since) =>
      if c = '=' || c = '[' then do
        let origin := String.ofList (← slice text since place)
        let next := if c = '=' then Stage.level (place + 1) else .span (place + 1)
        return ({ directive with origin := some origin }, next)
      else .ok (directive, .word since)
  | (directive, .span since) =>
      if c = ']' then do
        let span := String.ofList (← slice text since place)
        return ({ directive with span := some span }, .behindSpan)
      else if c = '\x7b' then do
        let span ← slice text since place
        let span := if span.isEmpty then none else some (String.ofList span)
        return ({ directive with span }, .field (place + 1))
      else .ok (directive, .span since)
  | (directive, .field since) =>
      if c = '\x7d' then do
        return (← directive.withField (← slice text since place), .behindFields)
      else .ok (directive, .field since)
  | (directive, .behindFields) =>
      if c = ']' then .ok (directive, .behindSpan) else .error .malformed
  | (directive, .behindSpan) =>
      if c = '=' then .ok (directive, .level (place + 1)) else .error .malformed
  | (directive, .level since) => .ok (directive, .level since)

/-- Takes characters, the first of which stands at a place. -/
def takeAll (text : List Char) : Nat → List Char → Directive × Stage →
    Except Fault (Directive × Stage)
  | _, [], state => .ok state
  | place, c :: rest, state => do
      takeAll text (place + (Utf8.encode [c]).length) rest (← take text place c state)

/-- Ends the reading of a directive. A single word is a level if it can be one. -/
def finish (text : List Char) : Directive × Stage → Except Fault Directive
  | (directive, .word since) => do
      let word ← slice text since (Utf8.encode text).length
      match Level.ofWord? word with
      | some level => return { directive with level, origin := none }
      | none => return { directive with level := .trace, origin := some (String.ofList word) }
  | (directive, .level since) => do
      let word ← slice text since (Utf8.encode text).length
      if word.isEmpty then return { directive with level := .trace }
      else
        match Level.ofWord? word with
        | some level => return { directive with level }
        | none => throw .unknownLevel
  | (directive, .behindSpan) => .ok directive
  | _ => .error .malformed

/-- Reads a directive. Space around it is passed over, but the places of its parts are counted as if it
were not there. -/
def read (text : List Char) : Except Fault Directive := do
  finish text (← takeAll text 0 (Blank.trim text) ({}, .start))

def concerns (directive : Directive) (event : Event) : Bool :=
  directive.span.isNone &&
    directive.origin.all (fun origin => event.origin.startsWith origin) &&
    directive.fields.all fun field => !field.2 && event.fieldNames.contains field.1

/-- Whether a directive is less specific than another: it asks for a shorter origin, or else for fewer
fields, or else for fields with lower names. -/
def isBelow (directive other : Directive) : Bool :=
  let width (directive : Directive) : Nat :=
    (directive.origin.map fun origin => origin.utf8ByteSize + 1).getD 0
  let names (directive : Directive) : List String := directive.fields.map Prod.fst
  if width directive ≠ width other then width directive < width other
  else if directive.fields.length ≠ other.fields.length then
    directive.fields.length < other.fields.length
  else names directive < names other

end Directive

abbrev Filter := List Directive

namespace Filter

/-- The texts between commas. -/
def parts (text : String) : List (List Char) :=
  (text.toList.splitOn ',').filter (!·.isEmpty)

def ofText? (text : String) : Option Filter :=
  (parts text).mapM fun part => (Directive.read part).toOption

/-- Reads what can be read of a filter, with a notice about each text that is no directive. -/
def ofText (text : String) : Filter × List String :=
  let readings := (parts text).map fun part => (part, Directive.read part)
  (readings.filterMap fun reading => reading.2.toOption,
    readings.filterMap fun (part, reading) =>
      match reading with
      | .ok _ => none
      | .error fault => some ("ignoring `" ++ String.ofList part ++ "`: " ++ fault.message))

/-- The more specific one of two directives, the later if they are equally so. -/
def choose (best : Option Directive) (directive : Directive) : Option Directive :=
  match best with
  | none => some directive
  | some best => if directive.isBelow best then some best else some directive

/-- The directive that decides about an event. -/
def decisive? (filter : Filter) (event : Event) : Option Directive :=
  (filter.filter fun directive => directive.concerns event).foldl choose none

/-- Whether an event is told. -/
def tells (filter : Filter) (event : Event) : Bool :=
  (filter.decisive? event).any fun directive => directive.level.tells

/-- Whether there is a directive by which events could be told. -/
def isOpen (filter : Filter) : Bool :=
  filter.any fun directive => directive.level.tells

end Filter

end MarkMachine
