import MarkMachine.Json.Basic
import MarkMachine.Listing
import MarkMachine.Value

/-! Marks, labels, instructions, values and listings as JSON. An instruction is an object whose field
`op` names it, beside the field of its operand; an array of the name and the operand is read too. A
value is an object with its kind in `t` and its content in `v`, or an array of the two. Fields with
other names are passed over. All of these are read from documents and not from texts, so a field that is
there twice is no mistake: the last one counts. -/

namespace MarkMachine

namespace Json

/-- The name of a choice that carries nothing: a string, or an object with that name and `null`. -/
def choice? : Json → Option String
  | .string name => some name
  | .object [(name, .null)] => some name
  | _ => none

/-- The name of a choice inside something that is itself told apart by name: there, an empty object
counts as carrying nothing too. -/
def innerChoice? : Json → Option String
  | .object [(name, .object [])] => some name
  | json => json.choice?

/-- A signed 64-bit number. -/
def int64? : Json → Option Int64
  | .integer value =>
      if Int64.minValue.toInt ≤ value ∧ value ≤ Int64.maxValue.toInt then some (Int64.ofInt value)
      else none
  | _ => none

/-- An unsigned 64-bit number. -/
def position? : Json → Option Nat
  | .integer value => if 0 ≤ value ∧ value < UInt64.size then some value.toNat else none
  | _ => none

/-- A string of exactly one character. -/
def char? : Json → Option Char
  | .string text =>
      match text.toList with
      | [c] => some c
      | _ => none
  | _ => none

end Json

namespace Mark

def name : Mark → String
  | .space => "SpaceMark"
  | .tab => "TabMark"
  | .line => "LineMark"
  | .extra => "ExtraMark"

def toJson (mark : Mark) : Json :=
  .string mark.name

def ofJson? (json : Json) : Option Mark := do
  match ← json.choice? with
  | "SpaceMark" => some .space
  | "TabMark" => some .tab
  | "LineMark" => some .line
  | "ExtraMark" => some .extra
  | _ => none

end Mark

namespace Label

/-- A label as JSON: its shorthand. -/
def toJson (label : Label) : Json :=
  .string (shorthand label)

/-- Reads a label; one with a line mark is refused. -/
def ofJson? : Json → Option Label
  | .string text => (ofText text).toOption
  | _ => none

end Label

namespace Operator

/-- An operator as JSON: its mnemonic. -/
def toJson (operator : Operator) : Json :=
  .string operator.mnemonic

/-- The operator with a mnemonic. -/
def ofMnemonic? : String → Option Operator
  | "add" => some .add
  | "sub" => some .sub
  | "mul" => some .mul
  | "div" => some .div
  | "mod" => some .mod
  | _ => none

def ofJson? (json : Json) : Option Operator :=
  json.choice?.bind ofMnemonic?

/-- Reads the operator of an instruction. -/
def ofOperand? (json : Json) : Option Operator :=
  json.innerChoice?.bind ofMnemonic?

end Operator

namespace Instruction

/-- The name of an instruction in JSON. -/
def name : Instruction → String
  | .push _ => "push"
  | .duplicate => "duplicate"
  | .swap => "swap"
  | .discard => "discard"
  | .arithmetic _ => "arithmetic"
  | .store => "store"
  | .load => "load"
  | .define _ => "label"
  | .call _ => "call"
  | .jump _ => "jump"
  | .jumpIfZero _ => "jump_if_zero"
  | .jumpIfNegative _ => "jump_if_negative"
  | .ret => "return"
  | .stop => "end"
  | .outputChar => "output_char"
  | .outputNumber => "output_number"
  | .inputChar => "input_char"
  | .inputNumber => "input_number"
  | .debugPrint => "debug_print"

/-- The operand of an instruction with the name of its field. -/
def operandField? : Instruction → Option (String × Json)
  | .push value => some ("value", .integer value.toInt)
  | .arithmetic operator => some ("operator", operator.toJson)
  | instruction => instruction.label?.map fun label => ("label", label.toJson)

def toJson (instruction : Instruction) : Json :=
  .object (("op", .string instruction.name) :: instruction.operandField?.toList)

/-- The instruction with a name, when `operand` gives the content of a field. -/
def ofName? (name : String) (operand : String → Option Json) : Option Instruction :=
  match name with
  | "push" => (operand "value").bind Json.int64? |>.map .push
  | "duplicate" => some .duplicate
  | "swap" => some .swap
  | "discard" => some .discard
  | "arithmetic" => (operand "operator").bind Operator.ofOperand? |>.map .arithmetic
  | "store" => some .store
  | "load" => some .load
  | "label" => (operand "label").bind Label.ofJson? |>.map .define
  | "call" => (operand "label").bind Label.ofJson? |>.map .call
  | "jump" => (operand "label").bind Label.ofJson? |>.map .jump
  | "jump_if_zero" => (operand "label").bind Label.ofJson? |>.map .jumpIfZero
  | "jump_if_negative" => (operand "label").bind Label.ofJson? |>.map .jumpIfNegative
  | "return" => some .ret
  | "end" => some .stop
  | "output_char" => some .outputChar
  | "output_number" => some .outputNumber
  | "input_char" => some .inputChar
  | "input_number" => some .inputNumber
  | "debug_print" => some .debugPrint
  | _ => none

def ofJson? : Json → Option Instruction
  | .object fields =>
      match Json.find? "op" fields with
      | some (.string name) => ofName? name fun field => Json.find? field fields
      | _ => none
  | .array (.string name :: operands) =>
      match ofName? name fun _ => operands.head? with
      | some instruction =>
          if operands.length = instruction.operandField?.toList.length then some instruction else none
      | none => none
  | _ => none

end Instruction

namespace Value

def toJson : Value → Json
  | .unset => .object [("t", .string "Unset")]
  | .integer n => .object [("t", .string "Integer"), ("v", .integer n.toInt)]
  | .character c => .object [("t", .string "Character"), ("v", .string (String.singleton c))]

/-- The value of a kind with some content. -/
def ofContent? (kind : String) (content : Option Json) : Option Value :=
  match kind, content with
  | "Unset", none => some .unset
  | "Unset", some .null => some .unset
  | "Integer", some json => json.int64?.map .integer
  | "Character", some json => json.char?.map .character
  | _, _ => none

def ofJson? : Json → Option Value
  | .object fields => do
      ofContent? (← (← Json.find? "t" fields).choice?) (Json.find? "v" fields)
  | .array [.string kind, content] => ofContent? kind (some content)
  | _ => none

end Value

namespace Entry

def toJson (entry : Entry) : Json :=
  .object [("position", .integer entry.position), ("instruction", entry.instruction.toJson)]

def ofJson? : Json → Option Entry
  | .object fields => do
      let position ← (← Json.find? "position" fields).position?
      let instruction ← Instruction.ofJson? (← Json.find? "instruction" fields)
      return ⟨position, instruction⟩
  | .array [position, instruction] => do
      return ⟨← position.position?, ← Instruction.ofJson? instruction⟩
  | _ => none

end Entry

namespace Listing

def toJson (listing : Listing) : Json :=
  .array (listing.map Entry.toJson)

def ofJson? : Json → Option Listing
  | .array items => items.mapM Entry.ofJson?
  | _ => none

end Listing

end MarkMachine
