import MarkMachine.Machine

/-! Events: what is told about a run while it goes on. -/

namespace MarkMachine

/-- Something told about a run. -/
inductive Event where
  /-- A source text has been searched for marks. -/
  | tokenized (marks bytes : Nat)
  /-- The program about to be read. -/
  | programListed (program : Program)
  /-- An instruction has been read. -/
  | decoded (position : Nat) (instruction : Instruction)
  /-- The label defined at `position` led somewhere else before. -/
  | redefined (position previous : Nat)
  /-- All labels are known. -/
  | resolved (labels : Nat)
  /-- A step begins. -/
  | stepped (position : Nat) (stack : Stack)
  | halted (steps : Nat)
  | failed (steps position : Nat) (fault : Fault)
  deriving DecidableEq, Repr

namespace Event

inductive Detail where
  | number (n : Nat)
  | text (s : String)
  deriving DecidableEq, Repr

def message : Event → String
  | .tokenized _ _ => "source tokenized"
  | .programListed _ => "command list"
  | .decoded _ _ => "decoded"
  | .redefined _ _ => "label redefined"
  | .resolved _ => "labels resolved"
  | .stepped _ _ => "step"
  | .halted _ => "program halted"
  | .failed _ _ _ => "program failed"

def details : Event → List (String × Detail)
  | .tokenized marks bytes => [("tokens", .number marks), ("source_len", .number bytes)]
  | .programListed program => [("program", .text (shorthand program))]
  | .decoded position instruction =>
      [("position", .number position), ("command", .text instruction.text)]
  | .redefined position previous =>
      [("position", .number position), ("previous", .number previous)]
  | .resolved labels => [("labels", .number labels)]
  | .stepped position stack => [("position", .number position), ("stack", .text stack.text)]
  | .halted steps => [("steps", .number steps)]
  | .failed steps position fault =>
      [("steps", .number steps), ("position", .number position), ("err", .text fault.message)]

/-- The names of all that is told about an event. -/
def fieldNames (event : Event) : List String :=
  "message" :: event.details.map Prod.fst

/-- The part of the program that tells an event. -/
def origin : Event → String
  | .tokenized _ _ => "ujihisa_core::interpreter::lexer"
  | .programListed _ => "ujihisa_core::interpreter::resolver"
  | .decoded _ _ => "ujihisa_core::interpreter::resolver"
  | .redefined _ _ => "ujihisa_core::interpreter::resolver"
  | .resolved _ => "ujihisa_core::interpreter::resolver"
  | .stepped _ _ => "ujihisa_core::interpreter::exec_loop"
  | .halted _ => "ujihisa_core::interpreter::exec_loop"
  | .failed _ _ _ => "ujihisa_core::interpreter::exec_loop"

/-- Searching a source text for marks. -/
def ofSource (source : String) : Event :=
  .tokenized (Program.ofSource source).length source.utf8ByteSize

/-- Reading instructions, when the labels in `table` are known before. -/
def ofSpans (table : LabelTable) : List Span → List Event
  | [] => []
  | span :: rest =>
      let replaced :=
        match span.instruction with
        | .define label => table[label]?
        | _ => none
      .decoded span.position span.instruction ::
        (replaced.map (Event.redefined span.position)).toList ++ ofSpans (table.note span) rest

/-- Reading a program and its labels. -/
def ofProgram (program : Program) : List Event :=
  .programListed program :: ofSpans ∅ program.walk.spans ++
    match program.labels with
    | .ok labels => [.resolved labels.size]
    | .error _ => []

def loading (source : String) : List Event :=
  ofSource source :: ofProgram (Program.ofSource source)

/-- The start of a machine's next step, if there is one. -/
def ofStep? (machine : Machine) : Option Event :=
  if machine.isDone then none else some (.stepped machine.pc machine.stack)

end Event

end MarkMachine
