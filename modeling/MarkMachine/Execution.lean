import MarkMachine.Session

/-! What the instructions do, and the single steps of a machine. A step reads the instruction at the
cursor, moves the cursor behind it and carries it out. A step that would begin where the one before it
began is a stall. -/

namespace MarkMachine

/-- Whether there is more to do after an instruction. -/
inductive Outcome where
  | running
  | finished
  deriving DecidableEq, Repr

/-- The result of an operator, wrapped around to 64 bits. Division and remainder go toward zero; by
zero there is none. -/
def Operator.apply? (operator : Operator) (left right : Int64) : Option Int64 :=
  match operator with
  | .add => some (left + right)
  | .sub => some (left - right)
  | .mul => some (left * right)
  | .div => if right = 0 then none else some (left / right)
  | .mod => if right = 0 then none else some (left % right)

/-- What the debug instruction writes. -/
def debugText : List Char := Mark.extra.spelling ++ Mark.line.spelling

/-- What an instruction that stands at `position` does. Input is asked for only after the output has
been flushed, and before the address is taken off the stack. -/
def Action.perform (instruction : Instruction) (position : Nat) : Action Unit :=
  let name := instruction.mnemonic
  match instruction with
  | .push value => push (.integer value)
  | .duplicate => do
      push (← peek name position)
  | .swap => do
      ensure 2 name position
      let top ← pop name position
      let below ← pop name position
      push top
      push below
  | .discard => do
      let _ ← pop name position
  | .arithmetic operator => do
      ensure 2 name position
      let right ← pop name position
      let left ← pop name position
      match operator.apply? left.toInteger right.toInteger with
      | some result => push (.integer result)
      | none => throw (.divisionByZero name position)
  | .store => do
      ensure 2 name position
      let value ← pop name position
      let address ← pop name position
      store address.toInteger value
  | .load => do
      let address ← pop name position
      push (← load address.toInteger)
  | .define _ => pure ()
  | .call label => call label position
  | .jump label => jump label position
  | .jumpIfZero label => do
      let value ← pop name position
      if value.toInteger = 0 then jump label position
  | .jumpIfNegative label => do
      let value ← pop name position
      if value.toInteger < 0 then jump label position
  | .ret => goBack position
  | .stop => halt
  | .outputChar => do
      let value ← pop name position
      match value.toChar? with
      | some c => toSink (Sink.write (Utf8.encode [c]))
      | none => pure ()
  | .outputNumber => do
      let value ← pop name position
      toSink (Sink.write (Utf8.encode (Decimal.chars value.toInteger.toInt)))
  | .inputChar => do
      toSink Sink.flush
      let c ← fromFeed Feed.readChar
      let address ← pop name position
      store address.toInteger (.character c)
  | .inputNumber => do
      toSink Sink.flush
      let n ← fromFeed Feed.readNumber
      let address ← pop name position
      store address.toInteger (.integer n)
  | .debugPrint => toSink (Sink.write (Utf8.encode debugText))

def Instruction.execute (instruction : Instruction) (position : Nat) : Action Outcome := do
  Action.perform instruction position
  return if instruction = .stop then .finished else .running

namespace Session

def step : Action Outcome := fun session =>
  let machine := session.machine
  let position := machine.pc
  if machine.isDone then .ok .finished session
  else if machine.lastPc = some position then .error (.malformed position) session
  else
    let session := { session with machine := { machine with lastPc := some position } }
    match Instruction.decode machine.ahead with
    | .found instruction width =>
        instruction.execute position { session with
          machine := { session.machine with pc := position + width, steps := machine.steps + 1 } }
    | .missing =>
        if machine.ahead = [.line] then
          .ok .finished { session with machine := { session.machine with halted := true } }
        else .error (.malformed position) session
    | .overflow => .error (.numberOverflow position) session

end Session

end MarkMachine
