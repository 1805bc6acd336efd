import MarkMachine.Proofs.Step

/-! How instructions fail, and what they leave when they do. Some ask for their values before they take any
off the stack, some look at the top and some just take it off; but none of them has done anything yet when a
value is missing, except that an instruction with input has flushed the output and read the input before it
looks for an address. With all values there, an instruction can fail at a division by zero, a label that leads
nowhere, a return without a call, or at the output. All these ways are listed once, with what is left of the
session; what an underflow and any other failure leave is then read off the list. -/

namespace MarkMachine

namespace Instruction

/-- How many values an instruction takes off the stack or looks at. -/
def demand : Instruction → Nat
  | .swap => 2
  | .arithmetic _ => 2
  | .store => 2
  | .duplicate => 1
  | .discard => 1
  | .load => 1
  | .jumpIfZero _ => 1
  | .jumpIfNegative _ => 1
  | .outputChar => 1
  | .outputNumber => 1
  | .inputChar => 1
  | .inputNumber => 1
  | _ => 0

/-- What an instruction with input reads, as the value that it is to put into the heap. -/
def reader? : Instruction → Option (Feed.Reader Value)
  | .inputChar => some (Value.character <$> Feed.readChar)
  | .inputNumber => some (Value.integer <$> Feed.readNumber)
  | _ => none

/-- The bytes that an instruction with output writes for the value it takes off the stack, if it writes. -/
def output? : Instruction → Value → Option (List UInt8)
  | .outputChar, value => value.toChar?.map fun c => Utf8.encode [c]
  | .outputNumber, value => some (Utf8.encode (Decimal.chars value.toInteger.toInt))
  | _, _ => none

theorem isOutput_of_output? {instruction : Instruction} {value : Value} {bytes : List UInt8}
    (h : instruction.output? value = some bytes) : instruction = .outputChar ∨ instruction = .outputNumber := by
  cases instruction with
  | outputChar => exact .inl rfl
  | outputNumber => exact .inr rfl
  | _ => cases h

theorem isInput_of_reader? {instruction : Instruction} {reader : Feed.Reader Value}
    (h : instruction.reader? = some reader) : instruction = .inputChar ∨ instruction = .inputNumber := by
  cases instruction with
  | inputChar => exact .inl rfl
  | inputNumber => exact .inr rfl
  | _ => cases h

end Instruction

def Session.withStack (stack : Stack) (session : Session) : Session :=
  { session with machine := { session.machine with stack } }

/-- The ways in which an instruction that stands at `position` can fail, each with its fault and the session
that is left. -/
inductive Instruction.Fails (instruction : Instruction) (position : Nat) (session : Session) :
    Fault → Session → Prop
  /-- There are too few values. -/
  | underflow (hreader : instruction.reader? = none)
      (hstack : session.machine.stack.length < instruction.demand) :
      Fails instruction position session (.stackUnderflow instruction.mnemonic position) session
  /-- Something has been read for which there is no address. -/
  | address {reader : Feed.Reader Value} {value : Value} {feed : Feed} {sink : Sink}
      (hreader : instruction.reader? = some reader) (hflush : Sink.flush session.sink = .ok () sink)
      (hread : reader session.feed = .ok value feed) (hstack : session.machine.stack = []) :
      Fails instruction position session (.stackUnderflow instruction.mnemonic position)
        { session with feed, sink }
  /-- The value to divide by counts as zero. -/
  | division {operator : Operator} {right left : Value} {rest : Stack}
      (hinstruction : instruction = .arithmetic operator) (hoperator : operator = .div ∨ operator = .mod)
      (hstack : session.machine.stack = right :: left :: rest) (hzero : right.toInteger = 0) :
      Fails instruction position session (.divisionByZero instruction.mnemonic position)
        (session.withStack rest)
  /-- The label of a call or a jump leads nowhere. -/
  | target {label : Label} (hinstruction : instruction = .call label ∨ instruction = .jump label)
      (hlabel : session.machine.labels[label]? = none) :
      Fails instruction position session (.unknownLabel label position) session
  /-- The label of a branch that is taken leads nowhere. -/
  | branch {label : Label} {taken : Int64 → Bool} {value : Value} {rest : Stack}
      (hbranch : instruction.branch? = some (label, taken)) (hstack : session.machine.stack = value :: rest)
      (htaken : taken value.toInteger = true) (hlabel : session.machine.labels[label]? = none) :
      Fails instruction position session (.unknownLabel label position) (session.withStack rest)
  /-- There is no call to return to. -/
  | ret (hinstruction : instruction = .ret) (hcalls : session.machine.calls = []) :
      Fails instruction position session (.callStackUnderflow position) session
  /-- The output refuses a value. -/
  | write {value : Value} {rest : Stack} {bytes : List UInt8} {fault : DeviceFault} {sink : Sink}
      (hstack : session.machine.stack = value :: rest) (hbytes : instruction.output? value = some bytes)
      (hwrite : Sink.write bytes session.sink = .error fault sink) :
      Fails instruction position session (.device fault) { session.withStack rest with sink }
  /-- The output refuses the text of the debug instruction. -/
  | debug {fault : DeviceFault} {sink : Sink} (hinstruction : instruction = .debugPrint)
      (hwrite : Sink.write (Utf8.encode debugText) session.sink = .error fault sink) :
      Fails instruction position session (.device fault) { session with sink }
  /-- The output refuses the flush before a reading. -/
  | flush {reader : Feed.Reader Value} {fault : DeviceFault} {sink : Sink}
      (hreader : instruction.reader? = some reader) (hflush : Sink.flush session.sink = .error fault sink) :
      Fails instruction position session (.device fault) { session with sink }
  /-- The input cannot be read. -/
  | read {reader : Feed.Reader Value} {fault : DeviceFault} {feed : Feed} {sink : Sink}
      (hreader : instruction.reader? = some reader) (hflush : Sink.flush session.sink = .ok () sink)
      (hread : reader session.feed = .error fault feed) :
      Fails instruction position session (.device fault) { session with feed, sink }

theorem Stack.exists_two_of_le_length {stack : Stack} (h : 2 ≤ stack.length) :
    ∃ top below rest, stack = top :: below :: rest := by
  obtain ⟨top, others, rfl⟩ := List.exists_cons_of_length_pos (Nat.zero_lt_of_lt h)
  rw [List.length_cons] at h
  obtain ⟨below, rest, rfl⟩ := List.exists_cons_of_length_pos (Nat.le_of_succ_le_succ h)
  exact ⟨top, below, rest, rfl⟩

namespace Action

variable {α β : Type}

theorem pop_bind (name : String) (position : Nat) (next : Value → Action β) (session : Session) :
    (pop name position >>= next) session =
      match session.machine.stack with
      | [] => .error (.stackUnderflow name position) session
      | value :: rest => next value (session.withStack rest) := by
  obtain ⟨machine, feed, sink⟩ := session
  rw [bind_apply, pop]
  dsimp only
  cases machine.stack <;> rfl

theorem pop_bind_of_nil {session : Session} (h : session.machine.stack = []) (name : String)
    (position : Nat) (next : Value → Action β) :
    (pop name position >>= next) session = .error (.stackUnderflow name position) session := by
  rw [pop_bind, h]

theorem pop_bind_of_cons {session : Session} {value : Value} {rest : Stack}
    (h : session.machine.stack = value :: rest) (name : String) (position : Nat) (next : Value → Action β) :
    (pop name position >>= next) session = next value (session.withStack rest) := by
  rw [pop_bind, h]

theorem ensure_bind_of_lt {session : Session} {count : Nat} (h : session.machine.stack.length < count)
    (name : String) (position : Nat) (next : Unit → Action β) :
    (ensure count name position >>= next) session = .error (.stackUnderflow name position) session := by
  rw [bind_apply, ensure, ask, Stack.ensure, if_neg (Nat.not_le_of_lt h)]

/-- Two values that are there are taken off one after the other. -/
theorem ensure_two_bind_of_cons {session : Session} {top below : Value} {rest : Stack}
    (h : session.machine.stack = top :: below :: rest) (name : String) (position : Nat)
    (next : Value → Value → Action β) :
    (do
      ensure 2 name position
      let top ← pop name position
      let below ← pop name position
      next top below) session = next top below (session.withStack rest) := by
  have hlength : 2 ≤ session.machine.stack.length := by
    rw [h, List.length_cons, List.length_cons]
    omega
  rw [bind_apply, ensure, ask, Stack.ensure, if_pos hlength]
  dsimp only
  rw [pop_bind_of_cons h]
  exact pop_bind_of_cons rfl name position (next top)

/-- Input is flushed for, read and then put where the top of the stack says. -/
theorem readInto_apply (reader : Feed.Reader α) (wrap : α → Value) (name : String) (position : Nat)
    (session : Session) :
    (do
      toSink Sink.flush
      let value ← fromFeed reader
      let address ← pop name position
      store address.toInteger (wrap value)) session =
      match Sink.flush session.sink with
      | .error fault sink => .error (.device fault) { session with sink }
      | .ok _ sink =>
          match (wrap <$> reader) session.feed with
          | .error fault feed => .error (.device fault) { session with feed, sink }
          | .ok value feed =>
              match session.machine.stack with
              | [] => .error (.stackUnderflow name position) { session with feed, sink }
              | address :: rest =>
                  store address.toInteger value { session.withStack rest with feed, sink } := by
  obtain ⟨machine, feed, sink⟩ := session
  rw [bind_apply, toSink]
  dsimp only
  cases Sink.flush sink with
  | error fault sink => rfl
  | ok _ sink =>
      dsimp only
      rw [bind_apply, fromFeed]
      simp only [Functor.map, EStateM.map]
      cases reader feed with
      | error fault feed => rfl
      | ok value feed =>
          dsimp only
          rw [pop_bind]
          cases machine.stack <;> rfl

theorem perform_of_reader? {instruction : Instruction} {reader : Feed.Reader Value}
    (h : instruction.reader? = some reader) (position : Nat) (session : Session) :
    perform instruction position session =
      match Sink.flush session.sink with
      | .error fault sink => .error (.device fault) { session with sink }
      | .ok _ sink =>
          match reader session.feed with
          | .error fault feed => .error (.device fault) { session with feed, sink }
          | .ok value feed =>
              match session.machine.stack with
              | [] => .error (.stackUnderflow instruction.mnemonic position) { session with feed, sink }
              | address :: rest =>
                  store address.toInteger value { session.withStack rest with feed, sink } := by
  cases instruction with
  | inputChar =>
      cases h
      exact readInto_apply Feed.readChar .character _ position session
  | inputNumber =>
      cases h
      exact readInto_apply Feed.readNumber .integer _ position session
  | _ => cases h

/-- An instruction with output writes what its value amounts to, if that is anything. -/
theorem perform_of_isOutput {instruction : Instruction}
    (h : instruction = .outputChar ∨ instruction = .outputNumber) (position : Nat) :
    perform instruction position = (do
      let value ← pop instruction.mnemonic position
      match instruction.output? value with
      | some bytes => toSink (Sink.write bytes)
      | none => pure ()) := by
  rcases h with rfl | rfl
  · rw [perform]
    congr 1
    funext value
    rw [Instruction.output?]
    cases value.toChar? <;> rfl
  · rfl

theorem toSink_eq_error_iff {write : Sink.Writer β} {session after : Session} {fault : Fault} :
    toSink write session = .error fault after ↔
      ∃ trouble sink, write session.sink = .error trouble sink ∧ fault = .device trouble ∧
        after = { session with sink } := by
  obtain ⟨machine, feed, sink⟩ := session
  rw [toSink]
  dsimp only
  cases write sink <;> simp [eq_comm]

theorem apply?_eq_none_iff {operator : Operator} {left right : Int64} :
    operator.apply? left right = none ↔ (operator = .div ∨ operator = .mod) ∧ right = 0 := by
  unfold Operator.apply?
  cases operator <;> simp

theorem perform_duplicate (position : Nat) (session : Session) :
    perform .duplicate position session =
      match session.machine.stack with
      | [] => .error (.stackUnderflow Instruction.duplicate.mnemonic position) session
      | value :: rest => .ok () (session.withStack (value :: value :: rest)) := by
  obtain ⟨machine, feed, sink⟩ := session
  rw [perform, bind_apply, peek, ask]
  dsimp only
  cases hstack : machine.stack with
  | nil => rfl
  | cons value rest => simp only [Stack.peek, push, change, Session.withStack, hstack]

section Fails

variable {instruction : Instruction} {position : Nat} {session after : Session} {fault : Fault}

/-- Whichever way an instruction looks for its values, it misses one before it has done anything. -/
theorem perform_of_underflow (hreader : instruction.reader? = none)
    (hstack : session.machine.stack.length < instruction.demand) (position : Nat) :
    perform instruction position session =
      .error (.stackUnderflow instruction.mnemonic position) session := by
  have hnil (hdemand : instruction.demand = 1) : session.machine.stack = [] := by
    rw [hdemand] at hstack
    exact List.eq_nil_of_length_eq_zero (Nat.lt_one_iff.mp hstack)
  cases instruction with
  | swap => exact ensure_bind_of_lt hstack _ _ _
  | arithmetic operator => exact ensure_bind_of_lt hstack _ _ _
  | store => exact ensure_bind_of_lt hstack _ _ _
  | duplicate => rw [perform_duplicate, hnil rfl]
  | discard => exact pop_bind_of_nil (hnil rfl) _ _ _
  | load => exact pop_bind_of_nil (hnil rfl) _ _ _
  | jumpIfZero label => exact pop_bind_of_nil (hnil rfl) _ _ _
  | jumpIfNegative label => exact pop_bind_of_nil (hnil rfl) _ _ _
  | outputChar => exact pop_bind_of_nil (hnil rfl) _ _ _
  | outputNumber => exact pop_bind_of_nil (hnil rfl) _ _ _
  | inputChar => cases hreader
  | inputNumber => cases hreader
  | _ => exact absurd hstack (Nat.not_lt_zero _)

theorem fails_of_reader? {reader : Feed.Reader Value} (hreader : instruction.reader? = some reader)
    (h : perform instruction position session = .error fault after) :
    instruction.Fails position session fault after := by
  rw [perform_of_reader? hreader] at h
  cases hflush : Sink.flush session.sink with
  | error trouble sink =>
      rw [hflush] at h
      cases h
      exact .flush hreader hflush
  | ok _ sink =>
      rw [hflush] at h
      dsimp only at h
      cases hread : reader session.feed with
      | error trouble feed =>
          rw [hread] at h
          cases h
          exact .read hreader hflush hread
      | ok value feed =>
          rw [hread] at h
          dsimp only at h
          cases hstack : session.machine.stack with
          | nil =>
              rw [hstack] at h
              cases h
              exact .address hreader hflush hread hstack
          | cons address rest =>
              rw [hstack] at h
              cases h

theorem fails_of_isOutput (houtput : instruction = .outputChar ∨ instruction = .outputNumber)
    {value : Value} {rest : Stack} (hstack : session.machine.stack = value :: rest)
    (h : perform instruction position session = .error fault after) :
    instruction.Fails position session fault after := by
  rw [perform_of_isOutput houtput, pop_bind_of_cons hstack] at h
  cases hbytes : instruction.output? value with
  | none =>
      rw [hbytes] at h
      cases h
  | some bytes =>
      rw [hbytes] at h
      obtain ⟨trouble, sink, hwrite, rfl, rfl⟩ := toSink_eq_error_iff.mp h
      exact .write hstack hbytes hwrite

theorem fails_of_branch {label : Label} {taken : Int64 → Bool}
    (hbranch : instruction.branch? = some (label, taken)) {value : Value} {rest : Stack}
    (hstack : session.machine.stack = value :: rest)
    (h : perform instruction position session = .error fault after) :
    instruction.Fails position session fault after := by
  obtain ⟨machine, feed, sink⟩ := session
  dsimp only at hstack
  rw [perform_branch hbranch, hstack] at h
  dsimp only at h
  split_ifs at h with htaken
  rw [perform_jump] at h
  split at h <;> cases h
  exact .branch hbranch hstack htaken ‹_›

theorem fails_of_arithmetic {operator : Operator} {right left : Value} {rest : Stack}
    (hstack : session.machine.stack = right :: left :: rest)
    (h : perform (.arithmetic operator) position session = .error fault after) :
    (Instruction.arithmetic operator).Fails position session fault after := by
  have hresult := (ensure_two_bind_of_cons hstack _ _ _).symm.trans h
  cases happly : operator.apply? left.toInteger right.toInteger with
  | some result =>
      rw [happly] at hresult
      cases hresult
  | none =>
      rw [happly] at hresult
      cases hresult
      obtain ⟨hoperator, hzero⟩ := apply?_eq_none_iff.mp happly
      exact .division rfl hoperator hstack hzero

/-- An instruction that has all its values can still fail by what they are, or by where it leads. -/
theorem fails_of_demand_le (hreader : instruction.reader? = none)
    (hdemand : instruction.demand ≤ session.machine.stack.length)
    (h : perform instruction position session = .error fault after) :
    instruction.Fails position session fault after := by
  cases instruction with
  | push value => cases h
  | duplicate =>
      obtain ⟨value, rest, hstack⟩ := List.exists_cons_of_length_pos hdemand
      rw [perform_duplicate, hstack] at h
      cases h
  | swap =>
      obtain ⟨top, below, rest, hstack⟩ := Stack.exists_two_of_le_length hdemand
      cases (ensure_two_bind_of_cons hstack _ _ _).symm.trans h
  | discard =>
      obtain ⟨value, rest, hstack⟩ := List.exists_cons_of_length_pos hdemand
      cases (pop_bind_of_cons hstack _ _ _).symm.trans h
  | arithmetic operator =>
      obtain ⟨right, left, rest, hstack⟩ := Stack.exists_two_of_le_length hdemand
      exact fails_of_arithmetic hstack h
  | store =>
      obtain ⟨value, address, rest, hstack⟩ := Stack.exists_two_of_le_length hdemand
      cases (ensure_two_bind_of_cons hstack _ _ _).symm.trans h
  | load =>
      obtain ⟨value, rest, hstack⟩ := List.exists_cons_of_length_pos hdemand
      cases (pop_bind_of_cons hstack _ _ _).symm.trans h
  | define label => cases h
  | call label =>
      rw [perform_call] at h
      split at h <;> cases h
      exact .target (.inl rfl) ‹_›
  | jump label =>
      rw [perform_jump] at h
      split at h <;> cases h
      exact .target (.inr rfl) ‹_›
  | jumpIfZero label =>
      obtain ⟨value, rest, hstack⟩ := List.exists_cons_of_length_pos hdemand
      exact fails_of_branch rfl hstack h
  | jumpIfNegative label =>
      obtain ⟨value, rest, hstack⟩ := List.exists_cons_of_length_pos hdemand
      exact fails_of_branch rfl hstack h
  | ret =>
      rw [perform_ret] at h
      split at h <;> cases h
      exact .ret rfl ‹_›
  | stop => cases h
  | outputChar =>
      obtain ⟨value, rest, hstack⟩ := List.exists_cons_of_length_pos hdemand
      exact fails_of_isOutput (.inl rfl) hstack h
  | outputNumber =>
      obtain ⟨value, rest, hstack⟩ := List.exists_cons_of_length_pos hdemand
      exact fails_of_isOutput (.inr rfl) hstack h
  | inputChar => cases hreader
  | inputNumber => cases hreader
  | debugPrint =>
      obtain ⟨trouble, sink, hwrite, rfl, rfl⟩ := toSink_eq_error_iff.mp h
      exact .debug rfl hwrite

theorem perform_of_fails (h : instruction.Fails position session fault after) :
    perform instruction position session = .error fault after := by
  cases h with
  | underflow hreader hstack => exact perform_of_underflow hreader hstack position
  | address hreader hflush hread hstack =>
      rw [perform_of_reader? hreader, hflush]
      dsimp only
      rw [hread, hstack]
  | @division operator right left rest hinstruction hoperator hstack hzero =>
      have happly : operator.apply? left.toInteger right.toInteger = none :=
        apply?_eq_none_iff.mpr ⟨hoperator, hzero⟩
      subst hinstruction
      refine (ensure_two_bind_of_cons hstack _ _ _).trans ?_
      rw [happly]
      rfl
  | target hinstruction hlabel =>
      obtain ⟨machine, feed, sink⟩ := session
      dsimp only at hlabel
      rcases hinstruction with rfl | rfl
      · rw [perform_call, hlabel]
      · rw [perform_jump, hlabel]
  | branch hbranch hstack htaken hlabel =>
      obtain ⟨machine, feed, sink⟩ := session
      dsimp only at hstack hlabel
      rw [perform_branch hbranch, hstack]
      dsimp only
      rw [if_pos htaken, perform_jump]
      dsimp only
      rw [hlabel]
      rfl
  | ret hinstruction hcalls =>
      obtain ⟨machine, feed, sink⟩ := session
      dsimp only at hcalls
      rw [hinstruction, perform_ret, hcalls]
  | @write value rest bytes trouble sink hstack hbytes hwrite =>
      have houtput := Instruction.isOutput_of_output? hbytes
      rw [perform_of_isOutput houtput, pop_bind_of_cons hstack, hbytes]
      exact toSink_eq_error_iff.mpr ⟨trouble, sink, hwrite, rfl, rfl⟩
  | debug hinstruction hwrite =>
      rw [hinstruction]
      exact toSink_eq_error_iff.mpr ⟨_, _, hwrite, rfl, rfl⟩
  | flush hreader hflush => rw [perform_of_reader? hreader, hflush]
  | read hreader hflush hread =>
      rw [perform_of_reader? hreader, hflush]
      dsimp only
      rw [hread]

theorem perform_eq_error_iff :
    perform instruction position session = .error fault after ↔
      instruction.Fails position session fault after := by
  refine ⟨fun h => ?_, perform_of_fails⟩
  cases hreader : instruction.reader? with
  | some reader => exact fails_of_reader? hreader h
  | none =>
      by_cases hstack : session.machine.stack.length < instruction.demand
      · rw [perform_of_underflow hreader hstack] at h
        cases h
        exact .underflow hreader hstack
      · exact fails_of_demand_le hreader (Nat.le_of_not_lt hstack) h

end Fails

end Action

theorem Sink.writes_of_flush {sink sink' : Sink} {result : Unit} (h : Sink.flush sink = .ok result sink') :
    sink'.written = sink.written ∧ sink'.offered = sink.offered := by
  rw [Sink.flush] at h
  split_ifs at h
  cases h
  exact ⟨rfl, rfl⟩

theorem Value.toInteger_eq_zero_iff {value : Value} :
    value.toInteger = 0 ↔ value = .unset ∨ value = .integer 0 ∨ value = .character '\x00' := by
  cases value with
  | unset => simp [Value.toInteger]
  | integer n => simp [Value.toInteger]
  | character c =>
      have hsmall : c.toNat < 2 ^ 63 := Nat.lt_trans c.val.toNat_lt (by decide)
      rw [Value.toInteger, ← Int64.toInt_inj, Int64.toInt_ofNat_of_lt hsmall]
      simp [← Char.toNat_inj]

namespace Instruction

/-- What an instruction with input does before it looks at the stack comes off: the output is flushed and the
input is read. -/
def Supplied (instruction : Instruction) (session : Session) : Prop :=
  ∀ reader, instruction.reader? = some reader →
    (∃ sink, Sink.flush session.sink = .ok () sink) ∧ ∃ value feed, reader session.feed = .ok value feed

theorem demand_of_reader? {instruction : Instruction} {reader : Feed.Reader Value}
    (h : instruction.reader? = some reader) : instruction.demand = 1 := by
  rcases isInput_of_reader? h with rfl | rfl <;> rfl

theorem exists_underflow_iff {instruction : Instruction} {position : Nat} {session : Session} :
    (∃ name place after, instruction.Fails position session (.stackUnderflow name place) after) ↔
      session.machine.stack.length < instruction.demand ∧ instruction.Supplied session := by
  constructor
  · rintro ⟨name, place, after, h⟩
    cases h with
    | underflow hreader hstack =>
        refine ⟨hstack, fun reader h => ?_⟩
        rw [hreader] at h
        cases h
    | address hreader hflush hread hstack =>
        refine ⟨?_, fun reader h => ?_⟩
        · rw [hstack, demand_of_reader? hreader]
          exact Nat.one_pos
        · obtain rfl := Option.some.inj (hreader.symm.trans h)
          exact ⟨⟨_, hflush⟩, _, _, hread⟩
  · rintro ⟨hstack, hsupplied⟩
    cases hreader : instruction.reader? with
    | none => exact ⟨_, _, _, .underflow hreader hstack⟩
    | some reader =>
        obtain ⟨⟨sink, hflush⟩, value, feed, hread⟩ := hsupplied reader hreader
        rw [demand_of_reader? hreader] at hstack
        have hnil : session.machine.stack = [] :=
          List.eq_nil_of_length_eq_zero (Nat.lt_one_iff.mp hstack)
        exact ⟨_, _, _, .address hreader hflush hread hnil⟩

/-- **Underflow is exact and leaves the machine alone.** An instruction runs out of values just if the stack holds
fewer than it takes off or looks at and, if it has input, the flush and the reading before that have come off. The
fault names the instruction and its place, the machine is as it was, and no byte has been offered to the
output. -/
theorem underflow_exact (instruction : Instruction) (position : Nat) (session : Session) :
    ((∃ name place after, instruction.execute position session = .error (.stackUnderflow name place) after) ↔
      session.machine.stack.length < instruction.demand ∧ instruction.Supplied session) ∧
    ∀ name place after, instruction.execute position session = .error (.stackUnderflow name place) after →
      name = instruction.mnemonic ∧ place = position ∧ after.machine = session.machine ∧
      after.sink.written = session.sink.written ∧ after.sink.offered = session.sink.offered ∧
      (after = session ∨ instruction = .inputChar ∨ instruction = .inputNumber) := by
  simp only [execute_eq_error_iff, Action.perform_eq_error_iff]
  refine ⟨exists_underflow_iff, fun name place after h => ?_⟩
  cases h with
  | underflow hreader hstack => exact ⟨rfl, rfl, rfl, rfl, rfl, .inl rfl⟩
  | address hreader hflush hread hstack =>
      obtain ⟨hwritten, hoffered⟩ := Sink.writes_of_flush hflush
      exact ⟨rfl, rfl, rfl, hwritten, hoffered, .inr (isInput_of_reader? hreader)⟩

/-- A number has been read for which there is no address, and the machine is as before. -/
theorem underflow_exact_getn :
    let session : Session := ⟨{ program := [], labels := ∅ }, ⟨[0x2D, 0x37, 0x20], none⟩, {}⟩
    ∃ after, Instruction.inputNumber.execute 3 session = .error (.stackUnderflow "getn" 3) after ∧
      after.machine = session.machine ∧ after.sink.written = #[] := by
  intro session
  have hread : (Value.integer <$> Feed.readNumber) session.feed = .ok (.integer (-7)) ⟨[0x20], none⟩ := by
    rfl
  obtain ⟨hiff, hleft⟩ := underflow_exact .inputNumber 3 session
  have hsupplied : Instruction.inputNumber.Supplied session := by
    rintro _ ⟨⟩
    exact ⟨⟨_, rfl⟩, _, _, hread⟩
  obtain ⟨name, place, after, hexecute⟩ := hiff.mpr ⟨Nat.one_pos, hsupplied⟩
  obtain ⟨rfl, rfl, hmachine, hwritten, _⟩ := hleft name place after hexecute
  exact ⟨after, hexecute, hmachine, hwritten⟩

theorem eq_of_branch? {instruction : Instruction} {label : Label} {taken : Int64 → Bool}
    (h : instruction.branch? = some (label, taken)) :
    instruction = .jumpIfZero label ∨ instruction = .jumpIfNegative label := by
  cases instruction <;> cases h <;> simp

theorem exists_divisionByZero_iff {instruction : Instruction} {position : Nat} {session : Session} :
    (∃ name place after, instruction.Fails position session (.divisionByZero name place) after) ↔
      ∃ right left rest, (instruction = .arithmetic .div ∨ instruction = .arithmetic .mod) ∧
        session.machine.stack = right :: left :: rest ∧ right.toInteger = 0 := by
  constructor
  · rintro ⟨name, place, after, h⟩
    cases h with
    | division hinstruction hoperator hstack hzero =>
        refine ⟨_, _, _, ?_, hstack, hzero⟩
        rcases hoperator with rfl | rfl
        · exact .inl hinstruction
        · exact .inr hinstruction
  · rintro ⟨right, left, rest, rfl | rfl, hstack, hzero⟩
    · exact ⟨_, _, _, .division rfl (.inl rfl) hstack hzero⟩
    · exact ⟨_, _, _, .division rfl (.inr rfl) hstack hzero⟩

/-- **What a failed instruction leaves.** An instruction that fails leaves all of the machine but the stack as it
was, and has taken off the stack the two operands of a division by zero, the value of a branch whose label is
unknown, or the value that could not be written, and nothing in any other case. A division by zero is tried
just by a division or a remainder of two values of which the right one counts as zero, as does an unset one. -/
theorem failure_residue (instruction : Instruction) (position : Nat) (session : Session) :
    (∀ fault after, instruction.execute position session = .error fault after →
      ∃ removed : Stack, session.machine.stack = removed ++ after.machine.stack ∧
        after.machine = { session.machine with stack := after.machine.stack } ∧
        (removed.length = 2 ↔ ∃ name place, fault = .divisionByZero name place) ∧
        (removed.length = 1 ↔
          (∃ label place, fault = .unknownLabel label place ∧
            (instruction = .jumpIfZero label ∨ instruction = .jumpIfNegative label)) ∨
          ∃ trouble, fault = .device trouble ∧ (instruction = .outputChar ∨ instruction = .outputNumber)) ∧
        (removed.length = 0 ↔
          (∃ name place, fault = .stackUnderflow name place) ∨ (∃ place, fault = .callStackUnderflow place) ∨
          (∃ label place, fault = .unknownLabel label place ∧
            (instruction = .call label ∨ instruction = .jump label)) ∨
          ∃ trouble, fault = .device trouble ∧
            (instruction = .debugPrint ∨ instruction = .inputChar ∨ instruction = .inputNumber))) ∧
    ((∃ name place after, instruction.execute position session = .error (.divisionByZero name place) after) ↔
      ∃ right left rest, (instruction = .arithmetic .div ∨ instruction = .arithmetic .mod) ∧
        session.machine.stack = right :: left :: rest ∧ right.toInteger = 0) ∧
    ∀ value : Value, value.toInteger = 0 ↔
      value = .unset ∨ value = .integer 0 ∨ value = .character '\x00' := by
  simp only [execute_eq_error_iff, Action.perform_eq_error_iff]
  refine ⟨fun fault after h => ?_, exists_divisionByZero_iff, fun _ => Value.toInteger_eq_zero_iff⟩
  cases h with
  | underflow hreader hstack => exact ⟨[], rfl, rfl, by simp, by simp, by simp⟩
  | address hreader hflush hread hstack => exact ⟨[], rfl, rfl, by simp, by simp, by simp⟩
  | division hinstruction hoperator hstack hzero =>
      exact ⟨[_, _], hstack, rfl, by simp, by simp, by simp⟩
  | target hinstruction hlabel =>
      rcases hinstruction with rfl | rfl <;> exact ⟨[], rfl, rfl, by simp, by simp, by simp⟩
  | branch hbranch hstack htaken hlabel =>
      rcases eq_of_branch? hbranch with rfl | rfl <;>
        exact ⟨[_], hstack, rfl, by simp, by simp, by simp⟩
  | ret hinstruction hcalls => exact ⟨[], rfl, rfl, by simp, by simp, by simp⟩
  | write hstack hbytes hwrite =>
      rcases isOutput_of_output? hbytes with rfl | rfl <;>
        exact ⟨[_], hstack, rfl, by simp, by simp, by simp⟩
  | debug hinstruction hwrite =>
      subst hinstruction
      exact ⟨[], rfl, rfl, by simp, by simp, by simp⟩
  | flush hreader hflush =>
      rcases isInput_of_reader? hreader with rfl | rfl <;>
        exact ⟨[], rfl, rfl, by simp, by simp, by simp⟩
  | read hreader hflush hread =>
      rcases isInput_of_reader? hreader with rfl | rfl <;>
        exact ⟨[], rfl, rfl, by simp, by simp, by simp⟩

/-- A division by an unset value has both of its operands taken off. -/
theorem failure_residue_unset :
    let session : Session :=
      ⟨{ program := [], labels := ∅, stack := [.unset, .integer 7, .character 'x'] }, ⟨[], none⟩, {}⟩
    ∃ name place after, (arithmetic .div).execute 3 session = .error (.divisionByZero name place) after ∧
      after.machine.stack = [.character 'x'] := by
  intro session
  obtain ⟨hleft, hdivision, hzero⟩ := failure_residue (arithmetic .div) 3 session
  obtain ⟨name, place, after, hexecute⟩ :=
    hdivision.mpr ⟨.unset, .integer 7, _, .inl rfl, rfl, (hzero .unset).mpr (.inl rfl)⟩
  refine ⟨name, place, after, hexecute, ?_⟩
  obtain ⟨removed, hstack, _, htwo, _⟩ := hleft _ _ hexecute
  have hlength : removed.length = 2 := htwo.mpr ⟨name, place, rfl⟩
  have hdrop : (removed ++ after.machine.stack).drop 2 = after.machine.stack := List.drop_left' hlength
  rw [← hdrop, ← hstack]
  rfl

end Instruction

end MarkMachine
