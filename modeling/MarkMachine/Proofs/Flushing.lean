import MarkMachine.Proofs.History

/-! The order of reading, writing and flushing. What a run does is taken apart into its contacts with the
input and the output. A step that begins an instruction without input can only write; one that begins an
instruction with input flushes before it does anything else, and then only reads. So at each reading all
that has been written has been flushed, and a run flushes once for each instruction with input that it
begins, and once more when it ends. -/

namespace MarkMachine

/-- A contact with the input or the output. -/
inductive Contact where
  /-- The input is read: bytes of it are looked at or taken. -/
  | read
  /-- A byte is offered to the output. -/
  | wrote
  /-- A flush is tried. -/
  | flushed (granted : Bool)

namespace Contact

def isFlush : Contact → Bool
  | .flushed _ => true
  | _ => false

theorem countP_isFlush {contacts : List Contact} {contact : Contact} (hcontact : contact.isFlush = false)
    (h : ∀ made ∈ contacts, made = contact) : contacts.countP isFlush = 0 := by
  rw [List.countP_eq_zero]
  intro made hmade
  simp [h made hmade, hcontact]

/-- Before each reading there is a flush that is granted, and nothing is written between the two. -/
def Guarded (contacts : List Contact) : Prop :=
  ∀ before after, contacts = before ++ .read :: after →
    ∃ first second, before = first ++ .flushed true :: second ∧ .wrote ∉ second

theorem guarded_of_notMem {contacts : List Contact} (h : .read ∉ contacts) : Guarded contacts := by
  intro before after hcontacts
  apply absurd _ h
  simp [hcontacts]

theorem guarded_flushed {contacts : List Contact} (h : ∀ contact ∈ contacts, contact = .read) :
    Guarded (.flushed true :: contacts) := by
  intro before after hcontacts
  cases before with
  | nil => cases hcontacts
  | cons head second =>
      obtain ⟨rfl, rfl⟩ := List.cons_eq_cons.mp hcontacts
      refine ⟨[], second, rfl, fun hwrote => ?_⟩
      cases h .wrote (List.mem_append_left _ hwrote)

theorem Guarded.append {contacts more : List Contact} (h : Guarded contacts) (hmore : Guarded more) :
    Guarded (contacts ++ more) := by
  intro before after hcontacts
  rcases List.append_eq_append_iff.mp hcontacts with
    ⟨middle, rfl, hmiddle⟩ | ⟨middle, rfl, hmiddle⟩
  · obtain ⟨first, second, rfl, hwrote⟩ := hmore middle after hmiddle
    exact ⟨contacts ++ first, second, (List.append_assoc _ _ _).symm, hwrote⟩
  · cases middle with
    | nil =>
        -- A reading at the front of the second list would have no flush before it there.
        obtain ⟨first, second, hnil, _⟩ := hmore [] after hmiddle.symm
        simp at hnil
    | cons head middle =>
        obtain ⟨rfl, _⟩ := List.cons_eq_cons.mp hmiddle
        exact h before middle rfl

end Contact

def Session.withFeed (feed : Feed) (session : Session) : Session :=
  { session with feed }

namespace Action

variable {α β : Type}

/-- The contacts that an action makes when it is carried out on a session, one after the other. -/
inductive Makes : {α : Type} → Action α → Session → List Contact → Prop
  | inward {α : Type} {action : Action α} (h : Inward action) (session : Session) : Makes action session []
  | read {α : Type} (reader : Feed.Reader α) (session : Session) :
      Makes (fromFeed reader) session [.read]
  | write (byte : UInt8) (session : Session) : Makes (toSink (Sink.writeByte byte)) session [.wrote]
  | flush (session : Session) :
      Makes (toSink Sink.flush) session [.flushed !session.sink.refusesFlush session.sink.flushes]
  | bind {α β : Type} {action : Action α} {next : α → Action β} {session middle : Session} {value : α}
      {contacts more : List Contact} (h : Makes action session contacts)
      (hresult : action session = .ok value middle) (hnext : Makes (next value) middle more) :
      Makes (action >>= next) session (contacts ++ more)
  | fail {α β : Type} {action : Action α} {next : α → Action β} {session after : Session} {fault : Fault}
      {contacts : List Contact} (h : Makes action session contacts)
      (hresult : action session = .error fault after) : Makes (action >>= next) session contacts

theorem left_bind_of_ok {action : Action α} {next : α → Action β} {session middle : Session} {value : α}
    (h : action session = .ok value middle) :
    left ((action >>= next) session) = left (next value middle) := by
  rw [bind_apply, h]

theorem left_bind_of_error {action : Action α} {next : α → Action β} {session after : Session}
    {fault : Fault} (h : action session = .error fault after) :
    left ((action >>= next) session) = left (action session) := by
  rw [bind_apply, h]
  rfl

theorem sink_fromFeed (reader : Feed.Reader α) (session : Session) :
    (left (fromFeed reader session)).sink = session.sink := by
  rw [fromFeed]
  cases reader session.feed <;> rfl

theorem toSink_withFeed (write : Sink.Writer α) (feed : Feed) (session : Session) :
    toSink write (session.withFeed feed) = leaving (Session.withFeed feed) (toSink write session) :=
  toSink_feed write (fun _ => feed) session

theorem Inward.withFeed {action : Action α} (h : Inward action) (feed : Feed) (session : Session) :
    action (session.withFeed feed) = leaving (Session.withFeed feed) (action session) := by
  rw [Session.withFeed, h session feed session.sink]
  apply leaving_congr
  rw [Session.withFeed, ← (h.devices_left session).2]

namespace Makes

variable {action : Action α} {session : Session} {contacts : List Contact}

theorem flushes (h : Makes action session contacts) :
    (left (action session)).sink.flushes = session.sink.flushes + contacts.countP Contact.isFlush := by
  induction h with
  | inward h session => rw [(h.devices_left session).2, List.countP_nil, Nat.add_zero]
  | read reader session => simp [sink_fromFeed, Contact.isFlush]
  | write byte session =>
      rw [toSink, Sink.writeByte]
      split_ifs <;> simp [left, Contact.isFlush]
  | flush session =>
      rw [toSink, Sink.flush]
      split_ifs <;> simp [left, Contact.isFlush]
  | bind h hresult hnext ih ihnext =>
      rw [hresult, left] at ih
      rw [left_bind_of_ok hresult, ihnext, ih, List.countP_append, Nat.add_assoc]
  | fail h hresult ih => rw [left_bind_of_error hresult, ih]

/-- What has not been on record as written has not been written. -/
theorem written (h : Makes action session contacts) (hwrote : .wrote ∉ contacts) :
    (left (action session)).sink.written = session.sink.written := by
  induction h with
  | inward h session => rw [(h.devices_left session).2]
  | read reader session => rw [sink_fromFeed]
  | write byte session => simp at hwrote
  | flush session =>
      rw [toSink, Sink.flush]
      split_ifs <;> rfl
  | bind h hresult hnext ih ihnext =>
      rw [List.mem_append, not_or] at hwrote
      rw [hresult, left] at ih
      rw [left_bind_of_ok hresult, ihnext hwrote.2, ih hwrote.1]
  | fail h hresult ih => rw [left_bind_of_error hresult, ih hwrote]

/-- An action that does not read neither heeds nor changes the input. -/
theorem blind (h : Makes action session contacts) (hread : .read ∉ contacts) (feed : Feed) :
    action (session.withFeed feed) = leaving (Session.withFeed feed) (action session) := by
  induction h with
  | inward h session => exact h.withFeed feed session
  | read reader session => simp at hread
  | write byte session => exact toSink_withFeed _ feed session
  | flush session => exact toSink_withFeed _ feed session
  | bind h hresult hnext ih ihnext =>
      rw [List.mem_append, not_or] at hread
      rw [bind_apply, bind_apply, ih hread.1, hresult]
      exact ihnext hread.2
  | fail h hresult ih =>
      rw [bind_apply, bind_apply, ih hread, hresult]
      rfl

theorem after_inward {next : α → Action β} {value : α} {middle : Session} (haction : Inward action)
    (hresult : action session = .ok value middle) (h : Makes (next value) middle contacts) :
    Makes (action >>= next) session contacts :=
  bind (inward haction session) hresult h

theorem then_pure (h : Makes action session contacts) (f : α → β) :
    Makes (action >>= fun value => Pure.pure (f value)) session contacts := by
  cases hresult : action session with
  | ok value middle =>
      have hbind : Makes (action >>= fun value => Pure.pure (f value)) session (contacts ++ []) :=
        bind h hresult (inward (inward_pure (f value)) middle)
      rwa [List.append_nil] at hbind
  | error fault after => exact fail h hresult

end Makes

/-- An action that makes no other contacts. -/
def MakesOnly (contact : Contact) (action : Action α) : Prop :=
  ∀ session, ∃ contacts, Makes action session contacts ∧ ∀ made ∈ contacts, made = contact

variable {contact : Contact}

theorem Inward.makesOnly {action : Action α} (h : Inward action) : MakesOnly contact action :=
  fun session => ⟨[], .inward h session, nofun⟩

theorem MakesOnly.bind {action : Action α} {next : α → Action β} (h : MakesOnly contact action)
    (hnext : ∀ value, MakesOnly contact (next value)) : MakesOnly contact (action >>= next) := by
  intro session
  obtain ⟨contacts, hmakes, honly⟩ := h session
  cases hresult : action session with
  | error fault after => exact ⟨contacts, .fail hmakes hresult, honly⟩
  | ok value middle =>
      obtain ⟨more, hmore, honlymore⟩ := hnext value middle
      refine ⟨contacts ++ more, .bind hmakes hresult hmore, fun made hmade => ?_⟩
      rcases List.mem_append.mp hmade with hfirst | hsecond
      · exact honly made hfirst
      · exact honlymore made hsecond

theorem makesOnly_fromFeed (reader : Feed.Reader α) : MakesOnly .read (fromFeed reader) :=
  fun session => ⟨[.read], .read reader session, fun _ => List.eq_of_mem_singleton⟩

theorem makesOnly_write (bytes : List UInt8) : MakesOnly .wrote (toSink (Sink.write bytes)) := by
  induction bytes with
  | nil => exact (inward_pure ()).makesOnly
  | cons byte bytes ih =>
      rw [Sink.write, toSink_bind]
      refine MakesOnly.bind (fun session => ?_) fun _ => ih
      exact ⟨[.wrote], .write byte session, fun _ => List.eq_of_mem_singleton⟩

theorem inputless_makesOnly : Inputless (MakesOnly .wrote) where
  bind := MakesOnly.bind
  inward := Inward.makesOnly
  write := makesOnly_write

theorem makesOnly_readInto (reader : Feed.Reader α) (wrap : α → Value) (name : String) (position : Nat) :
    MakesOnly .read (do
      let value ← fromFeed reader
      let address ← pop name position
      store address.toInteger (wrap value)) := by
  refine (makesOnly_fromFeed _).bind fun _ => (inward_pop _ _).makesOnly.bind fun _ => ?_
  exact (inward_change _).makesOnly

/-- An instruction with input flushes the output first. -/
theorem perform_of_isInput {instruction : Instruction} (h : instruction.isInput = true) (position : Nat) :
    ∃ rest, MakesOnly .read rest ∧
      perform instruction position = toSink Sink.flush >>= fun _ => rest := by
  cases instruction with
  | inputChar => exact ⟨_, makesOnly_readInto Feed.readChar .character _ position, rfl⟩
  | inputNumber => exact ⟨_, makesOnly_readInto Feed.readNumber .integer _ position, rfl⟩
  | _ => cases h

theorem flush_of_refused {session : Session}
    (h : session.sink.refusesFlush session.sink.flushes = true) :
    toSink Sink.flush session = .error (.device .flushRefused)
      { session with sink := { session.sink with flushes := session.sink.flushes + 1 } } := by
  rw [toSink, Sink.flush, if_pos h]

theorem flush_of_granted {session : Session}
    (h : session.sink.refusesFlush session.sink.flushes = false) :
    toSink Sink.flush session = .ok () { session with
      sink := { session.sink with flushes := session.sink.flushes + 1, pending := 0 } } := by
  rw [toSink, Sink.flush, if_neg (by rw [h]; decide)]

theorem perform_of_refused {instruction : Instruction} {session : Session}
    (hinput : instruction.isInput = true)
    (hrefused : session.sink.refusesFlush session.sink.flushes = true) (position : Nat) :
    perform instruction position session = .error (.device .flushRefused)
      { session with sink := { session.sink with flushes := session.sink.flushes + 1 } } := by
  obtain ⟨rest, _, hperform⟩ := perform_of_isInput hinput position
  rw [hperform, bind_apply, flush_of_refused hrefused]

theorem exists_contacts_of_isInput {instruction : Instruction} (h : instruction.isInput = true)
    (position : Nat) (session : Session) :
    ∃ contacts, Makes (perform instruction position) session contacts ∧
      (contacts = [.flushed false] ∨
        ∃ more, contacts = .flushed true :: more ∧ ∀ contact ∈ more, contact = .read) := by
  obtain ⟨rest, hrest, hperform⟩ := perform_of_isInput h position
  have hflush := Makes.flush session
  rw [hperform]
  cases hrefused : session.sink.refusesFlush session.sink.flushes with
  | true =>
      rw [hrefused] at hflush
      exact ⟨_, .fail hflush (flush_of_refused hrefused), .inl rfl⟩
  | false =>
      rw [hrefused] at hflush
      have hgranted := flush_of_granted hrefused
      obtain ⟨more, hmore, honly⟩ := hrest (left (toSink Sink.flush session))
      rw [hgranted] at hmore
      exact ⟨_, .bind hflush hgranted hmore, .inr ⟨more, rfl, honly⟩⟩

end Action

namespace Session

open MarkMachine.Action

/-- The next step begins an instruction with input. -/
def asks (session : Session) : Bool :=
  session.machine.due?.any Instruction.isInput

theorem asks_iff {session : Session} :
    session.asks = true ↔ ∃ instruction, session.machine.due? = some instruction ∧
      instruction.isInput = true := by
  rw [asks]
  cases session.machine.due? <;> simp

/-- The contacts that a step can make: it only writes, or it begins an instruction with input and flushes,
and reads if the flush is granted. -/
inductive StepContacts (session : Session) : List Contact → Prop
  | output {contacts : List Contact} (hasks : session.asks = false)
      (h : ∀ contact ∈ contacts, contact = .wrote) : StepContacts session contacts
  | refused (hasks : session.asks = true) : StepContacts session [.flushed false]
  | input {contacts : List Contact} (hasks : session.asks = true)
      (h : ∀ contact ∈ contacts, contact = .read) : StepContacts session (.flushed true :: contacts)

namespace StepContacts

variable {session : Session} {contacts : List Contact}

theorem guarded (h : session.StepContacts contacts) : Contact.Guarded contacts := by
  cases h with
  | output _ honly =>
      apply Contact.guarded_of_notMem
      intro hread
      cases honly .read hread
  | refused _ => exact Contact.guarded_of_notMem (by simp)
  | input _ honly => exact Contact.guarded_flushed honly

theorem flushes (h : session.StepContacts contacts) :
    contacts.countP Contact.isFlush = session.asks.toNat := by
  cases h with
  | output hasks honly => rw [hasks, Contact.countP_isFlush rfl honly, Bool.toNat_false]
  | refused hasks => simp [hasks, Contact.isFlush]
  | input hasks honly =>
      rw [hasks, List.countP_cons, Contact.countP_isFlush rfl honly]
      rfl

end StepContacts

theorem makes_step_of_execute {session : Session} {instruction : Instruction} {width : Nat}
    {contacts : List Contact} (hdone : session.machine.isDone = false)
    (hlast : session.machine.lastPc ≠ some session.machine.pc)
    (hdecode : Instruction.decode session.machine.ahead = .found instruction width)
    (h : Makes (instruction.execute session.machine.pc)
      (session.start ⟨session.machine.pc, instruction, session.machine.pc + width⟩) contacts) :
    Makes step session contacts := by
  rw [step_eq_ask_bind]
  refine .after_inward (inward_ask _) rfl ?_
  rw [stepFrom, if_neg (by rw [hdone]; decide), if_neg hlast, hdecode]
  exact .after_inward (inward_change _) rfl (.after_inward (inward_change _) rfl h)

theorem exists_stepContacts (session : Session) :
    ∃ contacts, Makes step session contacts ∧ session.StepContacts contacts := by
  cases hasks : session.asks with
  | false =>
      -- Only the instruction that is due has to be without input, not every one that the step could begin.
      have hstep : MakesOnly .wrote (stepFrom session.machine) := by
        refine inputless_makesOnly.stepFrom fun instruction hdue position => ?_
        apply inputless_makesOnly.perform
        rwa [asks, hdue] at hasks
      obtain ⟨contacts, hmakes, honly⟩ := hstep session
      refine ⟨contacts, ?_, .output hasks honly⟩
      rw [step_eq_ask_bind]
      exact .after_inward (inward_ask _) rfl hmakes
  | true =>
      obtain ⟨instruction, hdue, hinput⟩ := asks_iff.mp hasks
      obtain ⟨hdone, hlast, width, hdecode⟩ := Machine.due?_eq_some_iff.mp hdue
      obtain ⟨contacts, hmakes, hcontacts⟩ := exists_contacts_of_isInput hinput session.machine.pc
        (session.start ⟨session.machine.pc, instruction, session.machine.pc + width⟩)
      refine ⟨contacts, makes_step_of_execute hdone hlast hdecode (hmakes.then_pure _), ?_⟩
      rcases hcontacts with rfl | ⟨more, rfl, honly⟩
      · exact .refused hasks
      · exact .input hasks honly

/-- An instruction with input that may not flush leaves everything else alone. -/
theorem step_of_refused {session : Session} {instruction : Instruction}
    (hdue : session.machine.due? = some instruction) (hinput : instruction.isInput = true)
    (hrefused : session.sink.refusesFlush session.sink.flushes = true) :
    ∃ after, step session = .error (.device .flushRefused) after ∧ after.feed = session.feed ∧
      after.machine.stack = session.machine.stack ∧ after.machine.heap = session.machine.heap := by
  obtain ⟨hdone, hlast, width, hdecode⟩ := Machine.due?_eq_some_iff.mp hdue
  have hstart : (session.start ⟨session.machine.pc, instruction, session.machine.pc + width⟩).sink =
      session.sink := rfl
  rw [← hstart] at hrefused
  rw [step_of_decode hdone hlast hdecode, Instruction.execute_eq_error_iff.mpr (perform_of_refused hinput hrefused _)]
  exact ⟨_, rfl, rfl, rfl, rfl⟩

theorem flushes_iterate_stepped (session : Session) (count : Nat) :
    (stepped^[count] session).sink.flushes =
      session.sink.flushes + (session.begun count).countP Instruction.isInput := by
  induction count with
  | zero => rfl
  | succ count ih =>
      obtain ⟨contacts, hmakes, hcontacts⟩ := exists_stepContacts (stepped^[count] session)
      have hdue : (stepped^[count] session).asks.toNat =
          (stepped^[count] session).machine.due?.toList.countP Instruction.isInput := by
        rw [asks]
        cases (stepped^[count] session).machine.due? with
        | none => rfl
        | some instruction => cases hinput : instruction.isInput <;> simp [hinput]
      rw [Function.iterate_succ_apply', stepped, hmakes.flushes, hcontacts.flushes, ih, hdue, begun_succ,
        List.countP_append, Nat.add_assoc]

/-- The contacts that a run makes in its next so many steps, and in the last flush if it ends in them. -/
inductive Transcript : Nat → Session → List Contact → Prop
  | start (session : Session) : Transcript 0 session []
  | goes {count : Nat} {session after : Session} {contacts more : List Contact}
      (hstep : step session = .ok .running after) (h : Makes step session contacts)
      (hmore : Transcript count after more) : Transcript (count + 1) session (contacts ++ more)
  | ends {session : Session} {contacts : List Contact} (count : Nat)
      (hstep : ∀ after, step session ≠ .ok .running after) (h : Makes step session contacts) :
      Transcript (count + 1) session
        (contacts ++ [.flushed !session.stepped.sink.refusesFlush session.stepped.sink.flushes])

theorem exists_transcript (count : Nat) (session : Session) :
    ∃ contacts, Transcript count session contacts ∧ Contact.Guarded contacts := by
  induction count generalizing session with
  | zero => exact ⟨[], .start session, Contact.guarded_of_notMem List.not_mem_nil⟩
  | succ count ih =>
      obtain ⟨contacts, hmakes, hcontacts⟩ := exists_stepContacts session
      by_cases hruns : ∃ after, step session = .ok .running after
      · obtain ⟨after, hstep⟩ := hruns
        obtain ⟨more, hmore, hguarded⟩ := ih after
        exact ⟨_, .goes hstep hmakes hmore, hcontacts.guarded.append hguarded⟩
      · rw [not_exists] at hruns
        refine ⟨_, .ends count hruns hmakes, hcontacts.guarded.append ?_⟩
        exact Contact.guarded_of_notMem (by simp)

namespace Transcript

variable {count : Nat} {session : Session} {contacts : List Contact}

theorem written (h : Transcript count session contacts) (hwrote : .wrote ∉ contacts) :
    (advance count session).session.sink.written = session.sink.written := by
  induction h with
  | start session => rfl
  | @goes count session after _ _ hstep hmakes _ ih =>
      rw [List.mem_append, not_or] at hwrote
      have hafter := hmakes.written hwrote.1
      rw [hstep, left] at hafter
      rw [advance, hstep]
      exact (ih hwrote.2).trans hafter
  | @ends session _ count hstep hmakes =>
      rw [List.mem_append, not_or] at hwrote
      obtain ⟨result, hclose⟩ := exists_advance_eq_close hstep count
      rw [hclose, session_close, (Makes.flush session.stepped).written (by simp)]
      exact hmakes.written hwrote.1

/-- A run that has not read does the same with any other input. -/
theorem blind (h : Transcript count session contacts) (hread : .read ∉ contacts) (feed : Feed) :
    advance count (session.withFeed feed) = (advance count session).leaving (withFeed feed) := by
  induction h with
  | start session => rfl
  | goes hstep hmakes _ ih =>
      rw [List.mem_append, not_or] at hread
      rw [advance, advance, hmakes.blind hread.1, hstep]
      exact ih hread.2
  | ends count hstep hmakes =>
      rw [List.mem_append, not_or] at hread
      rw [advance, advance, hmakes.blind hread.1]
      cases hresult : step _ with
      | error fault after => exact close_leaving (toSink_withFeed _ feed after) _
      | ok outcome after =>
          cases outcome with
          | running => exact absurd hresult (hstep after)
          | finished => exact close_leaving (toSink_withFeed _ feed after) _

theorem exists_last_flush (h : Transcript count session contacts) {result : Except Fault Unit}
    {final : Session} (hended : advance count session = .ended result final) :
    ∃ before granted, contacts = before ++ [.flushed granted] := by
  induction h with
  | start session => cases hended
  | @goes _ _ _ contacts _ hstep _ _ ih =>
      rw [advance, hstep] at hended
      obtain ⟨before, granted, rfl⟩ := ih hended
      exact ⟨contacts ++ before, granted, (List.append_assoc _ _ _).symm⟩
  | ends => exact ⟨_, _, rfl⟩

end Transcript

/-- **Output is flushed before input is read.** In the contacts of a run with its input and output, each reading comes
after a flush that was granted, with no write in between. A refused flush leaves the input, the stack and the heap
alone. A run ends with a flush, has then tried one more than it has begun instructions with input, and its
result is the fault of the last step, or else that of the last flush. -/
theorem reads_after_flush {source : String} {feed : Feed} {sink : Sink} {session : Session}
    (hload : Session.load source feed sink = .ok session) (count : Nat) :
    ∃ contacts, Transcript count session contacts ∧
      (.wrote ∉ contacts → (advance count session).session.sink.written = sink.written) ∧
      (.read ∉ contacts → ∀ other,
        advance count (session.withFeed other) = (advance count session).leaving (withFeed other)) ∧
      (∀ before after, contacts = before ++ .read :: after →
        ∃ first second, before = first ++ .flushed true :: second ∧ .wrote ∉ second) ∧
      (∀ index state instruction, state = stepped^[index] session →
        state.machine.due? = some instruction → instruction.isInput = true →
        state.sink.refusesFlush state.sink.flushes = true →
        ∃ after, step state = .error (.device .flushRefused) after ∧ after.feed = state.feed ∧
          after.machine.stack = state.machine.stack ∧ after.machine.heap = state.machine.heap) ∧
      ∀ report, run count source feed sink = some report →
        (∃ before granted, contacts = before ++ [.flushed granted]) ∧
        ∃ last < count, session.Goes last ∧
          report.sink.flushes =
            sink.flushes + (session.begun (last + 1)).countP Instruction.isInput + 1 ∧
          ((∃ fault after, step (stepped^[last] session) = .error fault after ∧
              report.result = .error fault) ∨
            ∃ after, step (stepped^[last] session) = .ok .finished after ∧
              report.result = if after.sink.refusesFlush after.sink.flushes then
                .error (.device .flushRefused) else .ok ()) := by
  have hsink : session.sink = sink := by
    obtain ⟨machine, _, rfl⟩ := Session.load_eq_ok_iff.mp hload
    rfl
  obtain ⟨contacts, htranscript, hguarded⟩ := exists_transcript count session
  refine ⟨contacts, htranscript, hsink ▸ htranscript.written, htranscript.blind, hguarded,
    fun _ _ _ _ => step_of_refused, fun report hrun => ?_⟩
  rw [run, hload] at hrun
  dsimp only at hrun
  cases hended : advance count session with
  | running state =>
      rw [hended] at hrun
      cases hrun
  | ended result final =>
      rw [hended] at hrun
      cases hrun
      refine ⟨htranscript.exists_last_flush hended, ?_⟩
      obtain ⟨last, hlast, hgoes, rfl, hresult⟩ := exists_last_step hended
      refine ⟨last, hlast, hgoes, ?_, hresult⟩
      have hflush := (Makes.flush (stepped^[last + 1] session)).flushes
      rw [flushes_iterate_stepped, hsink] at hflush
      simpa [Contact.isFlush] using hflush

/-- A program that writes and then reads a number, with an output that grants no flush: the write is on
record, but the number stays unread. -/
theorem reads_after_flush_refused :
    let source := "かなり便利便利便利\n感極まってきました\n感極まってきました感極まってきました"
    let sink := Sink.limited none (some 0)
    ∃ session, Session.load source ⟨[0x37], none⟩ sink = .ok session ∧
      (∃ contacts, Transcript 3 session contacts ∧ .wrote ∈ contacts ∧
        ∃ before granted, contacts = before ++ [.flushed granted]) ∧
      ∃ after, step (stepped^[2] session) = .error (.device .flushRefused) after ∧
        after.feed.bytes = [0x37] := by
  intro source sink
  have hending : (Program.ofSource source).walk.ending = .ok 9 := by
    decide +kernel
  have hload := Session.load_of_ending hending ⟨[0x37], none⟩ sink
  refine ⟨_, hload, ?_⟩
  generalize hsession : Session.mk _ _ _ = session at hload ⊢
  obtain ⟨contacts, htranscript, hwritten, _, _, hrefused, hreport⟩ := reads_after_flush hload 3
  have hstate : 0 < (advance 3 session).session.sink.written.size ∧
      (stepped^[2] session).machine.due? = some .inputNumber ∧
      (stepped^[2] session).sink.refusesFlush (stepped^[2] session).sink.flushes = true ∧
      (stepped^[2] session).feed.bytes = [0x37] := by
    subst hsession
    decide +kernel
  obtain ⟨hsize, hdue, hrefuses, hunread⟩ := hstate
  have hrun : (run 3 source ⟨[0x37], none⟩ sink).isSome = true := by
    decide +kernel
  refine ⟨⟨contacts, htranscript, ?_, ?_⟩, ?_⟩
  · by_contra hwrote
    rw [hwritten hwrote] at hsize
    exact absurd hsize (by decide)
  · obtain ⟨report, hrun⟩ := Option.isSome_iff_exists.mp hrun
    exact (hreport report hrun).1
  · obtain ⟨after, hstep, hfeed, _⟩ := hrefused 2 _ _ rfl hdue rfl hrefuses
    exact ⟨after, hstep, hfeed ▸ hunread⟩

end Session

end MarkMachine
