import MarkMachine.Proofs.Course
import MarkMachine.Proofs.Devices

/-! Input that has not been read. Reading looks at bytes one at a time, and beyond those that it takes only
at the next one, to see where a number ends. So a run that leaves some input unread would have been the
same with any other input from the second unread byte on. -/

namespace MarkMachine

def Session.withBytes (bytes : List UInt8) (session : Session) : Session :=
  { session with feed := { session.feed with bytes } }

def Session.unread (session : Session) : List UInt8 :=
  session.feed.bytes

namespace Feed

variable {α : Type}

/-- Reading that looks no further than one byte behind those it takes: with anything else behind that byte
it comes to the same. -/
def Shortsighted (read : Reader α) : Prop :=
  ∀ bytes sound, ∃ taken rest sound', bytes = taken ++ rest ∧
    ((∃ value, ∀ later : List UInt8, later.head? = rest.head? →
        read ⟨taken ++ later, sound⟩ = .ok value ⟨later, sound'⟩) ∨
      ∃ fault, ∀ later : List UInt8, later.head? = rest.head? →
        read ⟨taken ++ later, sound⟩ = .error fault ⟨later, sound'⟩)

theorem readByte_eq (bytes : List UInt8) (sound : Option Nat) :
    readByte ⟨bytes, sound⟩ =
      if sound = some 0 then .error .sourceBroken ⟨bytes, sound⟩
      else
        match bytes with
        | [] => .error .endOfInput ⟨[], sound⟩
        | byte :: bytes => .ok byte ⟨bytes, sound.map (· - 1)⟩ := by
  simp only [readByte, bind, EStateM.bind, peek]
  split_ifs
  · rfl
  · cases bytes <;> rfl

theorem shortsighted_readByte : Shortsighted readByte := by
  intro bytes sound
  by_cases hsound : sound = some 0
  · refine ⟨[], bytes, sound, rfl, .inr ⟨.sourceBroken, fun later _ => ?_⟩⟩
    rw [readByte_eq, if_pos hsound, List.nil_append]
  cases bytes with
  | nil =>
      refine ⟨[], [], sound, rfl, .inr ⟨.endOfInput, fun later hhead => ?_⟩⟩
      obtain rfl : later = [] := List.head?_eq_none_iff.mp hhead
      rw [readByte_eq, if_neg hsound, List.nil_append]
  | cons byte bytes =>
      refine ⟨[byte], bytes, sound.map (· - 1), rfl, .inl ⟨byte, fun later _ => ?_⟩⟩
      rw [readByte_eq, if_neg hsound, List.singleton_append]

theorem takeWhile_cons (p : UInt8 → Bool) (byte : UInt8) (bytes : List UInt8) {sound : Option Nat}
    (h : sound ≠ some 0) :
    takeWhile p (byte :: bytes) sound =
      if p byte then
        match takeWhile p bytes (sound.map (· - 1)) with
        | .ok word feed => .ok (byte :: word) feed
        | .error fault feed => .error fault feed
      else .ok [] ⟨byte :: bytes, sound⟩ := by
  cases sound with
  | none => rfl
  | some left =>
      cases left with
      | zero => exact absurd rfl h
      | succ left => rfl

theorem shortsighted_readWhile (p : UInt8 → Bool) : Shortsighted (readWhile p) := by
  intro bytes sound
  change ∃ taken rest sound', bytes = taken ++ rest ∧
    ((∃ word, ∀ later : List UInt8, later.head? = rest.head? →
        takeWhile p (taken ++ later) sound = .ok word ⟨later, sound'⟩) ∨
      ∃ fault, ∀ later : List UInt8, later.head? = rest.head? →
        takeWhile p (taken ++ later) sound = .error fault ⟨later, sound'⟩)
  induction bytes generalizing sound with
  | nil =>
      refine ⟨[], [], sound, rfl, ?_⟩
      by_cases hsound : sound = some 0
      · refine .inr ⟨.sourceBroken, fun later _ => ?_⟩
        rw [hsound, takeWhile, List.nil_append]
      · refine .inl ⟨[], fun later hhead => ?_⟩
        obtain rfl : later = [] := List.head?_eq_none_iff.mp hhead
        rw [List.nil_append, takeWhile]
        exact hsound
  | cons byte bytes ih =>
      by_cases hsound : sound = some 0
      · refine ⟨[], byte :: bytes, sound, rfl, .inr ⟨.sourceBroken, fun later _ => ?_⟩⟩
        rw [hsound, takeWhile, List.nil_append]
      by_cases hp : p byte = true
      · obtain ⟨taken, rest, sound', rfl, hresult⟩ := ih (sound.map (· - 1))
        refine ⟨byte :: taken, rest, sound', rfl, ?_⟩
        rcases hresult with ⟨word, hword⟩ | ⟨fault, hfault⟩
        · refine .inl ⟨byte :: word, fun later hhead => ?_⟩
          rw [List.cons_append, takeWhile_cons p _ _ hsound, if_pos hp, hword later hhead]
        · refine .inr ⟨fault, fun later hhead => ?_⟩
          rw [List.cons_append, takeWhile_cons p _ _ hsound, if_pos hp, hfault later hhead]
      · -- The byte that does not fit is the one that is looked at and left.
        refine ⟨[], byte :: bytes, sound, rfl, .inl ⟨[], fun later hhead => ?_⟩⟩
        obtain ⟨rest, rfl⟩ := List.head?_eq_some_iff.mp hhead
        rw [List.nil_append, takeWhile_cons p _ _ hsound, if_neg hp]

end Feed

namespace Action

variable {α β : Type}

/-- An action that looks no further than one byte behind those it takes: with anything else behind that
byte it does the same. -/
def Shortsighted (action : Action α) : Prop :=
  ∀ session, ∃ taken, session.unread = taken ++ (left (action session)).unread ∧
    ∀ later : List UInt8, later.head? = (left (action session)).unread.head? →
      action (session.withBytes (taken ++ later)) = leaving (Session.withBytes later) (action session)

theorem Shortsighted.bind {action : Action α} {next : α → Action β} (h : Shortsighted action)
    (hnext : ∀ value, Shortsighted (next value)) : Shortsighted (action >>= next) := by
  intro session
  obtain ⟨taken, hunread, hlater⟩ := h session
  rw [bind_apply]
  cases hresult : action session with
  | error fault after =>
      rw [hresult] at hunread hlater
      refine ⟨taken, hunread, fun later hhead => ?_⟩
      rw [bind_apply, hlater later hhead]
      rfl
  | ok value middle =>
      rw [hresult] at hunread hlater
      obtain ⟨taken', hunread', hlater'⟩ := hnext value middle
      refine ⟨taken ++ taken', ?_, fun later hhead => ?_⟩
      · rw [hunread, left, hunread', List.append_assoc]
      · have hmiddle : (taken' ++ later).head? = middle.unread.head? := by
          rw [hunread', List.head?_append, List.head?_append, hhead]
        rw [List.append_assoc, bind_apply, hlater _ hmiddle]
        exact hlater' later hhead

theorem Inward.shortsighted {action : Action α} (h : Inward action) : Shortsighted action := by
  intro session
  obtain ⟨hfeed, hsink⟩ := h.devices_left session
  refine ⟨[], ?_, fun later _ => ?_⟩
  · rw [Session.unread, Session.unread, hfeed, List.nil_append]
  · have hsession := h session { session.feed with bytes := later } session.sink
    rw [List.nil_append, Session.withBytes, hsession]
    refine leaving_congr ?_
    rw [Session.withBytes, hfeed, ← hsink]

theorem toSink_withBytes (write : Sink.Writer α) (bytes : List UInt8) (session : Session) :
    toSink write (session.withBytes bytes) = leaving (Session.withBytes bytes) (toSink write session) :=
  toSink_feed write (fun feed => { feed with bytes }) session

theorem unread_toSink (write : Sink.Writer α) (session : Session) :
    (left (toSink write session)).unread = session.unread := by
  rw [toSink]
  cases write session.sink <;> rfl

theorem shortsighted_toSink (write : Sink.Writer α) : Shortsighted (toSink write) := by
  intro session
  refine ⟨[], ?_, fun later _ => toSink_withBytes write later session⟩
  rw [unread_toSink, List.nil_append]

theorem Shortsighted.fromFeed {read : Feed.Reader α} (h : Feed.Shortsighted read) :
    Shortsighted (fromFeed read) := by
  rintro ⟨machine, ⟨bytes, sound⟩, sink⟩
  obtain ⟨taken, rest, sound', rfl, hresult⟩ := h bytes sound
  refine ⟨taken, ?_⟩
  rcases hresult with ⟨value, hvalue⟩ | ⟨fault, hfault⟩
  · have hread : ∀ later : List UInt8, later.head? = rest.head? →
        Action.fromFeed read ⟨machine, ⟨taken ++ later, sound⟩, sink⟩ =
          .ok value ⟨machine, ⟨later, sound'⟩, sink⟩ := by
      intro later hhead
      rw [Action.fromFeed, hvalue later hhead]
    rw [hread rest rfl]
    exact ⟨rfl, hread⟩
  · have hread : ∀ later : List UInt8, later.head? = rest.head? →
        Action.fromFeed read ⟨machine, ⟨taken ++ later, sound⟩, sink⟩ =
          .error (.device fault) ⟨machine, ⟨later, sound'⟩, sink⟩ := by
      intro later hhead
      rw [Action.fromFeed, hfault later hhead]
    rw [hread rest rfl]
    exact ⟨rfl, hread⟩

theorem shortsighted_readBytes (count : Nat) : Shortsighted (fromFeed (Feed.readBytes count)) := by
  induction count with
  | zero => exact (inward_pure []).shortsighted
  | succ count ih =>
      rw [Feed.readBytes, fromFeed_bind]
      refine (Shortsighted.fromFeed Feed.shortsighted_readByte).bind fun byte => ?_
      rw [fromFeed_bind]
      exact ih.bind fun bytes => (inward_pure (byte :: bytes)).shortsighted

theorem shortsighted_readChar : Shortsighted (fromFeed Feed.readChar) := by
  rw [Feed.readChar, fromFeed_bind]
  refine (Shortsighted.fromFeed Feed.shortsighted_readByte).bind fun lead => ?_
  rw [fromFeed_bind]
  exact (shortsighted_readBytes _).bind fun bytes => (inward_pure _).shortsighted

theorem shortsighted_readNumber : Shortsighted (fromFeed Feed.readNumber) := by
  rw [Feed.readNumber, fromFeed_bind]
  refine (Shortsighted.fromFeed (Feed.shortsighted_readWhile _)).bind fun _ => ?_
  rw [fromFeed_bind]
  refine (Shortsighted.fromFeed (Feed.shortsighted_readWhile _)).bind fun word => ?_
  cases word.isEmpty with
  | true => exact (inward_throw (.device .endOfInput)).shortsighted
  | false =>
      cases Decimal.read (Utf8.decode word) with
      | ok number => exact (inward_pure number).shortsighted
      | error reason =>
          exact (inward_throw (.device (.notANumber (Utf8.decode word) reason))).shortsighted

theorem compositional_shortsighted : Compositional @Shortsighted where
  bind := Shortsighted.bind
  inward := Inward.shortsighted
  flush := shortsighted_toSink _
  write := fun _ => shortsighted_toSink _
  readChar := shortsighted_readChar
  readNumber := shortsighted_readNumber

end Action

namespace Session

theorem unread_close (result : Except Fault Unit) (session : Session) :
    (close result session).session.unread = session.unread := by
  rw [session_close, Action.unread_toSink]

theorem close_withBytes (bytes : List UInt8) (result : Except Fault Unit) (session : Session) :
    close result (session.withBytes bytes) = (close result session).leaving (withBytes bytes) :=
  close_leaving (Action.toSink_withBytes Sink.flush bytes session) result

/-- However far a run has come, it has looked no further than one byte behind those it has taken. -/
theorem advance_shortsighted (count : Nat) (session : Session) :
    ∃ taken, session.unread = taken ++ (advance count session).session.unread ∧
      ∀ later : List UInt8, later.head? = (advance count session).session.unread.head? →
        advance count (session.withBytes (taken ++ later)) =
          (advance count session).leaving (withBytes later) := by
  induction count generalizing session with
  | zero => exact ⟨[], rfl, fun _ _ => rfl⟩
  | succ count ih =>
      obtain ⟨taken, hunread, hlater⟩ := Action.compositional_shortsighted.step session
      rw [advance]
      cases hstep : step session with
      | error fault after =>
          rw [hstep] at hunread hlater
          refine ⟨taken, ?_, fun later hhead => ?_⟩
          · rw [unread_close]
            exact hunread
          · rw [unread_close] at hhead
            rw [advance, hlater later hhead]
            exact close_withBytes later _ after
      | ok outcome after =>
          rw [hstep] at hunread hlater
          cases outcome with
          | finished =>
              refine ⟨taken, ?_, fun later hhead => ?_⟩
              · rw [unread_close]
                exact hunread
              · rw [unread_close] at hhead
                rw [advance, hlater later hhead]
                exact close_withBytes later _ after
          | running =>
              obtain ⟨taken', hunread', hlater'⟩ := ih after
              refine ⟨taken ++ taken', ?_, fun later hhead => ?_⟩
              · rw [List.append_assoc, ← hunread']
                exact hunread
              · have hafter : (taken' ++ later).head? = after.unread.head? := by
                  rw [hunread', List.head?_append, List.head?_append, hhead]
                rw [List.append_assoc, advance, hlater _ hafter]
                exact hlater' later hhead

theorem load_withBytes (source : String) (bytes bytes' : List UInt8) (sound : Option Nat) (sink : Sink) :
    load source ⟨bytes', sound⟩ sink = (load source ⟨bytes, sound⟩ sink).map (withBytes bytes') := by
  rw [load, load]
  cases Machine.load source <;> rfl

end Session

/-- **Unread input does not matter.** If the run of a source ends with some input unread, then with any
other input from the second unread byte on it ends with the same result, machine and output, and leaves
that other input unread. -/
theorem run_unread_input {source : String} {sound : Option Nat} {sink : Sink} {taken rest : List UInt8}
    {next : UInt8} {count : Nat} {report : Report}
    (hrun : run count source ⟨taken ++ next :: rest, sound⟩ sink = some report)
    (hunread : report.feed.bytes = next :: rest) (later : List UInt8) :
    ∃ report', run count source ⟨taken ++ next :: later, sound⟩ sink = some report' ∧
      report'.result = report.result ∧ report'.sink = report.sink ∧ report'.machine = report.machine ∧
      report'.feed.bytes = next :: later := by
  rw [run] at hrun ⊢
  rw [Session.load_withBytes source (taken ++ next :: rest)]
  cases hload : Session.load source ⟨taken ++ next :: rest, sound⟩ sink with
  | error fault =>
      rw [hload] at hrun
      cases hrun
      refine ⟨_, rfl, rfl, rfl, rfl, ?_⟩
      obtain rfl : taken = [] := by simpa using hunread
      rfl
  | ok session =>
      rw [hload] at hrun
      obtain ⟨front, hfront, hlater⟩ := Session.advance_shortsighted count session
      obtain ⟨machine, _, rfl⟩ := Session.load_eq_ok_iff.mp hload
      dsimp only [Except.map] at hrun ⊢
      cases hprogress : Session.advance count ⟨machine, ⟨taken ++ next :: rest, sound⟩, sink⟩ with
      | running state =>
          rw [hprogress] at hrun
          cases hrun
      | ended result state =>
          rw [hprogress] at hrun hfront hlater
          cases hrun
          change state.unread = next :: rest at hunread
          change taken ++ next :: rest = front ++ state.unread at hfront
          rw [hunread] at hfront
          obtain rfl : taken = front := List.append_cancel_right hfront
          have hhead : (next :: later).head? = state.unread.head? := by
            rw [hunread, List.head?_cons, List.head?_cons]
          rw [hlater (next :: later) hhead]
          exact ⟨_, rfl, rfl, rfl, rfl, rfl⟩

/-- A program that reads a number looks at the line break behind it, and leaves it unread. What comes after
the line break can be anything. -/
theorem run_unread_input_line :
    let source := "便利便利便利\n感極まってきました\n感極まってきました感極まってきました"
    ∃ report, run 3 source ⟨[0x37] ++ 0x0A :: [0x41], none⟩ {} = some report ∧
      report.feed.bytes = 0x0A :: [0x41] ∧
      ∃ report', run 3 source ⟨[0x37] ++ 0x0A :: [0x42, 0x43], none⟩ {} = some report' ∧
        report'.result = report.result ∧ report'.feed.bytes = 0x0A :: [0x42, 0x43] := by
  intro source
  have hreport : (run 3 source ⟨[0x37] ++ 0x0A :: [0x41], none⟩ {}).map (·.feed.bytes) =
      some (0x0A :: [0x41]) := by
    decide +kernel
  obtain ⟨report, hrun, hunread⟩ := Option.map_eq_some_iff.mp hreport
  obtain ⟨report', hrun', hresult, _, _, hunread'⟩ := run_unread_input hrun hunread [0x42, 0x43]
  exact ⟨report, hrun, hunread, report', hrun', hresult, hunread'⟩

end MarkMachine
