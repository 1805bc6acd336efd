import MarkMachine.Proofs.Course
import MarkMachine.Proofs.Devices

/-! Runs on an output that takes only so many bytes. Until the limit is reached such a run is the same as on
an output that takes any number. The write that would go beyond the limit fails, and what has been
written by then is the first part of what the other run writes. -/

namespace MarkMachine

namespace Sink

/-- The sink with a limit to the bytes that it takes in all. -/
def capped (limit : Nat) (sink : Sink) : Sink :=
  { sink with refusesByte := fun offered => decide (limit ≤ offered) }

/-- A sink that refuses no byte, and so has taken all that were offered to it. -/
structure Open (sink : Sink) : Prop where
  refusesByte : sink.refusesByte = fun _ => false
  offered : sink.offered = sink.written.size

theorem open_limited (flushes : Option Nat) : (Sink.limited none flushes).Open :=
  ⟨rfl, rfl⟩

end Sink

def Session.capped (limit : Nat) (session : Session) : Session :=
  { session with sink := session.sink.capped limit }

def Session.output (session : Session) : List UInt8 :=
  session.sink.written.toList

/-- From an open output, only more output can come, and the output stays open. -/
def Session.Grown (first second : Session) : Prop :=
  first.sink.Open → second.sink.Open ∧ first.output <+: second.output

theorem Session.Grown.of_sink_eq {first second : Session} (h : second.sink = first.sink) :
    first.Grown second := by
  intro hopen
  rw [Session.output, Session.output, h]
  exact ⟨hopen, List.prefix_rfl⟩

theorem Session.Grown.trans {first second third : Session} (h : first.Grown second)
    (h' : second.Grown third) : first.Grown third := by
  intro hopen
  obtain ⟨hsecond, hprefix⟩ := h hopen
  obtain ⟨hthird, hprefix'⟩ := h' hsecond
  exact ⟨hthird, hprefix.trans hprefix'⟩

/-- Output beyond a limit is cut at the same place when more is added to it. -/
theorem Session.Grown.take_output {first second : Session} (h : first.Grown second) (hopen : first.sink.Open)
    {limit : Nat} (hlimit : limit < first.output.length) :
    limit < second.output.length ∧ first.output.take limit = second.output.take limit := by
  obtain ⟨_, more, hmore⟩ := h hopen
  rw [← hmore, List.take_append_of_le_length (Nat.le_of_lt hlimit), List.length_append]
  exact ⟨by omega, rfl⟩

namespace Action

variable {α β : Type}

/-- What a limit makes of a result: nothing else as long as the output is within the limit, or else a
fault, with the first part of the output. -/
inductive Cut (limit : Nat) (result : EStateM.Result Fault Session α) :
    EStateM.Result Fault Session α → Prop
  | within (hsize : (left result).output.length ≤ limit) :
      Cut limit result (leaving (Session.capped limit) result)
  | beyond {after : Session} (hsize : limit < (left result).output.length)
      (houtput : after.output = (left result).output.take limit) :
      Cut limit result (.error (.device .sinkFull) after)

/-- An action that adds to the output, if that is open, and is cut by a limit to it. -/
structure Appends (action : Action α) : Prop where
  grows : ∀ session : Session, session.Grown (left (action session))
  cut : ∀ session limit, session.sink.Open → session.output.length ≤ limit →
    Cut limit (action session) (action (session.capped limit))

theorem Appends.bind {action : Action α} {next : α → Action β} (h : Appends action)
    (hnext : ∀ value, Appends (next value)) : Appends (action >>= next) := by
  refine ⟨fun session => ?_, fun session limit hopen hsize => ?_⟩
  · have hgrows := h.grows session
    rw [bind_apply]
    cases hresult : action session with
    | error fault after => rwa [hresult] at hgrows
    | ok value middle =>
        rw [hresult] at hgrows
        exact hgrows.trans ((hnext value).grows middle)
  · have hmiddle := h.grows session hopen
    have hcut := h.cut session limit hopen hsize
    rw [bind_apply, bind_apply]
    generalize action (session.capped limit) = result at hcut ⊢
    cases hresult : action session with
    | error fault after =>
        rw [hresult] at hcut
        cases hcut with
        | within hwithin => exact .within hwithin
        | beyond hbeyond houtput => exact .beyond hbeyond houtput
    | ok value middle =>
        rw [hresult] at hmiddle hcut
        cases hcut with
        | within hwithin => exact (hnext value).cut middle limit hmiddle.1 hwithin
        | beyond hbeyond houtput =>
            -- What follows is carried out only without the limit, and can only add to the output.
            obtain ⟨hmore, htake⟩ := ((hnext value).grows middle).take_output hmiddle.1 hbeyond
            exact .beyond hmore (houtput.trans htake)

theorem Inward.appends {action : Action α} (h : Inward action) : Appends action := by
  refine ⟨fun session => .of_sink_eq (h.devices_left session).2, fun session limit _ hsize => ?_⟩
  obtain ⟨hfeed, hsink⟩ := h.devices_left session
  have hcapped := h session session.feed (session.sink.capped limit)
  rw [leaving_congr (g := Session.capped limit)] at hcapped
  · rw [Session.capped, hcapped]
    refine .within ?_
    rwa [Session.output, hsink]
  · rw [Session.capped, hsink, ← hfeed]

theorem appends_fromFeed (read : Feed.Reader α) : Appends (fromFeed read) := by
  refine ⟨?_, ?_⟩
  · rintro ⟨machine, feed, sink⟩
    rw [fromFeed]
    cases read feed <;> exact .of_sink_eq rfl
  · rintro ⟨machine, feed, sink⟩ limit _ hsize
    rw [Session.capped, fromFeed, fromFeed]
    cases read feed <;> exact .within hsize

theorem flush_capped (limit : Nat) (session : Session) :
    toSink Sink.flush (session.capped limit) =
      leaving (Session.capped limit) (toSink Sink.flush session) := by
  rw [Session.capped, toSink, toSink, Sink.flush, Sink.flush, Sink.capped]
  dsimp only
  split_ifs <;> rfl

theorem output_flush (session : Session) : (left (toSink Sink.flush session)).output = session.output := by
  rw [toSink, Sink.flush]
  split_ifs <;> rfl

theorem appends_flush : Appends (toSink Sink.flush) := by
  refine ⟨fun session hopen => ⟨?_, ?_⟩, fun session limit _ hsize => ?_⟩
  · rw [toSink, Sink.flush]
    split_ifs <;> exact ⟨hopen.refusesByte, hopen.offered⟩
  · exact ⟨[], by rw [output_flush, List.append_nil]⟩
  · rw [flush_capped]
    refine .within ?_
    rwa [output_flush]

/-- An open sink takes a byte. -/
theorem writeByte_open {sink : Sink} (h : sink.Open) (byte : UInt8) :
    Sink.writeByte byte sink = .ok () { sink with
      written := sink.written.push byte, offered := sink.offered + 1, pending := sink.pending + 1 } := by
  rw [Sink.writeByte, if_neg]
  rw [h.refusesByte]
  exact Bool.false_ne_true

theorem appends_writeByte (byte : UInt8) : Appends (toSink (Sink.writeByte byte)) := by
  refine ⟨?_, ?_⟩
  · rintro ⟨machine, feed, sink⟩ hopen
    change sink.Open at hopen
    rw [toSink, writeByte_open hopen]
    refine ⟨⟨hopen.refusesByte, ?_⟩, ?_⟩
    · simp [left, hopen.offered]
    · simp [left, Session.output]
  · rintro ⟨machine, feed, sink⟩ limit hopen hsize
    change sink.Open at hopen
    rw [Session.output, Array.length_toList] at hsize
    rw [toSink, toSink, writeByte_open hopen, Session.capped, Sink.writeByte, Sink.capped]
    dsimp only at hsize ⊢
    rw [hopen.offered]
    by_cases hfull : limit ≤ sink.written.size
    · rw [if_pos (decide_eq_true hfull)]
      obtain rfl : limit = sink.written.size := Nat.le_antisymm hfull hsize
      refine .beyond ?_ ?_ <;> simp [left, Session.output]
    · rw [if_neg (by simpa using hfull)]
      refine .within ?_
      simp only [left, Session.output, Array.length_toList, Array.size_push]
      omega

theorem appends_write (bytes : List UInt8) : Appends (toSink (Sink.write bytes)) := by
  induction bytes with
  | nil => exact (inward_pure ()).appends
  | cons byte bytes ih =>
      rw [Sink.write, toSink_bind]
      exact (appends_writeByte byte).bind fun _ => ih

theorem compositional_appends : Compositional @Appends where
  bind := Appends.bind
  inward := Inward.appends
  flush := appends_flush
  write := appends_write
  readChar := appends_fromFeed _
  readNumber := appends_fromFeed _

end Action

namespace Progress

/-- What a limit makes of the progress of a run. -/
inductive Cut (limit : Nat) (progress : Progress) : Progress → Prop
  | within (hsize : progress.session.output.length ≤ limit) :
      Cut limit progress (progress.leaving (Session.capped limit))
  | beyond {after : Session} (hsize : limit < progress.session.output.length)
      (houtput : after.output = progress.session.output.take limit) :
      Cut limit progress (.ended (.error (.device .sinkFull)) after)

end Progress

namespace Session

theorem output_close (result : Except Fault Unit) (session : Session) :
    (close result session).session.output = session.output := by
  rw [session_close, Action.output_flush]

theorem grown_close (result : Except Fault Unit) (session : Session) :
    session.Grown (close result session).session := by
  rw [session_close]
  exact Action.appends_flush.grows session

theorem close_error (fault : Fault) (session : Session) :
    ∃ after, close (.error fault) session = .ended (.error fault) after ∧ after.output = session.output := by
  have houtput := output_close (.error fault) session
  rw [close] at houtput ⊢
  cases hflush : Action.toSink Sink.flush session with
  | ok _ after => exact ⟨after, rfl, by rwa [hflush] at houtput⟩
  | error _ after => exact ⟨after, rfl, by rwa [hflush] at houtput⟩

theorem grown_advance (count : Nat) (session : Session) : session.Grown (advance count session).session := by
  induction count generalizing session with
  | zero => exact .of_sink_eq rfl
  | succ count ih =>
      have hgrows := Action.compositional_appends.step.grows session
      rw [advance]
      cases hstep : step session with
      | error fault after =>
          rw [hstep] at hgrows
          exact hgrows.trans (grown_close _ after)
      | ok outcome after =>
          rw [hstep] at hgrows
          cases outcome with
          | running => exact hgrows.trans (ih after)
          | finished => exact hgrows.trans (grown_close _ after)

/-- A run that ends within the limit is closed in the same way. -/
theorem cut_close {limit : Nat} {session : Session} (hsize : session.output.length ≤ limit)
    (result : Except Fault Unit) :
    Progress.Cut limit (close result session) (close result (session.capped limit)) := by
  rw [close_leaving (Action.flush_capped limit session)]
  refine .within ?_
  rwa [output_close]

/-- A run that is cut by the limit ends, whatever else the other run comes to. -/
theorem cut_close_of_beyond {limit : Nat} {middle after : Session} (hopen : middle.sink.Open)
    (hbeyond : limit < middle.output.length) (houtput : after.output = middle.output.take limit)
    {progress : Progress} (hgrown : middle.Grown progress.session) :
    Progress.Cut limit progress (close (.error (.device .sinkFull)) after) := by
  obtain ⟨last, hclose, hlast⟩ := close_error (.device .sinkFull) after
  obtain ⟨hmore, htake⟩ := hgrown.take_output hopen hbeyond
  rw [hclose]
  exact .beyond hmore (hlast.trans (houtput.trans htake))

/-- **A limit cuts runs.** However far a run on an open output has come, with a limit it has come to the
same, or has ended because the output beyond the limit was refused. -/
theorem cut_advance (count limit : Nat) {session : Session} (hopen : session.sink.Open)
    (hsize : session.output.length ≤ limit) :
    Progress.Cut limit (advance count session) (advance count (session.capped limit)) := by
  induction count generalizing session with
  | zero => exact .within hsize
  | succ count ih =>
      have hcut := Action.compositional_appends.step.cut session limit hopen hsize
      have hmiddle := Action.compositional_appends.step.grows session hopen
      rw [advance, advance]
      generalize step (session.capped limit) = result at hcut ⊢
      cases hstep : step session with
      | error fault middle =>
          rw [hstep] at hcut hmiddle
          cases hcut with
          | within hwithin => exact cut_close hwithin _
          | beyond hbeyond houtput =>
              exact cut_close_of_beyond hmiddle.1 hbeyond houtput (grown_close _ middle)
      | ok outcome middle =>
          rw [hstep] at hcut hmiddle
          cases outcome with
          | running =>
              cases hcut with
              | within hwithin => exact ih hmiddle.1 hwithin
              | beyond hbeyond houtput =>
                  exact cut_close_of_beyond hmiddle.1 hbeyond houtput (grown_advance count middle)
          | finished =>
              cases hcut with
              | within hwithin => exact cut_close hwithin _
              | beyond hbeyond houtput =>
                  exact cut_close_of_beyond hmiddle.1 hbeyond houtput (grown_close _ middle)

theorem load_limited (source : String) (feed : Feed) (flushes : Option Nat) (limit : Nat) :
    load source feed (.limited (some limit) flushes) =
      (load source feed (.limited none flushes)).map (capped limit) := by
  rw [load, load]
  cases Machine.load source <;> rfl

/-- A loaded session has written nothing yet. -/
theorem open_of_load {source : String} {feed : Feed} {flushes : Option Nat} {session : Session}
    (h : load source feed (.limited none flushes) = .ok session) :
    session.sink.Open ∧ session.output = [] := by
  rw [load] at h
  cases hmachine : Machine.load source with
  | error fault =>
      rw [hmachine] at h
      cases h
  | ok machine =>
      rw [hmachine] at h
      cases h
      exact ⟨Sink.open_limited flushes, rfl⟩

end Session

/-- **A limit cuts the output and nothing else.** Take two outputs that grant the same flushes, of which only the
second has a limit. A run that ends within the limit ends on both in the same way. As soon as the first run, which
need not end, has written more, the second has ended with the fault of a refused byte and with just the first
bytes of that output; until then it goes on if the first does. -/
theorem run_limited_output (source : String) (feed : Feed) (flushes : Option Nat) (limit : Nat) :
    (∀ count report, run count source feed (.limited none flushes) = some report →
      report.sink.written.size ≤ limit →
      ∃ report', run count source feed (.limited (some limit) flushes) = some report' ∧
        report'.result = report.result ∧ report'.sink.written = report.sink.written ∧
        report'.feed = report.feed ∧ report'.sink.flushes = report.sink.flushes) ∧
    ∀ session count, Session.load source feed (.limited none flushes) = .ok session →
      (limit < (session.advance count).session.output.length →
        ∃ report', run count source feed (.limited (some limit) flushes) = some report' ∧
          report'.result = .error (.device .sinkFull) ∧
          report'.sink.written.toList = (session.advance count).session.output.take limit) ∧
      ((session.advance count).session.output.length ≤ limit →
        run count source feed (.limited none flushes) = none →
          run count source feed (.limited (some limit) flushes) = none) := by
  refine ⟨fun count report hrun hsize => ?_, fun session count hload => ?_⟩
  · rw [run] at hrun ⊢
    rw [Session.load_limited]
    cases hload : Session.load source feed (.limited none flushes) with
    | error fault =>
        rw [hload] at hrun
        cases hrun
        exact ⟨_, rfl, rfl, rfl, rfl, rfl⟩
    | ok session =>
        rw [hload] at hrun
        obtain ⟨hopen, houtput⟩ := Session.open_of_load hload
        have hcut := Session.cut_advance count limit hopen (by rw [houtput]; exact Nat.zero_le limit)
        dsimp only [Except.map] at hrun ⊢
        generalize session.advance count = progress at hrun hcut
        generalize (session.capped limit).advance count = progress' at hcut ⊢
        cases progress with
        | running state => cases hrun
        | ended result state =>
            cases hrun
            cases hcut with
            | within _ => exact ⟨_, rfl, rfl, rfl, rfl, rfl⟩
            | beyond hbeyond _ => exact absurd hsize (Nat.not_le_of_lt hbeyond)
  · obtain ⟨hopen, houtput⟩ := Session.open_of_load hload
    have hcut := Session.cut_advance count limit hopen (by rw [houtput]; exact Nat.zero_le limit)
    rw [run, run, Session.load_limited, hload]
    dsimp only [Except.map]
    generalize session.advance count = progress at hcut ⊢
    generalize (session.capped limit).advance count = progress' at hcut ⊢
    cases hcut with
    | beyond hbeyond hcapped =>
        exact ⟨fun _ => ⟨_, rfl, rfl, hcapped⟩, fun hwithin => absurd hbeyond (Nat.not_lt_of_le hwithin)⟩
    | within hwithin =>
        refine ⟨fun hbeyond => absurd hbeyond (Nat.not_lt_of_le hwithin), fun _ hrunning => ?_⟩
        cases progress with
        | running state => rfl
        | ended result state => cases hrunning

/-- The debug instruction writes ten bytes. An output that takes four of them has the first character and
one byte of the next. -/
theorem run_limited_output_four :
    ∃ session, Session.load "かなり" ⟨[], none⟩ (.limited none none) = .ok session ∧
      (session.advance 2).session.output.length = 10 ∧
      ∃ report, run 2 "かなり" ⟨[], none⟩ (.limited (some 4) none) = some report ∧
        report.result = .error (.device .sinkFull) ∧
        report.sink.written.toList = [0xE3, 0x81, 0x8B, 0xE3] := by
  have hending : (Program.ofSource "かなり").walk.ending = .ok 1 := by
    decide +kernel
  have hload := Session.load_of_ending hending ⟨[], none⟩ (.limited none none)
  refine ⟨_, hload, ?_⟩
  generalize hsession : Session.mk _ _ _ = session at hload ⊢
  have houtput : (session.advance 2).session.output =
      [0xE3, 0x81, 0x8B, 0xE3, 0x81, 0xAA, 0xE3, 0x82, 0x8A, 0x0A] := by
    subst hsession
    decide +kernel
  have hlimited := ((run_limited_output "かなり" ⟨[], none⟩ none 4).2 session 2 hload).1
  rw [houtput] at hlimited ⊢
  exact ⟨rfl, hlimited (by decide)⟩

end MarkMachine
