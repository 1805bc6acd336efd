import MarkMachine.Command.Arguments
import MarkMachine.Filter
import MarkMachine.Json.Codec
import MarkMachine.Run
import MarkMachine.Settings.Basic
import MarkMachine.Text.Lines

/-! Carrying out commands. The settings are loaded first, then the program is read; only the run of a
program can take time, and is handed back to be advanced. -/

namespace MarkMachine

/-- What a command finds around it. -/
structure Surroundings where
  files : Files := fun _ => none
  vars : Settings.Variables := []
  /-- The standard input. -/
  input : List UInt8 := []

/-- How a command ends. -/
structure Exit where
  status : Nat := 0
  output : List UInt8 := []
  /-- What went wrong, if something did. -/
  error : Option String := none
  /-- What was said about the settings. -/
  notices : List String := []
  /-- The events to be told. -/
  events : List Event := []

/-- What is told while a command is carried out: notices, and the events that a filter lets through. -/
structure Account where
  filter : Filter := []
  notices : List String := []

/-- A command that has ended, or a run that has begun. -/
inductive Launch where
  | ended (exit : Exit)
  /-- The events told so far, and the session to be advanced. -/
  | running (account : Account) (events : List Event) (session : Session)

namespace Exit

def failure (message : String) : Exit :=
  { status := 1, error := some message }

def ofRun (result : Except Fault Unit) (session : Session) : Exit :=
  let output := session.sink.written.toList
  match result with
  | .ok _ => { output }
  | .error fault => { failure fault.message with output }

/-- The end of a command of which `events` are told. -/
def told (account : Account) (events : List Event) (exit : Exit) : Exit :=
  { exit with notices := account.notices, events }

/-- The error as it is reported. -/
def report? (exit : Exit) : Option String :=
  exit.error.map ("Error: " ++ ·)

/-- The lines of all that is said beside the events. -/
def lines (exit : Exit) : List String :=
  (exit.notices ++ exit.report?.toList).flatMap Lines.ofText

end Exit

/-- The variable with a filter for events. -/
def Settings.filterVariable : String := "RUST_LOG"

/-- What is told under some settings. If tracing is on, all events are. Otherwise the filter among the
variables counts, or if there is none that can be read, the level as far as it can be read. -/
def Settings.account (settings : Settings) (vars : Settings.Variables) : Account :=
  let filter := if settings.trace then none else (vars.find? filterVariable).bind Filter.ofText?
  match filter with
  | some filter => { filter }
  | none =>
      let (filter, notices) := Filter.ofText (if settings.trace then "debug" else settings.level)
      { filter, notices }

namespace Invocation

def demands (invocation : Invocation) : Settings.Demands :=
  { path := invocation.settingsPath, trace := if invocation.command.debug then some true else none }

/-- The source of the program and what is left of the input, or the file that cannot be read. A device
will do for a file. -/
def source (invocation : Invocation) (surroundings : Surroundings) :
    Except String (String × List UInt8) :=
  let text (bytes : List UInt8) : String := String.ofList (Utf8.decode bytes)
  match invocation.command.file? with
  | none => .ok (text surroundings.input, [])
  | some file =>
      match surroundings.files file, Device.ofPath? file with
      | some bytes, _ => .ok (text bytes, surroundings.input)
      | none, some .null => .ok ("", surroundings.input)
      | none, some .input => .ok (text surroundings.input, [])
      | none, none => .error file

def launchSource (command : Command) (account : Account) (source : String) (input : List UInt8) :
    Launch :=
  let ending (events : List Event) (exit : Exit) : Launch :=
    .ended (exit.told account (events.filter account.filter.tells))
  match command with
  | .tokens _ =>
      let text := shorthand (Program.ofSource source) ++ "\n"
      ending [Event.ofSource source] { output := Utf8.encode text.toList }
  | .disasm _ json =>
      match (Program.ofSource source).listing with
      | .error fault => ending [Event.ofSource source] (Exit.failure fault.message)
      | .ok listing =>
          let text := if json then listing.toJson.prettyText ++ "\n" else listing.text
          ending [Event.ofSource source] { output := Utf8.encode text.toList }
  | .run _ _ =>
      match Session.load source { bytes := input } {} with
      | .error fault => ending (Event.loading source) (Exit.failure fault.message)
      | .ok session =>
          .running account ((Event.loading source).filter account.filter.tells) session

def launch (invocation : Invocation) (surroundings : Surroundings) : Launch :=
  let vars := Settings.withVariableFile surroundings.files surroundings.vars
  match Settings.build invocation.demands surroundings.files vars with
  | .error _ => .ended (Exit.failure "Failed to load configuration")
  | .ok settings =>
      let account := settings.account vars
      match invocation.source surroundings with
      | .error file => .ended ((Exit.failure ("Failed to read " ++ file)).told account [])
      | .ok (source, input) => launchSource invocation.command account source input

end Invocation

end MarkMachine
