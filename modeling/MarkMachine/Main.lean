import MarkMachine.Command.Launch

/-! The program itself. It collects what a command needs from the system, carries the command out and
hands on what it writes. Input is taken from the standard input only as far as the next instruction
needs it. -/

namespace MarkMachine.Main

/-- The content of a file, unless it cannot be read. -/
def readFile? (path : String) : IO (Option (List UInt8)) := do
  try
    return some (← IO.FS.readBinFile path).toList
  catch _ =>
    return none

def environment : IO Settings.Variables := do
  let bytes := (← readFile? "/proc/self/environ").getD []
  return (bytes.splitOn 0).filterMap fun entry =>
    let chars := Utf8.decode entry
    match chars.dropWhile (· ≠ '=') with
    | _ :: value => some (String.ofList (chars.takeWhile (· ≠ '=')), String.ofList value)
    | [] => none

/-- The nearest file of variables, in the working directory or above it. -/
def variableFile? : IO (Option (List UInt8)) := do
  let depth := ((← IO.currentDir).toString.toList.filter (· = '/')).length
  for level in List.range (depth + 1) do
    let above := String.join (List.replicate level "../")
    if let some bytes ← readFile? (above ++ Settings.variableFile) then
      return some bytes
  return none

/-- Reads those of some files that can be read. -/
def readFiles (paths : List String) : IO (List (String × List UInt8)) :=
  paths.filterMapM fun path => do
    return (← readFile? path).map fun bytes => (path, bytes)

/-- What an invocation finds around it; the standard input only if the program is in it. -/
def surroundings (invocation : Invocation) : IO Surroundings := do
  let vars ← environment
  let known := ((← variableFile?).map fun bytes => (Settings.variableFile, bytes)).toList
  let all := Settings.withVariableFile (fun path => known.lookup path) vars
  let (path, _) := Settings.wantedFile invocation.demands all
  let found ← readFiles (Settings.candidates path ++ invocation.command.file?.toList)
  let input ←
    match invocation.command.file? with
    | some _ => pure []
    | none => pure (← (← IO.getStdin).readBinToEnd).toList
  return { files := fun path => (known ++ found).lookup path, vars, input }

/-- An event as a line of the log. -/
def logLine (event : Event) : String :=
  let details := event.details.map fun (name, detail) =>
    match detail with
    | .number n => " " ++ name ++ "=" ++ Decimal.text n
    | .text text => " " ++ name ++ "=" ++ text
  "DEBUG " ++ event.message ++ String.join details

def log (events : List Event) : IO Unit :=
  events.forM fun event => IO.eprintln (logLine event)

/-- Whether there is input enough for the machine's next instruction. -/
def isSupplied (session : Session) : Bool :=
  let bytes := session.feed.bytes
  match Instruction.decode session.machine.ahead with
  | .found .inputChar _ =>
      match bytes with
      | [] => false
      | lead :: rest => (Utf8.announcedWidth? lead).getD 1 ≤ rest.length + 1
  | .found .inputNumber _ => (bytes.dropWhile Feed.isBlank).any Feed.isBlank
  | _ => true

/-- Takes bytes from the standard input until there are enough, or no more. -/
partial def supply (session : Session) : IO Session := do
  if isSupplied session then return session
  let bytes ← (← IO.getStdin).read 1
  if bytes.isEmpty then return session
  supply { session with feed := { session.feed with bytes := session.feed.bytes ++ bytes.toList } }

/-- Hands on what has been written since `shown` bytes were. -/
def present (session : Session) (shown : Nat) : IO Nat := do
  let written := session.sink.written
  if shown < written.size then
    (← IO.getStdout).write ⟨written.extract shown written.size⟩
  return written.size

/-- Advances a run step by step to its end. -/
partial def finish (filter : Filter) (interactive : Bool) (session : Session) (shown : Nat) :
    IO Exit := do
  if interactive && !isSupplied session then (← IO.getStdout).flush
  let session ← if interactive then supply session else pure session
  if filter.isOpen then log ((session.events 1).filter filter.tells)
  match session.advance 1 with
  | .running session => finish filter interactive session (← present session shown)
  | .ended result session =>
      let _ ← present session shown
      return { Exit.ofRun result session with output := [] }

def leave (exit : Exit) : IO UInt32 := do
  exit.notices.forM IO.eprintln
  log exit.events
  let stdout ← IO.getStdout
  stdout.write ⟨exit.output.toArray⟩
  stdout.flush
  exit.report?.toList.forM IO.eprintln
  return exit.status.toUInt32

end MarkMachine.Main

def main (arguments : List String) : IO UInt32 := do
  match MarkMachine.Invocation.ofArguments? arguments with
  | none =>
      IO.eprintln "usage: [--config PATH] (run [-d] | disasm [--json] | tokens) [FILE]"
      return 2
  | some invocation =>
      match invocation.launch (← MarkMachine.Main.surroundings invocation) with
      | .ended exit => MarkMachine.Main.leave exit
      | .running account events session =>
          account.notices.forM IO.eprintln
          MarkMachine.Main.log events
          let interactive := invocation.command.file?.isSome
          MarkMachine.Main.leave (← MarkMachine.Main.finish account.filter interactive session 0)
