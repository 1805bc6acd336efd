/-! The command line. One of three commands is given, with the options that belong to it and at most one
file; the settings file can be named before the command or behind it. Behind two dashes everything
is a file. -/

namespace MarkMachine

/-- What is to be done. Without a file the program is read from the standard input. -/
inductive Command where
  /-- Run a program, and tell about it if `debug` is on. -/
  | run (file : Option String) (debug : Bool)
  /-- List the instructions of a program, as JSON or as text. -/
  | disasm (file : Option String) (json : Bool)
  /-- Show the marks of a program. -/
  | tokens (file : Option String)
  deriving DecidableEq, Repr

/-- A command with the settings file that it names. -/
structure Invocation where
  command : Command
  settingsPath : Option String := none
  deriving DecidableEq, Repr

namespace Command

def file? : Command → Option String
  | .run file _ => file
  | .disasm file _ => file
  | .tokens file => file

/-- Whether the command asks for every event to be told. -/
def debug : Command → Bool
  | .run _ debug => debug
  | _ => false

end Command

/-- The arguments of one command. -/
structure Options where
  file : Option String := none
  /-- Whether the option of this command is given. -/
  chosen : Bool := false
  settingsPath : Option String := none

namespace Options

/-- Whether an argument is an option and no file. -/
def isOption (argument : String) : Bool :=
  argument.startsWith "-" && argument ≠ "-"

def settingsOption : String := "--config"

/-- Takes a file, which may not be the second one. -/
def withFile (options : Options) (file : String) : Option Options :=
  if file.isEmpty || options.file.isSome then none else some { options with file }

/-- Takes a settings file, which may not be the second one. -/
def withSettings (options : Options) (path : String) : Option Options :=
  if path.isEmpty || options.settingsPath.isSome then none
  else some { options with settingsPath := path }

/-- Takes the option of the command, which may not be given twice. -/
def withChoice (options : Options) : Option Options :=
  if options.chosen then none else some { options with chosen := true }

/-- What follows the equals sign of a settings option. -/
def attached? (argument : String) : Option String :=
  let stem := (settingsOption ++ "=").toList
  let chars := argument.toList
  if stem.isPrefixOf chars then some (String.ofList (chars.drop stem.length)) else none

/-- Reads the arguments of a command whose own option can be written in the ways `own`. -/
def read (own : List String) (options : Options) : List String → Option Options
  | [] => some options
  | argument :: rest =>
      if argument = "--" then rest.foldlM withFile options
      else if argument = settingsOption then
        match rest with
        | [] => none
        | path :: rest =>
            if isOption path then none
            else (options.withSettings path).bind fun options => read own options rest
      else
        let taken :=
          match attached? argument with
          | some path => options.withSettings path
          | none =>
              if own.contains argument then options.withChoice
              else if isOption argument then none
              else options.withFile argument
        taken.bind fun options => read own options rest

end Options

namespace Invocation

def ofCommand? (name : String) (arguments : List String) : Option Invocation :=
  match name with
  | "run" =>
      (Options.read ["-d", "--debug"] {} arguments).map fun options =>
        ⟨.run options.file options.chosen, options.settingsPath⟩
  | "disasm" =>
      (Options.read ["--json"] {} arguments).map fun options =>
        ⟨.disasm options.file options.chosen, options.settingsPath⟩
  | "tokens" =>
      (Options.read [] {} arguments).map fun options =>
        ⟨.tokens options.file, options.settingsPath⟩
  | _ => none

/-- Reads a command line. A settings file named behind the command counts for more than one named
before it; nothing can be named twice in one place. -/
def read (before : Options) : List String → Option Invocation
  | [] => none
  | argument :: rest =>
      if argument = Options.settingsOption then
        match rest with
        | [] => none
        | path :: rest =>
            if Options.isOption path then none
            else (before.withSettings path).bind fun before => read before rest
      else
        match Options.attached? argument with
        | some path => (before.withSettings path).bind fun before => read before rest
        | none =>
            (ofCommand? argument rest).map fun invocation =>
              { invocation with
                settingsPath := invocation.settingsPath.orElse fun _ => before.settingsPath }

/-- The invocation that a command line stands for; `none` is a mistake in its use. -/
def ofArguments? (arguments : List String) : Option Invocation :=
  read {} arguments

end Invocation

end MarkMachine
