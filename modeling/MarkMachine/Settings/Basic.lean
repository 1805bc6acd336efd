import MarkMachine.Path
import MarkMachine.Settings.Toml.Reader
import MarkMachine.Settings.Variables

/-! The settings of the program and where they come from. Above the defaults lie the fields of a settings
file, above those the environment variables with the program's prefix, and on top what the caller
demands. Only what is left when all layers have been laid is checked. -/

namespace MarkMachine

structure Settings where
  /-- Whether every event of a run is told. -/
  trace : Bool := false
  /-- What else is told. -/
  level : String := "warn"
  deriving DecidableEq, Repr

namespace Settings

/-- Why there are no settings. -/
inductive Fault where
  /-- A setting has a value that cannot be one. -/
  | wrongType (key : String)
  /-- A section of the settings is no table. -/
  | notASection
  /-- The settings file is not TOML. -/
  | malformedFile
  /-- The settings file cannot be read. -/
  | unreadableFile
  deriving DecidableEq, Repr

/-- The variable that names a settings file. -/
def pathVariable : String := "UJIHISA_CONFIG_PATH"

/-- The settings file that is read if none is named. -/
def defaultPath : String := "ujihisa.toml"

/-- What the names of the variables that hold settings begin with, in small letters. -/
def variableStem : List Char := "ujihisa_".toList

def variableFile : String := ".env"

/-- The names under which a settings file is looked for: its own, and that with an ending behind it. -/
def candidates (path : String) : List String :=
  path :: (Path.extended? path ".toml").toList

/-- The fields of a settings file. A file that has to be there is also one that has to be text. -/
def fileLayer (files : Files) (path : String) (required : Bool) :
    Except Fault (List (String × Tree)) :=
  match ((candidates path).findSome? files).bind Utf8.strict? with
  | none => if required then .error .unreadableFile else .ok []
  | some text =>
      match Toml.read text with
      | some fields => .ok fields
      | none => .error .malformedFile

/-- A name with `__` for each point, the letters made small. -/
def dotted : List Char → List Char
  | '_' :: '_' :: rest => '.' :: dotted rest
  | c :: rest => c.toLower :: dotted rest
  | [] => []

/-- The settings that variables hold. -/
def variableLayer (vars : Variables) : List (String × Tree) :=
  vars.filterMap fun (name, value) =>
    let name := name.toLower.toList
    if variableStem.isPrefixOf name then
      some (String.ofList (dotted (name.drop variableStem.length)), .text value)
    else none

/-- A truth value: a truth value, a number, or one of the words for it. -/
def bool? : Tree → Option Bool
  | .bool value => some value
  | .integer value => some (value ≠ 0)
  | .real value => some value.isNonzero
  | .text word =>
      if ["1", "true", "on", "yes"].contains word.toLower then some true
      else if ["0", "false", "off", "no"].contains word.toLower then some false
      else none
  | _ => none

/-- A text: a text, a number or a truth value. -/
def text? : Tree → Option String
  | .text value => some value
  | .integer value => some (Decimal.text value)
  | .real value => some value.text
  | .bool true => some "true"
  | .bool false => some "false"
  | _ => none

/-- The setting `name` of a section, which can be a table or an array with the setting in front. -/
def setting {α : Type} (read : Tree → Option α) (default : α) (tree : Tree) (part name : String) :
    Except Fault α :=
  let checked (key : String) (value : Option Tree) : Except Fault α :=
    match value with
    | none => .ok default
    | some value =>
        match read value with
        | some value => .ok value
        | none => .error (.wrongType key)
  match tree.find? part with
  | none => .ok default
  | some (.table fields) => checked (part ++ "." ++ name) ((Tree.table fields).find? name)
  | some (.array items) => checked (part ++ "[0]") items.head?
  | some _ => .error .notASection

def check (tree : Tree) : Except Fault Settings := do
  let trace ← setting bool? false tree "interpreter" "trace"
  let level ← setting text? "warn" tree "logging" "level"
  return { trace, level }

/-- What a caller can demand. -/
structure Demands where
  /-- The settings file. -/
  path : Option String := none
  trace : Option Bool := none
  level : Option String := none
  /-- What counts as the environment for settings, in place of the environment itself. -/
  vars : Option Variables := none

def Demands.layer (demands : Demands) : List (String × Tree) :=
  (demands.trace.map fun value => ("interpreter.trace", Tree.bool value)).toList ++
    (demands.level.map fun value => ("logging.level", Tree.text value)).toList

def defaultLayer : List (String × Tree) :=
  [("interpreter.trace", .bool false), ("logging.level", .text "warn")]

/-- The settings file that is wanted, and whether it has to be there. -/
def wantedFile (demands : Demands) (vars : Variables) : String × Bool :=
  match demands.path.orElse fun _ => vars.find? pathVariable with
  | some path => (path, true)
  | none => (defaultPath, false)

/-- The settings under some demands. -/
def build (demands : Demands) (files : Files) (vars : Variables) : Except Fault Settings := do
  let (path, required) := wantedFile demands vars
  let fromFile ← fileLayer files path required
  let fromVariables := variableLayer (demands.vars.getD vars)
  check ((Tree.table []).layLayer defaultLayer |>.layLayer fromFile |>.layLayer fromVariables
    |>.layLayer demands.layer)

/-- The variables with those of the file of variables added. -/
def withVariableFile (files : Files) (vars : Variables) : Variables :=
  match files variableFile with
  | some bytes => vars.addFile bytes
  | none => vars

/-- The settings without demands, the file of variables read before. -/
def load (files : Files) (vars : Variables) : Except Fault Settings :=
  build {} files (withVariableFile files vars)

end Settings

end MarkMachine
