import MarkMachine.Settings.Tree

/-! TOML documents under construction. Each table is remembered with how it came to be there, because that
decides in which ways it can still be added to: a header opens a table that other headers imply, but
none that has been opened or assigned to before, and an assignment adds only to tables that
assignments make. -/

namespace MarkMachine.Settings.Toml

/-- How a table came to be there. -/
inductive Origin where
  /-- By a header with a longer path. -/
  | implied
  | header
  /-- By an assignment to a longer path. -/
  | dotted
  deriving DecidableEq

/-- What stands at a name. -/
inductive Node where
  /-- Something assigned, to which nothing can be added. -/
  | value (value : Tree)
  | table (origin : Origin) (fields : List (String × Node))
  /-- The tables opened by headers with two brackets. -/
  | series (tables : List (List (String × Node)))

/-- What stands in a table. -/
abbrev Fields := List (String × Node)

namespace Fields

/-- Puts a node at a name, in place of what was there. -/
def put (name : String) (node : Node) : Fields → Fields
  | [] => [(name, node)]
  | field :: rest => if field.1 = name then (name, node) :: rest else field :: put name node rest

/-- Acts on the table at the end of a header's path, in the last one of each series on the way. Tables
that are not there yet are implied. -/
def within? (act : Fields → Option Fields) : List String → Fields → Option Fields
  | [], fields => act fields
  | name :: path, fields =>
      match fields.lookup name with
      | none => do
          return put name (.table .implied (← within? act path [])) fields
      | some (.table origin inner) => do
          return put name (.table origin (← within? act path inner)) fields
      | some (.series tables) => do
          let last ← within? act path (tables.getLastD [])
          return put name (.series (tables.dropLast ++ [last])) fields
      | some (.value _) => none

def openTable? (name : String) (fields : Fields) : Option Fields :=
  match fields.lookup name with
  | none => some (put name (.table .header []) fields)
  | some (.table .implied inner) => some (put name (.table .header inner) fields)
  | some _ => none

/-- Opens one more table of the series with a name. -/
def openSeries? (name : String) (fields : Fields) : Option Fields :=
  match fields.lookup name with
  | none => some (put name (.series [[]]) fields)
  | some (.series tables) => some (put name (.series (tables ++ [[]])) fields)
  | some _ => none

/-- Assigns to a name that has nothing yet, at the end of a path. -/
def assign? (name : String) (value : Tree) : List String → Fields → Option Fields
  | [], fields =>
      match fields.lookup name with
      | none => some (put name (.value value) fields)
      | some _ => none
  | step :: path, fields =>
      match fields.lookup step with
      | none => do
          return put step (.table .dotted (← assign? name value path [])) fields
      | some (.table .dotted inner) => do
          return put step (.table .dotted (← assign? name value path inner)) fields
      | some (.table .implied inner) => do
          if path.isEmpty then none
          return put step (.table .implied (← assign? name value path inner)) fields
      | some (.series tables) => do
          if path.isEmpty then none
          let last ← assign? name value path (tables.getLastD [])
          return put step (.series (tables.dropLast ++ [last])) fields
      | some _ => none

def assignAt? (path : List String) (value : Tree) (fields : Fields) : Option Fields :=
  match path.getLast? with
  | some name => assign? name value path.dropLast fields
  | none => none

end Fields

mutual

/-- What a node amounts to. -/
def Node.tree : Node → Tree
  | .value value => value
  | .table _ fields => .table (treesOfFields fields)
  | .series tables => .array (treesOfTables tables)

/-- What the fields of a table amount to. -/
def treesOfFields : List (String × Node) → List (String × Tree)
  | [] => []
  | (name, node) :: rest => (name, node.tree) :: treesOfFields rest

/-- What the tables of a series amount to. -/
def treesOfTables : List (List (String × Node)) → List Tree
  | [] => []
  | fields :: rest => .table (treesOfFields fields) :: treesOfTables rest

end

/-- A line of a document. -/
inductive Statement where
  /-- Opens a table. -/
  | table (path : List String)
  /-- Opens one more table of a series. -/
  | series (path : List String)
  /-- Puts a value at a path in the table opened last. -/
  | assign (path : List String) (value : Tree)

/-- Puts statements together. `home` is the path of the table opened last. -/
def build? (home : List String) (fields : Fields) : List Statement → Option Fields
  | [] => some fields
  | .table path :: later => do
      build? path (← fields.within? (Fields.openTable? (path.getLastD "")) path.dropLast) later
  | .series path :: later => do
      build? path (← fields.within? (Fields.openSeries? (path.getLastD "")) path.dropLast) later
  | .assign path value :: later => do
      build? home (← fields.within? (Fields.assignAt? path value) home) later

end MarkMachine.Settings.Toml
