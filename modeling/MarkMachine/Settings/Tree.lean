import MarkMachine.Settings.Key
import MarkMachine.Text.Binary64

/-! Settings before they are checked: values of a few kinds in nested tables. Layers of settings are
laid over each other leaf by leaf. A table goes into what stands at its place field by field, so an
empty one changes nothing; anything else takes the place of what was there. Names of fields do not
distinguish capital letters. -/

namespace MarkMachine.Settings

/-- A value or a table of values. -/
inductive Tree where
  /-- The place of an item that has been passed over. -/
  | nothing
  | bool (value : Bool)
  | integer (value : Int)
  | real (value : Binary64)
  | text (value : String)
  | array (items : List Tree)
  | table (fields : List (String × Tree))
  deriving Inhabited

namespace Tree

/-- The fields of a table; anything else has none. -/
def fields : Tree → List (String × Tree)
  | .table fields => fields
  | _ => []

/-- The items of an array; anything else has none. -/
def items : Tree → List Tree
  | .array items => items
  | _ => []

def find? (name : String) (tree : Tree) : Option Tree :=
  (tree.fields.find? fun field => field.1 = name.toLower).map Prod.snd

/-- Puts `value` at a name, in place of what was there. -/
def replace (name : String) (value : Tree) (tree : Tree) : Tree :=
  .table ((name.toLower, value) :: tree.fields.filter fun field => field.1 ≠ name.toLower)

/-- Changes the item with a number, after as many empty places as are needed. A number before the first
item changes nothing. -/
def changeItem (index : Int) (change : Tree → Tree) (tree : Tree) : Tree :=
  let items := tree.items
  let place := if index < 0 then index + items.length else index
  if place < 0 then .array items
  else .array ((items.rightpad (place.toNat + 1) .nothing).modify place.toNat change)

mutual

/-- Lays a value over what stands at a name. -/
def lay (name : String) (value : Tree) (tree : Tree) : Tree :=
  match value with
  | .table fields => replace name (layAll fields ((tree.find? name).getD (.table []))) tree
  | .nothing => replace name .nothing tree
  | .bool value => replace name (.bool value) tree
  | .integer value => replace name (.integer value) tree
  | .real value => replace name (.real value) tree
  | .text value => replace name (.text value) tree
  | .array items => replace name (.array items) tree

/-- Lays fields over a tree, one after the other. -/
def layAll (fields : List (String × Tree)) (tree : Tree) : Tree :=
  match fields with
  | [] => tree
  | (name, value) :: later => layAll later (lay name value tree)

end

/-- Lays a value over what stands at the end of a path. What stands on the way and cannot be gone into
is given up. -/
def layAt (value : Tree) : List Step → Tree → Tree
  | [], tree => tree
  | [.field name], tree => lay name value tree
  | .field name :: path, tree =>
      replace name (layAt value path ((tree.find? name).getD .nothing)) tree
  | [.item index], tree => changeItem index (fun _ => value) tree
  | .item index :: path, tree => changeItem index (layAt value path) tree

/-- Lays a layer over a tree. The names at the top of a layer can be paths. -/
def layLayer (layer : List (String × Tree)) (tree : Tree) : Tree :=
  layer.foldl (fun tree field => layAt field.2 (Step.ofName field.1) tree) tree

end Tree

end MarkMachine.Settings
