import Mvc.Settings.Key
import Mvc.Value.Basic

/-! # Settings as a tree

A file holds settings as nested maps, one for each group of keys. Flattening names every
value of a tree by its path; nesting puts named values back into groups. A value and a
group of the same name cannot both stand in a tree: there the group wins.
-/

namespace Mvc.Settings

/-- The key of a name inside a group; the outermost group has no name. -/
def keyBelow (group name : String) : String :=
  if group.isEmpty then Key.normalize name else group ++ "/" ++ Key.normalize name

mutual

/-- Enter a value under its key, or all that a map holds; `null` is left out. -/
def flattenValue (key : String) (flat : Dict Value) : Value → Dict Value
  | .map entries => flattenEntries key flat entries
  | .null => flat
  | v => flat.insert key v

/-- Enter what a group holds, later entries in place of earlier ones. -/
def flattenEntries (group : String) (flat : Dict Value) : List (String × Value) → Dict Value
  | [] => flat
  | (name, v) :: rest => flattenEntries group (flattenValue (keyBelow group name) flat v) rest

end

/-- The values of a tree by their keys. -/
def flatten (tree : List (String × Value)) : Dict Value := flattenEntries "" .empty tree

/-- The entries of a group; anything else has none. -/
def groupEntries : Option Value → List (String × Value)
  | some (.map entries) => entries
  | _ => []

/-- Put a value at the end of a path. A value that is there already stays, one that stands
    where a group is needed gives way. -/
def insertNested (value : Value) : List String → List (String × Value) → List (String × Value)
  | [], tree => tree
  | [name], tree =>
    if (Entries.find? name tree).isSome then tree else Entries.insert name value tree
  | name :: path, tree =>
    let group := groupEntries (Entries.find? name tree)
    Entries.insert name (.map (insertNested value path group)) tree

/-- The tree of named values. -/
def nest (flat : Dict Value) : List (String × Value) :=
  flat.entries.foldl (fun tree (key, v) => insertNested v (Key.path key) tree) []

end Mvc.Settings
