import Mvc.Files.Basic
import Mvc.Json.Reader
import Mvc.Json.Writer
import Mvc.Settings.Basic
import Mvc.Settings.Format
import Mvc.Settings.Tree
import Mvc.Toml.Reader
import Mvc.Toml.Writer

/-! # Settings in files

A file holds the tree of some settings in the format that its extension names. Saving
first makes the whole text and then replaces the file at once.
-/

namespace Mvc

namespace SettingsFormat

/-- The tree that a text denotes; its outermost value is a map. -/
def decode? (format : SettingsFormat) (text : String) : Option (List (String × Value)) :=
  let tree := match format with
    | toml => Toml.parse? text
    | json => Json.parse? text
  tree.bind Value.asMap?

/-- The text of a tree; TOML has none for `null`. -/
def encode? (format : SettingsFormat) (tree : List (String × Value)) : Option String :=
  match format with
  | toml => Toml.document? tree
  | json => some (Json.indented (.map tree))

/-- What is wrong with a text that denotes no tree. -/
def complaint : SettingsFormat → String
  | toml => "not a TOML document"
  | json => "not a JSON object"

end SettingsFormat

namespace Settings

/-- The values in a settings file. -/
def read (files : Files) (path : String) : Except SettingsError (Dict Value) := do
  let format ← SettingsFormat.ofPath path
  match files.readText path with
  | .error fault => throw (.io path fault.report)
  | .ok text =>
    match format.decode? text with
    | none => throw (.parse path format.complaint)
    | some tree => return flatten tree

/-- The settings in a file. -/
def load (files : Files) (path : String) : Except SettingsError Settings := do
  return ⟨← read files path⟩

/-- The text in which settings are saved to a path. -/
def encode (s : Settings) (path : String) : Except SettingsError String := do
  let format ← SettingsFormat.ofPath path
  match format.encode? (nest s.values) with
  | some text => return text
  | none => throw (.serialize path "unsupported unit type")

/-- Save settings to a file. -/
def save (s : Settings) (files : Files) (path : String) : Files × Except SettingsError Unit :=
  match s.encode path with
  | .error e => (files, .error e)
  | .ok text =>
    match files.replace path text.toUTF8 with
    | (files, .ok ()) => (files, .ok ())
    | (files, .error fault) => (files, .error (.io path fault.report))

end Settings

end Mvc
