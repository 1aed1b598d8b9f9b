import Mvc.Files.Basic
import Mvc.Text.Blank
import Mvc.Text.Lowercase
import Mvc.Toml.Reader

/-! # The application's configuration

The configuration is a TOML document with one section for each concern. Everything in it
has a default. A section is a table with named fields, of which unknown ones are passed
over, or an array with the fields in their order, of which the last ones may be left out.
-/

namespace Mvc

/-- Who the application is. -/
structure Identity where
  /-- The short name. -/
  name : String
  version : String
  /-- The name that people see. -/
  title : String
  /-- Who makes it. -/
  organization : String
  deriving DecidableEq, Repr

/-- The idle status line. -/
structure StatusConfig where
  /-- Seconds between two refreshes; zero means never. -/
  interval : Nat
  /-- The text of the line. -/
  ready : String
  deriving DecidableEq, Repr

/-- How long the operations on documents take, in milliseconds. -/
structure WorkConfig where
  create : Nat
  opening : Nat
  saving : Nat
  test : Nat
  long : Nat
  deriving DecidableEq, Repr

/-- Where the log goes and what it holds. -/
structure LogConfig where
  /-- The filter. -/
  level : String
  /-- Whether it is written to the console. -/
  console : Bool
  /-- Whether the console shows colors. -/
  colors : Bool
  /-- The log file, if there is one. -/
  file : Option String
  deriving DecidableEq, Repr

/-- A configuration. -/
structure Config where
  application : Identity
  status : StatusConfig
  work : WorkConfig
  logging : LogConfig
  /-- The settings file, if it is not the usual one. -/
  settingsPath : Option String
  deriving DecidableEq, Repr

namespace Config

/-- The configuration without a document. -/
def standard : Config where
  application := ⟨"Triad", "1.0.0", "Triad Simple Template", "Triad"⟩
  status := ⟨30, "Ready"⟩
  work := ⟨500, 800, 600, 1000, 3000⟩
  logging := ⟨"info", true, true, none⟩
  settingsPath := none

instance : Inhabited Config := ⟨standard⟩

/-- The fields of a section by their names, if the value can be a section. -/
def fields? (names : List String) : Value → Option (String → Option Value)
  | .map entries => some fun name => Entries.find? name entries
  | .list items => some fun name => (names.zip items).lookup name
  | _ => none

/-- A text field, or what stands for it when it is missing. -/
def text? (standard : String) : Option Value → Option String
  | none => some standard
  | some v => v.asString?

/-- A text field that may be missing. -/
def optionalText? (standard : Option String) : Option Value → Option (Option String)
  | none => some standard
  | some v => v.asString?.map some

/-- A truth value, or what stands for it when it is missing. -/
def flag? (standard : Bool) : Option Value → Option Bool
  | none => some standard
  | some v => v.asBool?

/-- A number that is not negative, or what stands for it when it is missing. -/
def number? (standard : Nat) : Option Value → Option Nat
  | none => some standard
  | some v =>
    match v.asInteger? with
    | some i => if 0 ≤ i.toInt then some i.toInt.toNat else none
    | none => none

/-- The section on the application. -/
def identity? (standard : Identity) (v : Value) : Option Identity := do
  let field ← fields? ["name", "version", "title", "organization"] v
  return ⟨← text? standard.name (field "name"), ← text? standard.version (field "version"),
    ← text? standard.title (field "title"),
    ← text? standard.organization (field "organization")⟩

/-- The section on the status line. -/
def status? (standard : StatusConfig) (v : Value) : Option StatusConfig := do
  let field ← fields? ["tick_interval_secs", "ready_message"] v
  return ⟨← number? standard.interval (field "tick_interval_secs"),
    ← text? standard.ready (field "ready_message")⟩

/-- The section on work. -/
def work? (standard : WorkConfig) (v : Value) : Option WorkConfig := do
  let field ← fields? ["new_ms", "open_ms", "save_ms", "test_ms", "long_ms"] v
  return ⟨← number? standard.create (field "new_ms"), ← number? standard.opening (field "open_ms"),
    ← number? standard.saving (field "save_ms"), ← number? standard.test (field "test_ms"),
    ← number? standard.long (field "long_ms")⟩

/-- The section on the log. -/
def logging? (standard : LogConfig) (v : Value) : Option LogConfig := do
  let field ← fields? ["level", "console", "ansi", "file"] v
  return ⟨← text? standard.level (field "level"), ← flag? standard.console (field "console"),
    ← flag? standard.colors (field "ansi"), ← optionalText? standard.file (field "file")⟩

/-- A section, or what stands for it when it is missing. -/
def section? {α : Type} (read? : α → Value → Option α) (standard : α) : Option Value → Option α
  | none => some standard
  | some v => read? standard v

/-- The configuration that the entries of a document denote. -/
def ofEntries? (entries : List (String × Value)) : Option Config := do
  let field (name : String) := Entries.find? name entries
  return {
    application := ← section? identity? standard.application (field "application")
    status := ← section? status? standard.status (field "status")
    work := ← section? work? standard.work (field "work")
    logging := ← section? logging? standard.logging (field "logging")
    settingsPath := ← optionalText? standard.settingsPath (field "settings_path") }

/-- The configuration that a text denotes. -/
def parse? (text : String) : Option Config := do
  ofEntries? (← (← Toml.parse? text).asMap?)

/-- The configuration in a file. -/
def load (files : Files) (path : String) : Except ConfigError Config :=
  match files.readText path with
  | .error fault => .error (.io path fault.report)
  | .ok text =>
    match parse? text with
    | some config => .ok config
    | none => .error (.parse path "not a configuration")

/-- The directory of the application's own files, below that of all configurations: its name
    in lower case and without blanks. -/
def directory (config : Config) (home : String) : String :=
  let words := Text.words config.application.name.toList
  Path.join home (String.ofList (words.map Text.lower).flatten)

/-- The settings file. -/
def settingsFile (config : Config) (home : String) : String :=
  config.settingsPath.getD (Path.join (config.directory home) "settings.toml")

/-- The usual configuration file. -/
def usualFile (home : String) : String := Path.join (standard.directory home) "config.toml"

/-- The configuration in the usual file, or the standard one if there is none. -/
def loadUsual (files : Files) (home : String) : Except ConfigError Config :=
  if files.leadsSomewhere (usualFile home) then load files (usualFile home) else .ok standard

/-- The configuration with operations that take no time. -/
def instant (config : Config) : Config := { config with work := ⟨0, 0, 0, 0, 0⟩ }

end Config

end Mvc
