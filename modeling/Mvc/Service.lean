import Mvc.Settings.Storage
import Mvc.Text.Quoted

/-! # The configuration service

The service owns an application's settings, fills in defaults, and keeps the settings in a
file between sessions. It runs from a start that could read the file to the next stop, and
it announces what happens; each announcement comes after what it is about.
-/

namespace Mvc

/-- What a service announces. -/
inductive ServiceEvent where
  /-- The settings say that the entry under a key changed, or all entries for the empty key. -/
  | settingsChanged (key : String)
  /-- A value was written, or removed if it is `null`. -/
  | changed (key : String) (value : Value)
  | loaded
  | saved
  | reset
  | started
  | stopped
  /-- Something went wrong. -/
  | failed (message : String)

/-- A configuration service. -/
structure Service where
  settings : Settings
  /-- The file behind it, if there is one. -/
  file : Option String
  /-- Whether it was started and not stopped since. -/
  running : Bool

/-- What an operation does to a service. -/
structure Service.Change where
  /-- The service afterwards. -/
  after : Service
  /-- What it announces, in order. -/
  events : List ServiceEvent

/-- One operation after another. -/
def Service.Change.andThen (first : Change) (next : Service → Change) : Change :=
  let second := next first.after
  ⟨second.after, first.events ++ second.events⟩

namespace Service

/-- A service without settings. -/
def new (file : Option String) : Service := ⟨.empty, file, false⟩

instance : Inhabited Service := ⟨new none⟩

/-- The name of the service. -/
def name : String := "Configuration Service"

/-- The settings that every installation starts with. -/
def defaults : List (String × Value) :=
  [("application/theme", .string "default"), ("application/language", .string "en"),
    ("window/width", .integer 1000), ("window/height", .integer 700),
    ("window/maximized", .bool false)]

/-- An operation that only announces something. -/
def announce (s : Service) (events : List ServiceEvent) : Change := ⟨s, events⟩

/-- A change of the settings, announced by them. -/
def adopt (s : Service) (c : Settings.Change) : Change :=
  ⟨{ s with settings := c.after }, c.announced.map .settingsChanged⟩

/-- Write a value. It is announced whether it changes anything or not. -/
def set (s : Service) (key : String) (value : Value) : Change :=
  (s.adopt (s.settings.set key value)).andThen fun s =>
    s.announce [.changed (Key.normalize key) value]

/-- Remove a value. -/
def remove (s : Service) (key : String) : Change :=
  (s.adopt (s.settings.remove key)).andThen fun s => s.announce [.changed (Key.normalize key) .null]

/-- Remove all values, announced under the empty key. -/
def clear (s : Service) : Change :=
  (s.adopt s.settings.clear).andThen fun s => s.announce [.changed "" .null]

/-- The value under a key; `null` if there is none. -/
def get (s : Service) (key : String) : Value := (s.settings.get? key).getD .null

/-- Write those of some values whose keys have none. -/
def seed (s : Service) : List (String × Value) → Change
  | [] => s.announce []
  | (key, value) :: rest =>
    (if s.settings.contains key then s.announce [] else s.set key value).andThen fun s =>
      s.seed rest

/-- Fill in the defaults. -/
def fillDefaults (s : Service) : Change := s.seed defaults

/-- Go back to the defaults. -/
def reset (s : Service) : Change :=
  (s.clear.andThen fillDefaults).andThen fun s => s.announce [.reset]

/-- Take over the values in the file, if it is there. -/
def load (s : Service) (files : Files) : Except SettingsError Change := do
  let values ←
    match s.file with
    | some path => if files.leadsSomewhere path then Settings.read files path else pure .empty
    | none => pure .empty
  return (s.adopt (s.settings.extend values)).andThen fun s => s.announce [.loaded]

/-- Save the settings to the file, if there is one; also say what is announced. -/
def save (s : Service) (files : Files) :
    Files × Except SettingsError Unit × List ServiceEvent :=
  match s.file with
  | none => (files, .ok (), [])
  | some path =>
    match s.settings.save files path with
    | (files, .ok ()) => (files, .ok (), [.saved])
    | (files, .error e) => (files, .error e, [.failed e.message])

/-- Load the file and start. -/
def start (s : Service) (files : Files) : Except SettingsError Unit × Change :=
  if s.running then (.ok (), s.announce [])
  else
    match s.load files with
    | .error e => (.error e, s.announce [.failed "Failed to load configuration"])
    | .ok c => (.ok (), c.andThen fun s => ⟨{ s with running := true }, [.started]⟩)

/-- Save to the file and stop, even if saving failed. -/
def stop (s : Service) (files : Files) : Files × Except SettingsError Unit × Change :=
  if s.running then
    let (files, result, events) := s.save files
    (files, result, ⟨{ s with running := false }, events ++ [.stopped]⟩)
  else (files, .ok (), s.announce [])

/-- Change the file; another spelling of its path is the same file. -/
def setFile (s : Service) (path : String) : Service :=
  if s.file.any (Path.same path) then s else { s with file := some path }

/-- The diagnostic text. -/
def diagnostic (s : Service) : String :=
  let file := match s.file with
    | some path => "Some(" ++ Text.quotedPath path ++ ")"
    | none => "None"
  "ConfigurationService \x7b file: " ++ file ++ ", running: " ++
    (if s.running then "true" else "false") ++ ", entries: " ++
    toString s.settings.values.size ++ " \x7d"

end Service

end Mvc
