import Mvc.Rehearsal.Files
import Mvc.Settings.Storage

/-! # Rehearsing settings

One store of settings and some files, with a listener that writes down which keys changed.
-/

namespace Mvc.Rehearsal.Settings

/-- Steps with settings. -/
inductive Step where
  | set (key : String) (value : Value)
  | get (key : String)
  | remove (key : String)
  | getOr (key : String) (value : Value)
  | contains (key : String)
  | extend (values : Dict Value)
  | keys
  | groupKeys (group : String)
  | clear
  | size
  | snapshot
  | save (path : String)
  | describe
  | load (path : String)
  | peek (path : String)
  | files (step : FileStep)

/-- The report of a value that may be missing. -/
def found : Option Value → Report := .option fun v => .group [.value v]

/-- What a step does to settings and files: its report, the keys announced, and what is left. -/
def Step.perform (step : Step) (s : Mvc.Settings) (t : Files) :
    Report × List String × Mvc.Settings × Files :=
  let tell (r : Report) := (r, [], s, t)
  let change (r : Report) (c : Mvc.Settings.Change) := (r, c.announced, c.after, t)
  match step with
  | set key value =>
    let c := s.set key value
    change (.flag !c.announced.isEmpty) c
  | get key => tell (found (s.get? key))
  | remove key => change (found (s.get? key)) (s.remove key)
  | getOr key value => tell (.value ((s.get? key).getD value))
  | contains key => tell (.flag (s.contains key))
  | extend values => change .nothing (s.extend values)
  | keys => tell (.texts s.values.keys)
  | groupKeys group => tell (.texts (s.groupKeys group))
  | clear => change .nothing s.clear
  | size => tell (.group [.number s.values.size, .flag s.values.isEmpty])
  | snapshot => tell (.properties s.values.entries)
  | save path =>
    let (t, r) := s.save t path
    (.settingsResult (fun _ => .ok) r, [], s, t)
  | describe => tell (.text s.diagnostic)
  | load path =>
    match Mvc.Settings.load t path with
    | .ok s => (.properties s.values.entries, [], s, t)
    | .error e => tell (.settingsError e)
  | peek path =>
    tell (.settingsResult (fun values => .properties values.entries)
      (Mvc.Settings.read t path))
  | files step =>
    let (r, t) := step.perform t
    (r, [], s, t)

/-- Rehearse settings. -/
def rehearse (files : List (String × FileEntry)) (steps : List Step) : List (StepResult String) :=
  trace
    (fun step (s, t) =>
      let (r, announced, s, t) := step.perform s t
      (r, announced, (s, t)))
    (fun _ => .nothing) steps (Mvc.Settings.empty, layOut files)

end Mvc.Rehearsal.Settings
