import Mvc.Rehearsal.Settings
import Mvc.Service

/-! # Rehearsing the configuration service

One service and some files; everything that it announces is written down.
-/

namespace Mvc.Rehearsal.Service

/-- Steps with the service. -/
inductive Step where
  | fillDefaults
  | start
  | stop
  | save
  | load
  | name
  | get (key : String)
  | getOr (key : String) (value : Value)
  | set (key : String) (value : Value)
  | has (key : String)
  | remove (key : String)
  | keys
  | clear
  | reset
  | file
  | setFile (path : String)
  | describe
  /-- A step with the settings of the service. -/
  | settings (step : Settings.Step)
  | files (step : FileStep)

/-- The report of a call that may fail. -/
def unitReport : Except SettingsError Unit → Report := .settingsResult fun _ => .ok

/-- What a step does: its report, what is announced, and what is left. -/
def Step.perform (step : Step) (s : Mvc.Service) (t : Files) :
    Report × List ServiceEvent × Mvc.Service × Files :=
  let tell (r : Report) := (r, [], s, t)
  let change (r : Report) (c : Mvc.Service.Change) := (r, c.events, c.after, t)
  match step with
  | fillDefaults => change .nothing s.fillDefaults
  | start =>
    let (result, c) := s.start t
    change (unitReport result) c
  | stop =>
    let (t, result, c) := s.stop t
    (unitReport result, c.events, c.after, t)
  | save =>
    let (t, result, events) := s.save t
    (unitReport result, events, s, t)
  | load =>
    match s.load t with
    | .ok c => change .ok c
    | .error e => tell (.settingsError e)
  | name => tell (.text Mvc.Service.name)
  | get key => tell (.value (s.get key))
  | getOr key value => tell (.value ((s.settings.get? key).getD value))
  | set key value => change .nothing (s.set key value)
  | has key => tell (.flag (s.settings.contains key))
  | remove key => change .nothing (s.remove key)
  | keys => tell (.texts s.settings.values.keys)
  | clear => change .nothing s.clear
  | reset => change .nothing s.reset
  | file => tell (.option .text s.file)
  | setFile path => (.nothing, [], s.setFile path, t)
  | describe => tell (.text s.diagnostic)
  | settings step =>
    let (r, announced, after, t) := step.perform s.settings t
    (r, announced.map .settingsChanged, { s with settings := after }, t)
  | files step =>
    let (r, t) := step.perform t
    (r, [], s, t)

/-- How a service stands. -/
def standing (s : Mvc.Service) : Report :=
  .fields [("running", .flag s.running), ("len", .number s.settings.values.size)]

/-- Rehearse a service. -/
def rehearse (file : Option String) (files : List (String × FileEntry)) (steps : List Step) :
    List (StepResult ServiceEvent) :=
  trace
    (fun step (s, t) =>
      let (r, events, s, t) := step.perform s t
      (r, events, (s, t)))
    (fun (s, _) => standing s) steps (Mvc.Service.new file, layOut files)

end Mvc.Rehearsal.Service
