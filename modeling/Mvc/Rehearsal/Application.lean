import Mvc.App.Behaviour
import Mvc.Rehearsal.Service

/-! # Rehearsing the application

The whole application, or only its model. Listeners write down what the signals carry: those
of the model come before the application's own, those of the controller after the slots of
the first view. After each step the worker does what the step left to it.
-/

namespace Mvc.Rehearsal.Application

open App

/-- Steps with the application's model and the settings. -/
inductive ModelStep where
  /-- Fill the model with its defaults, for the first time or again. -/
  | populate (again : Bool)
  | set (name : String) (value : Value)
  | clear
  | updateStatus (message : String)
  | clearStatus
  | loadSettings
  | saveSettings
  | query
  | snapshot
  | isTheme (name : String)
  | service (step : Service.Step)

/-- Steps with the whole application. -/
inductive Step where
  | model (step : ModelStep)
  | setUp
  | start
  | stop
  | shutDown
  | act (name : String) (data : Value)
  | trigger (name payload : String)
  | postTrigger (name payload : String)
  | drain
  | close
  /-- Bind a new view. -/
  | bindNew (hasModel : Bool)
  /-- Bind the current view again, or none. -/
  | bindCurrent (bound : Bool)
  /-- Bind the model, or none. -/
  | bindModel (bound : Bool)
  | enable (enabled : Bool)
  | displayView
  | setUpView
  | breakScreen (broken : Bool)
  | tell (error info : String)
  | reportError (message : String)
  | reportDone (message : String)
  | query

/-- A program without a report of its own. -/
def silently (p : App.Program Unit) : App.Program Report := do
  p
  return .nothing

/-- What is asked of the model. -/
def describeModel (w : Whole) : Report :=
  let s := properties w
  let updated := match (s.get Property.updated).asTimestamp? with
    | some t => Report.stamped (.timestamp t)
    | none => .nothing
  .fields
    [("name", .text (textOf s Property.name)), ("version", .text (textOf s Property.version)),
      ("title", .text (textOf s Property.title)), ("status", .text (textOf s Property.status)),
      ("busy", .flag (isBusy s)), ("user", .text (textOf s Property.user)),
      ("theme", .text (textOf s Property.theme)), ("window_title", .text (windowTitle s)),
      ("last_updated", updated), ("valid", .flag (Ensemble.isModelValid behaviour w model)),
      ("debug", .text (modelDiagnostic w))]

/-- A step with the service and the files. -/
def performService (step : Service.Step) : App.Program Report := do
  let s ← see (·.client)
  let (report, events, service, files) := step.perform s.service s.files
  change fun s => { s with service, files, journal := s.journal ++ events.map .service }
  return report

/-- The report of filling the model with its defaults. -/
def populated : Except ModelError Unit → Report := .attempt (fun _ => "Model") ModelError.message

/-- What a step with the model does. -/
def ModelStep.perform : ModelStep → App.Program Report
  | populate again => do
    if again then
      let result ← Program.perform (Action.resetModel (σ := Code) (ε := State) model)
      return populated result
    else
      let result ← Program.perform (Action.initializeModel (σ := Code) (ε := State) model)
      return populated result
  | set name value => do return (← App.set name value).report
  | clear => silently (.perform (Action.clear model))
  | updateStatus message => silently (App.updateStatus message)
  | clearStatus => silently App.clearStatus
  | loadSettings => silently App.loadSettings
  | saveSettings => silently App.saveSettings
  | query => see describeModel
  | snapshot => see fun w => .stampedProperties (properties w).values.entries
  | isTheme name => return .flag (App.isTheme name)
  | service step => performService step

/-- What is asked of the current view. -/
def describeView (w : Whole) : Report :=
  w.client.current |> Report.option fun view =>
    let o := w.view view
    .group [.flag o.enabled, .flag o.closing, .flag o.initialized, .text (viewDiagnostic w view)]

/-- What is asked of the application. -/
def describe (w : Whole) : Report :=
  .fields
    [("started", .flag w.client.started), ("pending", .flag w.client.inFlight),
      ("window_title", .text w.client.windowTitle),
      ("valid", .flag (Ensemble.isControllerValid behaviour w controller)),
      ("bindings", .number (w.controller controller).bindings.length),
      ("view", describeView w), ("debug", .text (diagnostic w))]

/-- Do something with the current view, if there is one. -/
def withCurrent (f : Nat → App.Program Report) : App.Program Report := do
  match ← see (·.client.current) with
  | some view => f view
  | none => return .nothing

/-- The report of a setup: the messages of its error and of what lies beneath. -/
def setUpReport : Except RoleError Unit → Report
  | .ok () => .ok
  | .error e =>
    let e := AppError.core e
    .fields [("error", .text "Core"), ("chain", .texts (e.message :: e.causes))]

/-- Listen to a new view and bind it. -/
def bindNew (hasModel : Bool) : App.Program Unit := do
  let view ← makeView hasModel
  listenTo (.viewAction view)
  bind (some view)

/-- Break the screen of a view, or mend it. -/
def breakScreen (broken : Bool) (view : Nat) : App.Program Report :=
  silently (change fun s =>
    { s with screens := s.screens.set view { s.screens.get view with broken } })

/-- What a step does. -/
def Step.perform : Step → App.Program Report
  | model step => step.perform
  | setUp => do return setUpReport (← App.setUp)
  | start => silently App.start
  | stop => silently App.stop
  | shutDown => silently App.shutDown
  | act name data => silently (.perform (Action.handleAction controller name data))
  | trigger name payload => withCurrent fun view => do
    return .flag (← App.trigger view name payload)
  | postTrigger name payload => do
    if (← see fun w => (w.controller controller).dispatcher).isSome then
      silently (.perform (Action.post dispatcher (.trigger name payload)))
    else return .nothing
  | drain => do
    if (← see fun w => (w.controller controller).dispatcher).isSome then
      return .number (← Program.perform (Action.drain (σ := Code) (ε := State) dispatcher))
    else return .nothing
  | close => withCurrent fun view => silently (App.close view)
  | bindNew hasModel => silently (Application.bindNew hasModel)
  | bindCurrent bound =>
    if bound then withCurrent fun view => silently (bind (some view)) else silently (bind none)
  | bindModel bound =>
    silently (.perform (Action.setModel controller (if bound then some App.model else none)))
  | enable enabled => withCurrent fun view => silently (.perform (Action.enable view enabled))
  | displayView => withCurrent fun view => silently (.perform (Action.displayView view))
  | setUpView => withCurrent fun view => do
    return .attempt (fun _ => "View") ViewError.message
      (← Program.perform (Action.initializeView (σ := Code) (ε := State) view))
  | breakScreen broken => withCurrent (Application.breakScreen broken)
  | tell error info => withCurrent fun view => silently do
    Program.perform (Action.showError view error)
    Program.perform (Action.showInfo view info)
  | reportError message => silently (App.reportError message)
  | reportDone message => silently (App.reportDone message)
  | query => see describe

/-- Listen to the signals of the model. -/
def listenToModel : App.Program Unit := do
  listenTo (.modelProperty model)
  listenTo (.modelData model)
  listenTo (.modelValidity model)
  listenTo Channel.status
  listenTo Channel.busy
  listenTo Channel.theme
  listenTo Channel.settingsLoaded
  listenTo Channel.settingsSaved

/-- Listen to the signals of the controller. -/
def listenToController : App.Program Unit := do
  listenTo (.controllerPhase controller)
  listenTo (.controllerError controller)
  listenTo (.controllerDone controller)

/-- When a rehearsal begins. -/
def opening : Instant := { Instant.epoch with second := 1767225600, leap := by decide }

/-- What is rehearsed. -/
structure Setting where
  config : Config
  hasDispatcher : Bool
  /-- Whether a view is bound from the start, and whether it knows the model. -/
  view : Option Bool
  settingsFile : Option String
  files : List (String × FileEntry)

/-- The application of a setting before its parts know each other. -/
def parts (setting : Setting) : Whole :=
  App.parts setting.config (.new setting.settingsFile) (layOut setting.files)
    setting.hasDispatcher opening

/-- Build the application, with listeners. -/
def arrange (setting : Setting) : App.Program Unit := do
  listenToModel
  assemble
  match setting.view with
  | some hasModel => bindNew hasModel
  | none => pure ()
  listenToController

/-- What was noticed and printed so far, set aside. -/
def collect (s : State) : List Entry × State :=
  let screens := ⟨s.screens.members.map fun (view, screen) => (view, { screen with printed := [] })⟩
  (s.journal, { s with journal := [], screens })

/-- What was printed to each screen, and the phase. -/
def standing (w : Whole) : Report :=
  .fields
    [("out", .texts (w.client.screens.members.map fun (_, screen) => screen.text)),
      ("state", .text (w.controller controller).phase.name)]

/-- Rehearse the application. -/
def rehearse (setting : Setting) (steps : List Step) : Option (List (StepResult Entry)) := do
  let perform (step : Step) : App.Program Report := do
    let report ← step.perform
    awaitWorker
    return report
  let ((), w) ← Ensemble.runClient behaviour depth (arrange setting) (parts setting)
  play ⟨behaviour, perform, collect, standing⟩ steps w

/-- Rehearse the application's model. -/
def rehearseModel (config : Config) (steps : List ModelStep) :
    Option (List (StepResult Entry)) := do
  let ((), w) ← Ensemble.runClient behaviour depth listenToModel
    (parts ⟨config, false, none, none, []⟩)
  let standing (w : Whole) : Report :=
    .fields [("valid", .flag (Ensemble.isModelValid behaviour w model))]
  play ⟨behaviour, ModelStep.perform, collect, standing⟩ steps w

end Mvc.Rehearsal.Application
