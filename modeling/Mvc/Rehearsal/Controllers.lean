import Mvc.Rehearsal.ModelScript

/-! # Rehearsing controllers

Some models, views and controllers that the steps bind to each other. The hooks of a
scripted controller write down that they are called and may take further steps, which makes
for calls within calls. A step about a controller or view that was given up is refused.
-/

namespace Mvc.Rehearsal.Controllers

/-- The listeners. -/
inductive Code where
  | phases (controller : Nat)
  | errors (controller : Nat)
  | completions (controller : Nat)
  /-- A binding that a controller made. -/
  | bound (controller index : Nat)

/-- The steps. -/
inductive Step where
  | setModel (controller : Nat) (model : Option Nat)
  | setView (controller : Nat) (view : Option Nat)
  | setUp (controller : Nat)
  | action (controller : Nat) (name : String) (data : Value)
  | refresh (controller : Nat)
  | closing (controller : Nat)
  | error (controller : Nat) (message : String)
  | done (controller : Nat) (message : String)
  | query (controller : Nat)
  | drop (controller : Nat)
  /-- Let the setup of a controller succeed from now on. -/
  | allowSetup (controller : Nat)
  | write (model : Nat) (background : Bool) (name : String) (value : Value)
  | populate (model : Nat) (again : Bool)
  | queryModel (model : Nat)
  | setUpView (view : Nat)
  | enable (view : Nat) (enabled : Bool)
  | report (view : Nat) (name : String) (data : Value)
  | close (view : Nat)
  | attach (view : Nat) (controller : Option Nat)
  | displayView (view : Nat)
  | blockActions (view : Nat) (blocked : Bool)
  | queryView (view : Nat)
  | dropView (view : Nat)
  | drain

/-- Steps that a hook takes the first so many times. -/
structure HookScript where
  times : Nat
  steps : List Step

/-- What a scripted controller does. -/
structure ControllerScript where
  /-- How many bindings it makes. -/
  bind : Nat
  /-- Whether it gives them up at once. -/
  bindClear : Bool
  /-- The user actions that it handles. -/
  handled : List String
  /-- Whether it counts as valid; if not said, it does when its model is valid. -/
  valid : Option Bool
  /-- Whether a change of the model is ignored. -/
  ignoreData : Bool
  /-- Why its setup fails. -/
  setupFailure : Option ControllerError
  /-- The steps that its hooks take. -/
  scripts : List (String × HookScript)

/-- A view that can be inspected. -/
structure Probe where
  /-- Whether it finishes no update before its setup. -/
  gate : Bool
  /-- Why its setup fails. -/
  failure : Option String

/-- What to rehearse. -/
structure Setting where
  /-- The models; one without a script has no hooks. -/
  models : List (Option ModelScript)
  /-- The views; one that is no probe does as little as it can. -/
  views : List (Option Probe)
  /-- The controllers, and whether changes of their models come by the dispatcher; one
      without a script has the plain hooks. -/
  controllers : List (Option ControllerScript × Bool)

/-- What is noticed. -/
inductive Event where
  | model (event : ModelEvent)
  | display (view : Nat)
  | setUpView (view : Nat)
  | showError (view : Nat) (message : String)
  | showInfo (view : Nat) (message : String)
  | phase (controller : Nat) (phase : Phase)
  | error (controller : Nat) (message : String)
  | done (controller : Nat) (message : String)
  /-- A hook was called. -/
  | hook (controller : Nat) (name : String)
  /-- A hook took a step. -/
  | did (report : Report)
  | action (controller : Nat) (name : String) (data : Value)
  | bound (controller index : Nat) (name : String) (value : Value)
  /-- Bindings were made: their number before and after giving them up. -/
  | bindings (controller count rest : Nat)

/-- The client state. -/
structure State where
  /-- How often each script has run, by controller and hook. -/
  runs : List (Nat × String)
  /-- The controllers whose setup may succeed. -/
  allowed : List Nat
  /-- What was noticed. -/
  log : List Event

/-- The code of controller rehearsals. -/
abbrev Program (ρ : Type) := Client Code State ρ

/-- Write down an event. -/
def note (e : Event) : Program Unit :=
  .perform (Action.change fun s => { s with log := s.log ++ [e] })

variable (setting : Setting)

/-- The script of a model. -/
def Setting.model? (m : Nat) : Option ModelScript := (setting.models[m]?).bind id

/-- The script of a controller. -/
def Setting.controller? (c : Nat) : Option ControllerScript :=
  (setting.controllers[c]?).bind (·.1)

/-- A view that can be inspected. -/
def Setting.probe? (v : Nat) : Option Probe := (setting.views[v]?).bind id

/-- Whether a model is valid. -/
def Setting.isModelValid (w : Ensemble Code State) (m : Nat) : Bool :=
  (w.model m).initialized && (setting.model? m).all fun script => script.validates (w.model m).store

/-- Whether a controller with the given phase and script counts as valid. -/
def Setting.isValid (c : Nat) (w : Ensemble Code State) : Bool :=
  match setting.controller? c with
  | some script => script.valid.getD ((w.controller c).model.any (setting.isModelValid w))
  | none => Behaviour.plain.isValid c w

/-- The report about a controller. -/
def Setting.describe (c : Nat) (w : Ensemble Code State) : Report :=
  let o := w.controller c
  let held (v : Nat) : Bool := (w.view v).held
  .fields
    [("state", .text o.phase.name),
      ("valid", .flag (o.phase = .initialized && setting.isValid c w)),
      ("initialized", .flag o.initialized), ("bindings", .number o.bindings.length),
      ("model", .option .number o.model), ("view", .option .number (o.view.filter held)),
      ("debug", .text o.diagnostic), ("alive", .flag o.isAlive),
      ("dispatcher", .flag o.dispatcher.isSome),
      ("connections", .group [.number o.phaseChanged.connectionCount,
        .number o.errorOccurred.connectionCount, .number o.operationCompleted.connectionCount])]

/-- The report about a model. -/
def Setting.describeModel (m : Nat) (w : Ensemble Code State) : Report :=
  let o := w.model m
  .fields
    [("state", .text o.stateName), ("valid", .flag (setting.isModelValid w m)),
      ("connections", .group [.number o.propertyChanged.connectionCount,
        .number o.dataChanged.connectionCount, .number o.validityChanged.connectionCount])]

/-- The report about a view. -/
def describeView (v : Nat) (w : Ensemble Code State) : Report :=
  let o := w.view v
  let held (c : Nat) : Bool := (w.controller c).held
  .fields
    [("valid", .flag o.initialized), ("enabled", .flag o.enabled), ("closing", .flag o.closing),
      ("controller", .option .number ((w.viewController? v).filter held)),
      ("debug", .text (w.viewDiagnostic v)), ("signals", .text (w.viewSignalsDiagnostic v))]

/-- Perform an action that reports nothing. -/
def silently (a : Action Code State) : Program Report := do
  let _ ← Program.perform a
  return .nothing

/-- Do something with a controller, unless it was given up. -/
def withController (c : Nat) (p : Program Report) : Program Report := do
  let held ← Program.see fun w : Ensemble Code State => (w.controller c).held
  if held then p else return .dropped

/-- Do something with a view, unless it was given up. -/
def withView (v : Nat) (p : Program Report) : Program Report := do
  let held ← Program.see fun w : Ensemble Code State => (w.view v).held
  if held then p else return .dropped

/-- What a step does. -/
def Step.perform : Step → Program Report
  | .setModel c m => withController c (silently (.setModel c m))
  | .setView c v => withController c do
    let held ← Program.see fun w : Ensemble Code State => v.filter fun v => (w.view v).held
    silently (.setView c held)
  | .setUp c => withController c do
    let r ← Program.perform (Action.initializeController c)
    return .attempt ControllerError.kind ControllerError.message r
  | .action c name data => withController c (silently (.handleAction c name data))
  | .refresh c => withController c (silently (.refresh c))
  | .closing c => withController c (silently (.handleClosing c))
  | .error c message => withController c (silently (.reportError c message))
  | .done c message => withController c (silently (.reportDone c message))
  | .query c => withController c (Program.see (setting.describe c))
  | .drop c => do
    let held ← Program.see fun w : Ensemble Code State => (w.controller c).held
    Program.perform (Action.dropController c)
    return .flag held
  | .allowSetup c => do
    Program.perform (Action.change fun s => { s with allowed := c :: s.allowed })
    return .nothing
  | .write m background name value => do
    if background then
      let outcome ← Program.perform (Action.inBackground (.setProperty m name value))
      return outcome.report
    else
      let outcome ← Program.perform (Action.setProperty m name value)
      return outcome.report
  | .populate m again => do
    if again then
      let r ← Program.perform (Action.resetModel m)
      return .attempt ModelError.kind ModelError.message r
    else
      let r ← Program.perform (Action.initializeModel m)
      return .attempt ModelError.kind ModelError.message r
  | .queryModel m => Program.see (setting.describeModel m)
  | .setUpView v => withView v do
    let r ← Program.perform (Action.initializeView v)
    return .attempt ViewError.kind ViewError.message r
  | .enable v enabled => withView v (silently (.enable v enabled))
  | .report v name data => withView v (silently (.report v name data))
  | .close v => withView v (silently (.announceClosing v))
  | .attach v c => withView v do
    let held ← Program.see fun w : Ensemble Code State => c.filter fun c => (w.controller c).held
    silently (.attach v held)
  | .displayView v => withView v (silently (.displayView v))
  | .blockActions v blocked => withView v (silently (.block (.viewAction v) blocked))
  | .queryView v => withView v (Program.see (describeView v))
  | .dropView v => do
    let held ← Program.see fun w : Ensemble Code State => (w.view v).held
    Program.perform (Action.dropView v)
    return .flag held
  | .drain => do
    let n ← Program.perform (Action.drain 0)
    return .number n

/-- Take the steps of a script and write down what they report. -/
def takeSteps : List Step → Program Unit
  | [] => pure ()
  | step :: rest => do
    let r ← step.perform setting
    note (.did r)
    takeSteps rest

/-- Write down that a hook was called, and take its steps if they are not used up. -/
def runHook (c : Nat) (script : ControllerScript) (name : String) : Program Unit := do
  note (.hook c name)
  match script.scripts.lookup name with
  | none => pure ()
  | some hook =>
    let count ← Program.see fun w : Ensemble Code State => w.client.runs.count (c, name)
    if count < hook.times then
      Program.perform (Action.change fun s => { s with runs := (c, name) :: s.runs })
      takeSteps setting hook.steps

/-- Make bindings up to a number, as long as a model is bound; tell also whether that was
    so to the end. -/
def bindUpTo (c : Nat) (count : Nat) : Nat → Program (List (Subscription Code) × Bool)
  | 0 => pure ([], true)
  | n + 1 => do
    let model ← Program.see fun w : Ensemble Code State => (w.controller c).model
    match model with
    | none => return ([], false)
    | some m =>
      let signal : SignalRef := .modelProperty m
      let id ← Program.perform
        (Action.connect signal (.client (.bound c (count - (n + 1)))) .direct)
      let (rest, complete) ← bindUpTo c count n
      return (.connection signal id :: rest, complete)

/-- End subscriptions. -/
def releaseAll : List (Subscription Code) → Program Unit
  | [] => pure ()
  | s :: rest => do
    Program.perform (Action.release s)
    releaseAll rest

/-- The bindings of a scripted controller. -/
def bindings (c : Nat) (script : ControllerScript) : Program (List (Subscription Code)) := do
  runHook setting c script "connect"
  let (subscriptions, complete) ← bindUpTo c script.bind script.bind
  if !complete then return subscriptions
  if script.bindClear then
    releaseAll subscriptions
    note (.bindings c subscriptions.length 0)
    return []
  else
    note (.bindings c subscriptions.length subscriptions.length)
    return subscriptions

/-- Do as the script of a controller says, or as plain controllers do. -/
def scripted {ρ : Type} (c : Nat) (plain : Program ρ) (p : ControllerScript → Program ρ) :
    Program ρ :=
  match setting.controller? c with
  | some script => p script
  | none => plain

/-- The client code of a setting. -/
def behaviour : Behaviour Code State :=
  let plain : Behaviour Code State := .plain
  let noteModel (e : ModelEvent) : Program Unit := note (.model e)
  { accepts := fun m name value =>
      match setting.model? m with
      | some script => script.accepts noteModel name value
      | none => plain.accepts m name value
    afterSet := fun m name old new =>
      match setting.model? m with
      | some script => script.afterSet noteModel m false name old new
      | none => plain.afterSet m name old new
    populate := fun m =>
      match setting.model? m with
      | some script => script.populate noteModel m script.failure
      | none => plain.populate m
    validates := fun m store => (setting.model? m).all fun script => script.validates store
    setup := fun c => scripted setting c (plain.setup c) fun script => do
      runHook setting c script "init"
      let allowed ← Program.see fun w : Ensemble Code State => w.client.allowed.contains c
      match script.setupFailure with
      | some e => return if allowed then .ok () else .error e
      | none => return .ok ()
    connect := fun c => scripted setting c (plain.connect c) (bindings setting c)
    handles := fun c name data => scripted setting c (plain.handles c name data) fun script => do
      note (.action c name data)
      runHook setting c script ("action:" ++ name)
      return script.handled.contains name
    isValid := setting.isValid
    derive := fun c => scripted setting c (plain.derive c) fun script =>
      runHook setting c script "update_state"
    dataChanged := fun c => scripted setting c (plain.dataChanged c) fun script => do
      runHook setting c script "data_changed"
      if script.ignoreData then pure () else Program.perform (Action.refresh c)
    updateRequested := fun c => scripted setting c (plain.updateRequested c) fun script =>
      runHook setting c script "update_requested"
    closing := fun c => scripted setting c (plain.closing c) fun script =>
      runHook setting c script "closing"
    viewSetup := fun v =>
      match setting.probe? v with
      | some probe => do
        note (.setUpView v)
        match probe.failure with
        | some reason => return .error (.initializationFailed reason)
        | none => return .ok ()
      | none => plain.viewSetup v
    display := fun v => do
      note (.display v)
      match setting.probe? v with
      | some probe =>
        let ready ← Program.see fun w : Ensemble Code State => !probe.gate || (w.view v).initialized
        if ready then Program.perform (Action.finishUpdate v)
      | none => pure ()
    showError := fun v message => note (.showError v message)
    showInfo := fun v message => note (.showInfo v message)
    slot := fun code notice =>
      match code, notice with
      | .phases c, .phase phase => note (.phase c phase)
      | .errors c, .text message => note (.error c message)
      | .completions c, .text message => note (.done c message)
      | .bound c k, .property name value => note (.bound c k name value)
      | _, _ => pure ()
    job := fun _ => pure () }

/-- Connect the listeners of the controllers from a number on. -/
def arrange (c : Nat) : List (Option ControllerScript × Bool) → Program Unit
  | [] => pure ()
  | _ :: rest => do
    let listen (signal : SignalRef) (code : Code) : Program Unit := do
      let _ ← Program.perform (Action.connect signal (.client code) .direct)
    listen (.controllerPhase c) (.phases c)
    listen (.controllerError c) (.errors c)
    listen (.controllerDone c) (.completions c)
    arrange (c + 1) rest

/-- The controllers of a setting before they meet anyone. -/
def controllersFrom (c : Nat) :
    List (Option ControllerScript × Bool) → Ensemble Code State → Ensemble Code State
  | [], w => w
  | (_, dispatched) :: rest, w =>
    controllersFrom (c + 1) rest
      (w.updateController c fun o => { o with dispatcher := if dispatched then some 0 else none })

/-- The phase of each controller and whether it is valid. -/
def standing (w : Ensemble Code State) : Report :=
  .group ((List.range setting.controllers.length).map fun c =>
    let o := w.controller c
    if o.held then
      .group [.text o.phase.name, .flag (Ensemble.isControllerValid (behaviour setting) w c)]
    else .nothing)

/-- The rehearsal of some controllers. -/
def stage : Stage Code State Event Step where
  behaviour := behaviour setting
  perform := Step.perform setting
  collect s := (s.log, { s with log := [] })
  standing := standing setting

/-- Rehearse some controllers. -/
def rehearse (steps : List Step) : Option (List (StepResult Event)) := do
  let w := controllersFrom 0 setting.controllers (.new ⟨[], [], []⟩)
  let ((), w) ← Ensemble.runClient (behaviour setting) depth (arrange 0 setting.controllers) w
  play (stage setting) steps w

end Mvc.Rehearsal.Controllers
