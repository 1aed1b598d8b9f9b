import Mvc.App.Controller

/-! # The application as client code

The application's parts as one behaviour of an ensemble, and how they are put together.
-/

namespace Mvc.App

/-- Trigger a user action on the current view and write down what came of it, when the
    worker has done what the action started. -/
def triggerCurrent (name payload : String) : Program Unit := do
  match ← see (·.client.current) with
  | none => note (.triggered none)
  | some view =>
    let passed ← trigger view name payload
    awaitWorker
    note (.triggered (some passed))

/-- Print the commands on the current view. -/
def help : Program Unit := do
  match ← see (·.client.current) with
  | none => pure ()
  | some view => print view .commands

/-- What the application does. -/
def behaviour : Behaviour Code State :=
  let plain := Behaviour.plain
  { plain with
    accepts := fun _ name value => pure (accepts name value)
    afterSet := fun _ name _ value => afterSet name value
    populate := fun _ => do return .ok (← populate)
    validates := fun _ store => validates store
    connect := fun _ => bindings
    handles := fun _ name data => handles name data
    isValid := fun c w =>
      (w.controller c).model.isSome && (w.controller c).view.isSome &&
        (w.model model).initialized && validates (properties w)
    derive := fun _ => deriveTitle
    closing := fun _ => stop
    viewSetup := viewSetup
    display := display
    showError := fun view message => print view (.error message)
    showInfo := fun view message => print view (.info message)
    slot := fun code notice =>
      match code, notice with
      | .listen signal, notice => note (.heard signal notice)
      | .followBusy view, .flag busy => do
        if ← see (·.isViewAlive view) then Program.perform (Action.enable view (!busy))
      | .followTheme, .text theme => updateStatus ("Theme changed to: " ++ theme)
      | _, _ => pure ()
    job := fun code =>
      match code with
      | .work operation => work operation
      | .complete message => complete message
      | .trigger name payload => triggerCurrent name payload
      | .help => help
      | _ => pure () }

/-- The application before its parts know each other. -/
def parts (config : Config) (service : Service) (files : Files) (hasDispatcher : Bool)
    (clock : Instant) : Whole :=
  let state : State :=
    { config, service, files, worker := .new, started := false, inFlight := false
      windowTitle := windowTitle .empty, screens := .empty, current := none, clock
      journal := [] }
  (Ensemble.new state).updateController controller fun c =>
    { c with dispatcher := if hasDispatcher then some dispatcher else none }

/-- Make the parts known to each other. -/
def assemble : Program Unit := do
  Program.perform (Action.setModel controller (some model))
  let _ ← connect Channel.theme .followTheme .direct

/-- Make the controller show itself in a view, or in none. -/
def bind (view : Option Nat) : Program Unit := Program.perform (Action.setView controller view)

end Mvc.App
