import Mvc.App.Model
import Mvc.App.View

/-! # The application's controller

User actions that start an operation are refused while another one is in flight: from the
moment when it is accepted until its end is reported. The worker does the operation; with a
dispatcher its end is reported on the presentation thread.

The application starts and stops around its user's work: starting and stopping are told in
the status line, and stopping keeps user and theme in the settings.
-/

namespace Mvc.App

/-- The error of a start without all parts. -/
def missingParts : String := "Application model or main window not set"

/-- The error of an operation that comes while another one is in flight. -/
def operationInProgress : String := "Another operation is in progress"

/-- The error of an operation that comes after the worker was stopped. -/
def workerStopped : String := "Worker is not running"

/-- Report an error. -/
def reportError (message : String) : Program Unit :=
  Program.perform (Action.reportError controller message)

/-- Report what was completed. -/
def reportDone (message : String) : Program Unit :=
  Program.perform (Action.reportDone controller message)

/-! ## Operations -/

/-- Have an operation done, if none is in flight. -/
def run (operation : Operation) : Program Unit := do
  if ← see (·.client.inFlight) then reportError operationInProgress
  else
    change fun s => { s with inFlight := true }
    updateStatus operation.started
    if ← see (·.client.worker.accepts) then
      change fun s => { s with worker := s.worker.send operation }
    else
      change fun s => { s with inFlight := false }
      reportError workerStopped

/-- Report the end of an operation. -/
def complete (message : String) : Program Unit := do
  change fun s => { s with inFlight := false }
  reportDone message

/-- The part of an operation that the worker does. -/
def work (operation : Operation) : Program Unit := do
  setBusy true
  setBusy false
  updateStatus operation.finished
  match ← see fun w => (w.controller controller).dispatcher with
  | some d => Program.perform (Action.post d (.complete operation.completed))
  | none => complete operation.completed

/-- Have the worker do some operations, which are the first in its queue. -/
def workOff : List Operation → Program Unit
  | [] => pure ()
  | operation :: rest => do
    Program.perform (Action.inBackground (.perform (.work operation)))
    change fun s => { s with worker := s.worker.finish }
    workOff rest

/-- Wait until the worker has done all its operations. -/
def awaitWorker : Program Unit := do workOff (← see (·.client.worker.queue))

/-! ## User actions -/

/-- Change the theme, if the text of a value names one. -/
def changeTheme (data : Value) : Program Unit := do
  match ← setText Property.theme data.lossyText with
  | .rejected => reportError ("Invalid theme: " ++ data.lossyText)
  | _ => pure ()

/-- Handle a user action; tell whether it is one of the application's. -/
def handles (name : String) (data : Value) : Program Bool := do
  let config ← see (·.client.config)
  match Operation.ofAction? config.work name data with
  | some operation =>
    run operation
    return true
  | none =>
    if name = "theme" then
      changeTheme data
      return true
    else return false

/-! ## Start and stop -/

/-- Report an error and give up. -/
def giveUp (message : String) (cause : RoleError) : Program (Except RoleError Unit) := do
  reportError message
  return .error cause

/-- Set up the controller, as the last of the parts, and take user and theme from the
    settings. -/
def setUpController : Program (Except RoleError Unit) := do
  let result ← Program.perform (Action.initializeController (σ := Code) (ε := State) controller)
  match result with
  | .error e => giveUp "Failed to initialize application controller" (.controller e)
  | .ok () =>
    loadSettings
    updateStatus "Settings loaded"
    return .ok ()

/-- Set up a view and then the controller. -/
def setUpView (view : Nat) : Program (Except RoleError Unit) := do
  let result ← Program.perform (Action.initializeView (σ := Code) (ε := State) view)
  match result with
  | .error e => giveUp "Failed to initialize main window" (.view e)
  | .ok () => setUpController

/-- Set up the model, the bound view and the controller. -/
def setUp : Program (Except RoleError Unit) := do
  let c ← see fun w => w.controller controller
  match c.model, c.view with
  | none, _ => giveUp missingParts (.controller .noModel)
  | some _, none => giveUp missingParts (.controller .noView)
  | some _, some view =>
    let result ← Program.perform (Action.initializeModel (σ := Code) (ε := State) model)
    match result with
    | .error e => giveUp "Failed to initialize application model" (.model e)
    | .ok () => setUpView view

/-- Start the application, unless it is started. -/
def start : Program Unit := do
  if ← see (·.client.started) then pure ()
  else
    change fun s => { s with started := true }
    updateStatus "Starting application..."
    updateStatus "Application started"
    reportDone "Application started successfully"

/-- Stop the application, unless it is stopped. -/
def stop : Program Unit := do
  if ← see (·.client.started) then
    change fun s => { s with started := false }
    updateStatus "Stopping application..."
    saveSettings
    updateStatus "Settings saved"
    updateStatus "Application stopped"

/-- Stop the application for good: the worker does what it has and accepts no more. -/
def shutDown : Program Unit := do
  stop
  change fun s => { s with worker := s.worker.stop }
  awaitWorker

/-! ## Bindings -/

/-- What is subscribed to for a bound view: it is enabled exactly while no operation is at
    work. With a dispatcher the view changes on the presentation thread only. -/
def bindings : Program (List (Subscription Code)) := do
  let c ← see fun w => w.controller controller
  match c.view with
  | none => return []
  | some view =>
    let busy ← see fun w => isBusy (properties w)
    Program.perform (Action.enable view (!busy))
    let delivery : Delivery := match c.dispatcher with
      | some d => .dispatched .auto d
      | none => .direct
    let id ← connect Channel.busy (.followBusy view) delivery
    return [.connection Channel.busy id]

/-- Take over the title for the view that is shown anew. -/
def deriveTitle : Program Unit := do
  let title ← see fun w => App.windowTitle (properties w)
  change fun s => { s with windowTitle := title }

/-- The diagnostic text of the application. -/
def diagnostic (w : Whole) : String :=
  "ApplicationController \x7b controller: " ++ (w.controller controller).diagnostic ++
    ", started: " ++ boolText w.client.started ++ ", pending: " ++ boolText w.client.inFlight ++
    " \x7d"

end Mvc.App
