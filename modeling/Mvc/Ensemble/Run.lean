import Mvc.Ensemble.Controllers
import Mvc.Ensemble.Models

/-! # Running an ensemble

Calls set off other calls: slots emit, hooks write, tasks queue tasks. `Ensemble.run` ties
the knot. It is granted a depth of nesting, which also bounds how many tasks one drain runs,
and has no result when that is not enough; `body` says what one call does, given a way to
run those that it sets off.
-/

namespace Mvc.Ensemble

variable {σ ε : Type}

/-- Hold a controller during a procedure, if it is still alive. -/
def ifControllerAlive (run : Runner σ ε) (c : Nat) (p : Proc (Ensemble σ ε) Unit) :
    Proc (Ensemble σ ε) Unit := do
  if (← get).isControllerAlive c then holdingController run c p

/-- Hold a view during a procedure, if it is still alive. -/
def ifViewAlive (run : Runner σ ε) (v : Nat) (p : Proc (Ensemble σ ε) Unit) :
    Proc (Ensemble σ ε) Unit := do
  if (← get).isViewAlive v then holdingView run v p

/-- What a slot does with a notice. -/
def serve (run : Runner σ ε) (β : Behaviour σ ε) : Slot σ → Notice → Proc (Ensemble σ ε) Unit
  | .controllerData c, .dataChanged => ifControllerAlive run c (run.client (β.dataChanged c))
  | .controllerAction c, .action name data =>
    ifControllerAlive run c (handleAction run β c name data)
  | .controllerClosing c, .closing => ifControllerAlive run c (handleClosing run β c)
  | .controllerUpdate c, .updateRequested =>
    ifControllerAlive run c (run.client (β.updateRequested c))
  | .viewError v, .text message => ifViewAlive run v (run.client (β.showError v message))
  | .viewInfo v, .text message =>
    if message.isEmpty then pure () else ifViewAlive run v (run.client (β.showInfo v message))
  | .viewPhase v, .phase phase =>
    if phase = .viewClosing then pure () else ifViewAlive run v (run.client (β.display v))
  | .client code, notice => run.client (β.slot code notice)
  | _, _ => pure ()

/-- What an action does. `fuel` bounds the tasks that a drain runs. -/
def performAction (run : Runner σ ε) (β : Behaviour σ ε) (fuel : Nat) :
    (a : Action σ ε) → Proc (Ensemble σ ε) a.Result
  | .connect signal slot delivery => connect signal slot delivery
  | .disconnect signal id => disconnect signal id
  | .disconnectAll signal => changeSignal signal Signal.disconnectAll
  | .block signal blocked => changeSignal signal fun s => s.setBlocked blocked
  | .emit signal notice => emit run signal notice
  | .close signal => changeSignal signal Signal.close
  | .release subscription => release run subscription
  | .post d code => modify (updateDispatcher d fun q => q.post (.client code))
  | .drain d => drain run d fuel
  | .perform code => run.client (β.job code)
  | .inBackground a => inBackground (run (.action a))
  | .write m hooked name value => write run β m hooked name value
  | .setProperty m name value => setProperty run β m name value
  | .setSilently m name value => modify (updateStore m fun s => s.write name value)
  | .replaceAll m pairs => modify (updateStore m fun _ => .ofPairs pairs)
  | .clear m => modify (updateStore m fun _ => .empty)
  | .initializeModel m => initializeModel run β m
  | .resetModel m => resetModel run β m
  | .setModel c m => holdingController run c (setModel run β c m)
  | .setView c v => holdingController run c (holdingView? run v (setView run β c v))
  | .initializeController c => holdingController run c (initializeController run β c)
  | .handleAction c name data => holdingController run c (handleAction run β c name data)
  | .refresh c => holdingController run c (refresh run β c)
  | .handleClosing c => holdingController run c (handleClosing run β c)
  | .reportError c message => holdingController run c (reportError run c message)
  | .reportDone c message => holdingController run c (reportDone run c message)
  | .dropController c => dropController run c
  | .initializeView v => holdingView run v (initializeView run β v)
  | .enable v enabled => modify (updateView v fun o => { o with enabled })
  | .report v name data => holdingView run v (report run v name data)
  | .announceClosing v => holdingView run v (announceClosing run v)
  | .attach v c => holdingView run v (attach run v c)
  | .displayView v => holdingView run v (run.client (β.display v))
  | .finishUpdate v => emit run (.viewUpdate v) .updateRequested
  | .showError v message => holdingView run v (run.client (β.showError v message))
  | .showInfo v message => holdingView run v (run.client (β.showInfo v message))
  | .dropView v => dropView run v
  | .change f => modify fun w => { w with client := f w.client }

/-- What a call does, given a way to run the calls that it sets off. -/
def body (run : Runner σ ε) (β : Behaviour σ ε) (fuel : Nat) : Runner σ ε
  | .slot slot notice => serve run β slot notice
  | .task task => runTask run β task
  | .subscription code => run.client (β.job code)
  | .action a => performAction run β fuel a

/-- Run a call that sets off calls to a given depth at most. -/
def run (β : Behaviour σ ε) : Nat → Runner σ ε
  | 0 => fun _ => Proc.tooDeep
  | depth + 1 => body (run β depth) β depth

/-- Run client code from outside. -/
def runClient {ρ : Type} (β : Behaviour σ ε) (depth : Nat) (code : Client σ ε ρ) :
    Proc (Ensemble σ ε) ρ :=
  (run β depth).client code

end Mvc.Ensemble
