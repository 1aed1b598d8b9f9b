import Mvc.Ensemble.Views

/-! # Controllers

A controller listens to its model and its view as long as they are bound. Binding another
model or view ends the subscriptions to the old one and the client's bindings, subscribes
to the new one, and makes new bindings once the controller is initialized and both are
there. Every binding and every step of the lifecycle announces the phase.

Binding what is bound already does nothing. Binding another view ends the closing phase.
-/

namespace Mvc.Ensemble

variable {σ ε : Type} (run : Runner σ ε) (β : Behaviour σ ε)

/-- What a controller that is not initialized answers to a user action. -/
def notInitialized : String := "Controller not initialized"

/-- What a controller reports after a view was shown anew on demand. -/
def viewUpdated : String := "View updated"

/-- Announce the phase of a controller. -/
def emitPhase (c : Nat) : Proc (Ensemble σ ε) Unit := do
  emit run (.controllerPhase c) (.phase ((← get).controller c).phase)

/-- Report an error of a controller. -/
def reportError (c : Nat) (message : String) : Proc (Ensemble σ ε) Unit :=
  emit run (.controllerError c) (.text message)

/-- Report what a controller completed. -/
def reportDone (c : Nat) (message : String) : Proc (Ensemble σ ε) Unit :=
  emit run (.controllerDone c) (.text message)

/-- Make the client's bindings and end those that they replace. -/
def establishBindings (c : Nat) : Proc (Ensemble σ ε) Unit := do
  let bindings ← run.client (β.connect c)
  let previous := ((← get).controller c).bindings
  modify (updateController c fun o => { o with bindings })
  releaseAll run previous

/-- Whether a controller has what its bindings need. -/
def isReady (o : Controller σ) : Bool := o.initialized && o.model.isSome && o.view.isSome

/-- Make the client's bindings if everything for them is there. -/
def rebindIfReady (c : Nat) : Proc (Ensemble σ ε) Unit := do
  if isReady ((← get).controller c) then establishBindings run β c

/-- Listen to a model on behalf of a controller. -/
def subscribeToModel (c m : Nat) : Proc (Ensemble σ ε) (List (Subscription σ)) := do
  let delivery : Delivery :=
    match ((← get).controller c).dispatcher with
    | some d => .dispatched .auto d
    | none => .direct
  let id ← connect (.modelData m) (.controllerData c) delivery
  return [.connection (.modelData m) id]

/-- Listen to a view on behalf of a controller. -/
def subscribeToView (c v : Nat) : Proc (Ensemble σ ε) (List (Subscription σ)) := do
  let action ← connect (.viewAction v) (.controllerAction c) .direct
  let closing ← connect (.viewClosing v) (.controllerClosing c) .direct
  let update ← connect (.viewUpdate v) (.controllerUpdate c) .direct
  return [.connection (.viewAction v) action, .connection (.viewClosing v) closing,
    .connection (.viewUpdate v) update]

/-- Bind a model, or none. -/
def setModel (c : Nat) (m : Option Nat) : Proc (Ensemble σ ε) Unit := do
  let o := (← get).controller c
  if o.model = m then pure ()
  else
    modify (updateController c fun o =>
      { o with model := m, modelSubscriptions := [], bindings := [] })
    releaseAll run o.modelSubscriptions
    releaseAll run o.bindings
    match m with
    | none => pure ()
    | some m =>
      let subscriptions ← subscribeToModel c m
      let previous := ((← get).controller c).modelSubscriptions
      modify (updateController c fun o => { o with modelSubscriptions := subscriptions })
      releaseAll run previous
    rebindIfReady run β c
    emitPhase run c

/-- Free a view that was bound: if it is attached to the controller, it no longer is. -/
def unbindView (c v : Nat) : Proc (Ensemble σ ε) Unit := do
  if (← get).viewController? v = some c then attach run v none

/-- Bind a view, or none. -/
def setView (c : Nat) (v : Option Nat) : Proc (Ensemble σ ε) Unit := do
  let o := (← get).controller c
  if o.view = v then pure ()
  else
    holdingView? run o.view do
      modify (updateController c fun o =>
        { o with closing := false, view := v, viewSubscriptions := [], bindings := [] })
      releaseAll run o.viewSubscriptions
      releaseAll run o.bindings
      match o.view with
      | none => pure ()
      | some old => unbindView run c old
    match v with
    | none => pure ()
    | some v =>
      let subscriptions ← subscribeToView c v
      let previous := ((← get).controller c).viewSubscriptions
      modify (updateController c fun o => { o with viewSubscriptions := subscriptions })
      releaseAll run previous
      attach run v (some c)
    rebindIfReady run β c
    emitPhase run c

/-- Run a controller's setup, unless it has succeeded before. -/
def initializeController (c : Nat) : Proc (Ensemble σ ε) (Except ControllerError Unit) := do
  if ((← get).controller c).initialized then return .ok ()
  match ← run.client (β.setup c) with
  | .error e => return .error e
  | .ok () =>
    modify (updateController c fun o => { o with initialized := true })
    rebindIfReady run β c
    emitPhase run c
    return .ok ()

/-- Show the bound view anew, if there is one. -/
def refresh (c : Nat) : Proc (Ensemble σ ε) Unit := do
  match ((← get).controller c).view with
  | none => pure ()
  | some v =>
    holdingView run v do
      run.client (β.derive c)
      run.client (β.display v)

/-- Handle a user action. -/
def handleAction (c : Nat) (name : String) (data : Value) : Proc (Ensemble σ ε) Unit := do
  if ((← get).controller c).phase ≠ .initialized then reportError run c notInitialized
  else if ← run.client (β.handles c name data) then pure ()
  else if name = "refresh" ∨ name = "update" then
    refresh run β c
    reportDone run c viewUpdated

/-- Enter the closing phase, unless the controller is in it. -/
def handleClosing (c : Nat) : Proc (Ensemble σ ε) Unit := do
  if ((← get).controller c).closing then pure ()
  else
    run.client (β.closing c)
    modify (updateController c fun o => { o with closing := true })
    emitPhase run c

/-- Whether a controller is initialized and its client considers it valid. -/
def isControllerValid (β : Behaviour σ ε) (w : Ensemble σ ε) (c : Nat) : Bool :=
  (w.controller c).phase = .initialized && β.isValid c w

end Mvc.Ensemble
