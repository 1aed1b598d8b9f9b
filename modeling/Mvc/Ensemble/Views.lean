import Mvc.Ensemble.Lifetime

/-! # Views

A view that is attached to a controller listens to its three signals: it shows errors and
completed operations, and shows itself anew whenever the controller's phase changes, except
to the closing phase. Attaching it to another controller ends the old link first.
-/

namespace Mvc.Ensemble

variable {σ ε : Type} (run : Runner σ ε) (β : Behaviour σ ε)

/-- Listen to a controller on behalf of a view. -/
def subscribeToController (v c : Nat) : Proc (Ensemble σ ε) (List (Subscription σ)) := do
  let error ← connect (.controllerError c) (.viewError v) .direct
  let done ← connect (.controllerDone c) (.viewInfo v) .direct
  let phase ← connect (.controllerPhase c) (.viewPhase v) .direct
  return [.connection (.controllerError c) error, .connection (.controllerDone c) done,
    .connection (.controllerPhase c) phase]

/-- Attach a view to a controller, or to none. -/
def attach (v : Nat) (c : Option Nat) : Proc (Ensemble σ ε) Unit := do
  let current := ((← get).view v).attachment
  if current.map (·.controller) = c then pure ()
  else
    modify (updateView v fun o => { o with attachment := none })
    releaseAll run ((current.map (·.subscriptions)).getD [])
    match c with
    | none => pure ()
    | some c =>
      let subscriptions ← subscribeToController v c
      modify (updateView v fun o => { o with attachment := some ⟨c, subscriptions⟩ })

/-- Run a view's setup, unless it has succeeded before. -/
def initializeView (v : Nat) : Proc (Ensemble σ ε) (Except ViewError Unit) := do
  if ((← get).view v).initialized then return .ok ()
  match ← run.client (β.viewSetup v) with
  | .error e => return .error e
  | .ok () =>
    modify (updateView v fun o => { o with initialized := true })
    return .ok ()

/-- Report a user action, if the view is enabled. -/
def report (v : Nat) (name : String) (data : Value) : Proc (Ensemble σ ε) Unit := do
  if ((← get).view v).enabled then emit run (.viewAction v) (.action name data)

/-- Announce that a view closes; only the first time counts. -/
def announceClosing (v : Nat) : Proc (Ensemble σ ε) Unit := do
  if ((← get).view v).closing then pure ()
  else
    modify (updateView v fun o => { o with closing := true })
    emit run (.viewClosing v) .closing

end Mvc.Ensemble
