import Mvc.Ensemble.Emission

/-! # Lifetimes

A controller or view that nobody holds any more is taken apart. A controller gives up its
model, its view, its subscriptions and its bindings, in this order, and then its signals; a
view gives up its signals and its link to a controller. Taking a controller apart may leave
its view without a holder, so that it follows.
-/

namespace Mvc.Ensemble

variable {σ ε : Type}

/-- Take a view apart if nobody holds it. -/
def collectView (run : Runner σ ε) (v : Nat) : Proc (Ensemble σ ε) Unit := do
  let w ← get
  if w.isViewAlive v then pure ()
  else
    let attachment := (w.view v).attachment
    modify (updateView v fun o =>
      { o with
        attachment := none
        userAction := o.userAction.close
        viewClosing := o.viewClosing.close
        viewUpdate := o.viewUpdate.close })
    releaseAll run ((attachment.map (·.subscriptions)).getD [])

/-- Take a controller apart if nobody holds it. -/
def collectController (run : Runner σ ε) (c : Nat) : Proc (Ensemble σ ε) Unit := do
  let o := (← get).controller c
  if o.isAlive then pure ()
  else
    modify (updateController c fun o =>
      { o with
        model := none, view := none, modelSubscriptions := [], viewSubscriptions := [],
        bindings := [] })
    match o.view with
    | some v => collectView run v
    | none => pure ()
    releaseAll run (o.modelSubscriptions ++ o.viewSubscriptions ++ o.bindings)
    modify (updateController c fun o =>
      { o with
        phaseChanged := o.phaseChanged.close
        errorOccurred := o.errorOccurred.close
        operationCompleted := o.operationCompleted.close })

/-- Hold a controller during a procedure. -/
def holdingController {α : Type} (run : Runner σ ε) (c : Nat) (p : Proc (Ensemble σ ε) α) :
    Proc (Ensemble σ ε) α := do
  modify (updateController c fun o => { o with pins := o.pins + 1 })
  let result ← p
  modify (updateController c fun o => { o with pins := o.pins - 1 })
  collectController run c
  return result

/-- Hold a view during a procedure. -/
def holdingView {α : Type} (run : Runner σ ε) (v : Nat) (p : Proc (Ensemble σ ε) α) :
    Proc (Ensemble σ ε) α := do
  modify (updateView v fun o => { o with pins := o.pins + 1 })
  let result ← p
  modify (updateView v fun o => { o with pins := o.pins - 1 })
  collectView run v
  return result

/-- Hold a view, if one is given, during a procedure. -/
def holdingView? {α : Type} (run : Runner σ ε) (v : Option Nat) (p : Proc (Ensemble σ ε) α) :
    Proc (Ensemble σ ε) α :=
  match v with
  | some v => holdingView run v p
  | none => p

/-- Give up the client's handle of a controller. -/
def dropController (run : Runner σ ε) (c : Nat) : Proc (Ensemble σ ε) Unit := do
  if ((← get).controller c).held then
    modify (updateController c fun o => { o with held := false })
    collectController run c

/-- Give up the client's handle of a view. -/
def dropView (run : Runner σ ε) (v : Nat) : Proc (Ensemble σ ε) Unit := do
  if ((← get).view v).held then
    modify (updateView v fun o => { o with held := false })
    collectView run v

end Mvc.Ensemble
