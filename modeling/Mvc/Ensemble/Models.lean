import Mvc.Ensemble.Emission

/-! # Writing to models

A write is checked by the model's hook, compared with the stored value, and stored. The
model reacts first, then the property's new value is announced, then that the data changed.
A write through the model also announces whether the model is valid now.

The defaults are determined before anything changes. If the model was initialized in the
meantime, by its own hook, they are dropped.
-/

namespace Mvc.Ensemble

variable {σ ε : Type} (run : Runner σ ε) (β : Behaviour σ ε)

/-- Replace the store of a model. -/
def updateStore (m : Nat) (f : Store → Store) (w : Ensemble σ ε) : Ensemble σ ε :=
  w.updateModel m fun o => { o with store := f o.store }

/-- Whether a model is initialized and its properties make sense. -/
def isModelValid (β : Behaviour σ ε) (w : Ensemble σ ε) (m : Nat) : Bool :=
  (w.model m).initialized && β.validates m (w.model m).store

/-- Write a property, with the model's hooks or without. -/
def write (m : Nat) (hooked : Bool) (name : String) (value : Value) :
    Proc (Ensemble σ ε) SetOutcome := do
  let accepted ← if hooked then run.client (β.accepts m name value) else pure true
  if !accepted then return .rejected
  let old := ((← get).model m).store.get name
  if old == value then return .unchanged
  modify (updateStore m fun s => s.write name value)
  if hooked then run.client (β.afterSet m name old value)
  emit run (.modelProperty m) (.property name value)
  emit run (.modelData m) .dataChanged
  return .changed

/-- Announce whether a model is valid now. -/
def emitValidity (m : Nat) : Proc (Ensemble σ ε) Unit := do
  emit run (.modelValidity m) (.validity (isModelValid β (← get) m))

/-- Write a property of a model. -/
def setProperty (m : Nat) (name : String) (value : Value) : Proc (Ensemble σ ε) SetOutcome := do
  let outcome ← write run β m true name value
  if outcome.isChanged then emitValidity run β m
  return outcome

/-- Announce that all properties may have changed. -/
def emitReloaded (m : Nat) : Proc (Ensemble σ ε) Unit := do
  emit run (.modelData m) .dataChanged
  emitValidity run β m

/-- Fill a model with its defaults, unless it is initialized. -/
def initializeModel (m : Nat) : Proc (Ensemble σ ε) (Except ModelError Unit) := do
  if ((← get).model m).initialized then return .ok ()
  match ← run.client (β.populate m) with
  | .error e => return .error e
  | .ok defaults =>
    if ((← get).model m).initialized then return .ok ()
    modify (updateModel m fun o => { o with store := .ofPairs defaults, initialized := true })
    emitReloaded run β m
    return .ok ()

/-- Fill a model with its defaults again. -/
def resetModel (m : Nat) : Proc (Ensemble σ ε) (Except ModelError Unit) := do
  match ← run.client (β.populate m) with
  | .error e => return .error e
  | .ok defaults =>
    modify (updateStore m fun _ => .ofPairs defaults)
    emitReloaded run β m
    return .ok ()

end Mvc.Ensemble
