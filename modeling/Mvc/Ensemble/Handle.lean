import Mvc.Ensemble.Behaviour

/-! # Handles on subscriptions

Whoever subscribes to something holds a handle. When the handle goes, the subscription ends,
unless it has ended before or the handle was told to forget it.
-/

namespace Mvc

variable {σ ε : Type}

/-- A handle on a subscription. -/
structure Handle (σ : Type) where
  /-- What is undone when the handle goes. -/
  detach : Option (Subscription σ)

namespace Handle

/-- A handle on a new subscription. -/
def new (subscription : Subscription σ) : Handle σ := ⟨some subscription⟩

/-- Undo what is to be undone, so that nothing is left of it. -/
def runDetach (h : Handle σ) : Client σ ε (Handle σ) :=
  match h.detach with
  | some subscription => do
    Program.perform (Action.release subscription)
    return ⟨none⟩
  | none => return h

/-- The handle goes. -/
def drop (h : Handle σ) : Client σ ε Unit := do
  let _ ← h.runDetach

/-- End the subscription. Then the handle goes. -/
def disconnect (h : Handle σ) : Client σ ε Unit := do
  let h ← h.runDetach
  h.drop

/-- Keep what was subscribed to. Then the handle goes. -/
def forget (h : Handle σ) : Client σ ε Unit := drop { h with detach := none }

/-- The diagnostic text. -/
def diagnostic (h : Handle σ) : String :=
  "Subscription \x7b active: " ++ boolText h.detach.isSome ++ " \x7d"

end Handle

end Mvc
