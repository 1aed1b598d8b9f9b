import Mvc.Error
import Mvc.Program
import Mvc.Ensemble.State

/-! # What clients can do and are asked to do

`Action` is the public interface of an ensemble; each action has a type of results. Client
code is a program over these actions. `Behaviour` holds all of it: the hooks of models and
controllers, what views do, and the code of slots, jobs and subscriptions. Hooks may
perform any action, on their own object too.
-/

namespace Mvc

/-- What can be asked of an ensemble with client code `σ` and client state `ε`. -/
inductive Action (σ ε : Type) where
  /-- Connect a slot to a signal. -/
  | connect (signal : SignalRef) (slot : Slot σ) (delivery : Delivery)
  /-- Remove a connection. -/
  | disconnect (signal : SignalRef) (id : ConnectionId)
  /-- Remove all connections of a signal. -/
  | disconnectAll (signal : SignalRef)
  /-- Drop or pass what a signal emits. -/
  | block (signal : SignalRef) (blocked : Bool)
  /-- Emit a notice. -/
  | emit (signal : SignalRef) (notice : Notice)
  /-- Give up the owner of a signal. -/
  | close (signal : SignalRef)
  /-- End a subscription. -/
  | release (subscription : Subscription σ)
  /-- Queue client code. -/
  | post (dispatcher : Nat) (code : σ)
  /-- Run the waiting tasks, and those that they queue. -/
  | drain (dispatcher : Nat)
  /-- Run client code at once. -/
  | perform (code : σ)
  /-- Perform an action on a background thread and wait for it. -/
  | inBackground (action : Action σ ε)
  /-- Write a property to a model's store, with the model's hooks or without. -/
  | write (model : Nat) (hooked : Bool) (name : String) (value : Value)
  /-- Write a property of a model. -/
  | setProperty (model : Nat) (name : String) (value : Value)
  /-- Write a property without hooks and notices. -/
  | setSilently (model : Nat) (name : String) (value : Value)
  /-- Replace all properties without notices. -/
  | replaceAll (model : Nat) (pairs : List (String × Value))
  /-- Remove all properties without notices. -/
  | clear (model : Nat)
  /-- Fill a model with its defaults, once. -/
  | initializeModel (model : Nat)
  /-- Fill a model with its defaults again. -/
  | resetModel (model : Nat)
  /-- Bind a model to a controller. -/
  | setModel (controller : Nat) (model : Option Nat)
  /-- Bind a view to a controller. -/
  | setView (controller : Nat) (view : Option Nat)
  /-- Run a controller's setup, once. -/
  | initializeController (controller : Nat)
  /-- Handle a user action. -/
  | handleAction (controller : Nat) (name : String) (data : Value)
  /-- Show the bound view anew. -/
  | refresh (controller : Nat)
  /-- Enter the closing phase. -/
  | handleClosing (controller : Nat)
  /-- Report an error. -/
  | reportError (controller : Nat) (message : String)
  /-- Report a completed operation. -/
  | reportDone (controller : Nat) (message : String)
  /-- Give up the handle of a controller. -/
  | dropController (controller : Nat)
  /-- Run a view's setup, once. -/
  | initializeView (view : Nat)
  /-- Pass user actions on, or do not. -/
  | enable (view : Nat) (enabled : Bool)
  /-- Report a user action. -/
  | report (view : Nat) (name : String) (data : Value)
  /-- Announce that a view closes. -/
  | announceClosing (view : Nat)
  /-- Attach a view to a controller. -/
  | attach (view : Nat) (controller : Option Nat)
  /-- Show a view anew. -/
  | displayView (view : Nat)
  /-- Announce that an update is finished. -/
  | finishUpdate (view : Nat)
  /-- Show an error in a view. -/
  | showError (view : Nat) (message : String)
  /-- Show a message in a view. -/
  | showInfo (view : Nat) (message : String)
  /-- Give up the handle of a view. -/
  | dropView (view : Nat)
  /-- Change the client's own state. -/
  | change (f : ε → ε)

namespace Action

variable {σ ε : Type}

/-- The type of an action's result. -/
@[reducible] def Result : Action σ ε → Type
  | connect .. => ConnectionId
  | disconnect .. => Bool
  | drain .. => Nat
  | inBackground a => a.Result
  | write .. => SetOutcome
  | setProperty .. => SetOutcome
  | initializeModel .. => Except ModelError Unit
  | resetModel .. => Except ModelError Unit
  | initializeController .. => Except ControllerError Unit
  | initializeView .. => Except ViewError Unit
  | _ => Unit

end Action

/-- Client code with a result of type `ρ`. -/
abbrev Client (σ ε ρ : Type) := Program (Ensemble σ ε) (Action.Result (σ := σ) (ε := ε)) ρ

/-- Everything that clients bring along. -/
structure Behaviour (σ ε : Type) where
  /-- Whether a model takes a value for a property. -/
  accepts : (model : Nat) → String → Value → Client σ ε Bool
  /-- A model's reaction to a change, before anyone else hears of it. -/
  afterSet : (model : Nat) → (name : String) → (old new : Value) → Client σ ε Unit
  /-- The defaults of a model. -/
  populate : (model : Nat) → Client σ ε (Except ModelError (List (String × Value)))
  /-- Whether a model's properties make sense. -/
  validates : (model : Nat) → Store → Bool
  /-- A controller's setup. -/
  setup : (controller : Nat) → Client σ ε (Except ControllerError Unit)
  /-- What a controller subscribes to for a bound pair of model and view. -/
  connect : (controller : Nat) → Client σ ε (List (Subscription σ))
  /-- Whether a controller handles a user action by itself. -/
  handles : (controller : Nat) → String → Value → Client σ ε Bool
  /-- Whether an initialized controller counts as valid. -/
  isValid : (controller : Nat) → Ensemble σ ε → Bool
  /-- What a controller derives from its model before its view is shown anew. -/
  derive : (controller : Nat) → Client σ ε Unit
  /-- A controller's reaction to a change of its model. -/
  dataChanged : (controller : Nat) → Client σ ε Unit
  /-- A controller's reaction to a finished update of its view. -/
  updateRequested : (controller : Nat) → Client σ ε Unit
  /-- What a controller does before it enters the closing phase. -/
  closing : (controller : Nat) → Client σ ε Unit
  /-- A view's setup. -/
  viewSetup : (view : Nat) → Client σ ε (Except ViewError Unit)
  /-- How a view shows its content anew. -/
  display : (view : Nat) → Client σ ε Unit
  /-- How a view shows an error. -/
  showError : (view : Nat) → String → Client σ ε Unit
  /-- How a view shows a message. -/
  showInfo : (view : Nat) → String → Client σ ε Unit
  /-- The code of a slot. -/
  slot : σ → Notice → Client σ ε Unit
  /-- The code of a job or of the end of a subscription. -/
  job : σ → Client σ ε Unit

namespace Behaviour

variable {σ ε : Type}

/-- Models that take everything, controllers that show their view anew when the model
    changes, and views that show nothing. -/
def plain : Behaviour σ ε where
  accepts _ _ _ := pure true
  afterSet _ _ _ _ := pure ()
  populate _ := pure (.ok [])
  validates _ _ := true
  setup _ := pure (.ok ())
  connect _ := pure []
  handles _ _ _ := pure false
  isValid c w := (w.controller c).model.isSome && (w.controller c).view.isSome
  derive _ := pure ()
  dataChanged c := .perform (Action.refresh c)
  updateRequested _ := pure ()
  closing _ := pure ()
  viewSetup _ := pure (.ok ())
  display _ := pure ()
  showError _ _ := pure ()
  showInfo _ _ := pure ()
  slot _ _ := pure ()
  job _ := pure ()

end Behaviour

/-- What an ensemble runs: client code behind a connection or in a queue, or an action. -/
inductive Call (σ ε : Type) where
  | slot (slot : Slot σ) (notice : Notice)
  | task (task : Task σ)
  | subscription (code : σ)
  | action (action : Action σ ε)

/-- The type of a call's result. -/
@[reducible] def Call.Result {σ ε : Type} : Call σ ε → Type
  | action a => a.Result
  | _ => Unit

/-- A way to run calls. The operations of an ensemble are given one for the calls that they
    set off, so none of them is recursive. -/
abbrev Runner (σ ε : Type) := (call : Call σ ε) → Proc (Ensemble σ ε) call.Result

/-- Run client code. -/
def Runner.client {σ ε ρ : Type} (run : Runner σ ε) (code : Client σ ε ρ) :
    Proc (Ensemble σ ε) ρ :=
  code.run fun a => run (.action a)

end Mvc
