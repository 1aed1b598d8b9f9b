import Mvc.Dispatcher
import Mvc.Family
import Mvc.Signal.Basic
import Mvc.Store

/-! # The state of an ensemble

Models hold properties, views show them, and a controller connects one model with one view.
The three know each other through signals: a controller listens to its model and its view,
and a view listens to the controller that it is attached to. Objects are named by numbers.

Controllers and views live as long as somebody holds them: the client by a handle, a call
in progress by a pin, and for a view also every living controller that it is bound to.
Models need no such bookkeeping, since nothing happens when one goes.

`σ` names the client's code: slots, jobs for a dispatcher, and what is done when a
subscription ends. `ε` is the client's own state.
-/

namespace Mvc

/-- The lifecycle of a controller. -/
inductive Phase where
  /-- A model or a view is missing. -/
  | unbound
  /-- Model and view are there, setup is not done. -/
  | bound
  /-- Setup is done. -/
  | initialized
  /-- The view has announced that it closes. -/
  | viewClosing
  deriving DecidableEq, Repr

/-- The name of a phase. -/
def Phase.name : Phase → String
  | .unbound => "Unbound"
  | .bound => "Bound"
  | .initialized => "Initialized"
  | .viewClosing => "ViewClosing"

/-- What a signal carries. -/
inductive Notice where
  /-- A property has a new value. -/
  | property (name : String) (value : Value)
  /-- Some property changed, or all of them. -/
  | dataChanged
  /-- Whether a model is valid now. -/
  | validity (valid : Bool)
  /-- The user asked for an action. -/
  | action (name : String) (data : Value)
  /-- A view is about to close. -/
  | closing
  /-- A view has finished an update. -/
  | updateRequested
  /-- The phase that a controller is in now. -/
  | phase (phase : Phase)
  /-- A message. -/
  | text (message : String)
  /-- A flag. -/
  | flag (value : Bool)
  /-- A number. -/
  | number (value : Int64)
  /-- Nothing but the fact. -/
  | plain

/-- Names a signal. -/
inductive SignalRef where
  | modelProperty (model : Nat)
  | modelData (model : Nat)
  | modelValidity (model : Nat)
  | viewAction (view : Nat)
  | viewClosing (view : Nat)
  | viewUpdate (view : Nat)
  | controllerPhase (controller : Nat)
  | controllerError (controller : Nat)
  | controllerDone (controller : Nat)
  /-- A signal of the client's own. -/
  | channel (number : Nat)
  deriving DecidableEq, Repr

/-- What runs when a connection is served. -/
inductive Slot (σ : Type) where
  /-- A controller hears that its model changed. -/
  | controllerData (controller : Nat)
  /-- A controller hears of a user action on its view. -/
  | controllerAction (controller : Nat)
  /-- A controller hears that its view closes. -/
  | controllerClosing (controller : Nat)
  /-- A controller hears that its view finished an update. -/
  | controllerUpdate (controller : Nat)
  /-- A view shows an error of its controller. -/
  | viewError (view : Nat)
  /-- A view shows what its controller completed. -/
  | viewInfo (view : Nat)
  /-- A view follows the phase of its controller. -/
  | viewPhase (view : Nat)
  /-- Client code. -/
  | client (code : σ)
  deriving DecidableEq

/-- What is undone when a subscription ends. -/
inductive Subscription (σ : Type) where
  /-- A connection is removed. -/
  | connection (signal : SignalRef) (id : ConnectionId)
  /-- Client code runs. -/
  | client (code : σ)
  deriving DecidableEq

/-- A task in the queue of a dispatcher. -/
inductive Task (σ : Type) where
  /-- Serve a connection, if it is still there. -/
  | delivery (signal : SignalRef) (id : ConnectionId) (slot : Slot σ) (notice : Notice)
  /-- Client code. -/
  | client (code : σ)

/-- A model: its properties and their lifecycle. -/
structure Model (σ : Type) where
  store : Store
  initialized : Bool
  propertyChanged : Signal (Slot σ)
  dataChanged : Signal (Slot σ)
  validityChanged : Signal (Slot σ)

instance {σ : Type} : Inhabited (Model σ) := ⟨⟨.empty, false, .new, .new, .new⟩⟩

/-- The name of the state that a model is in. -/
def Model.stateName {σ : Type} (o : Model σ) : String :=
  if o.initialized then "Initialized" else "Uninitialized"

/-- The diagnostic text of a model. -/
def Model.diagnostic {σ : Type} (o : Model σ) : String :=
  "Model \x7b state: " ++ o.stateName ++ ", properties: " ++ toString o.store.size ++ " \x7d"

/-- A view's link to its controller. -/
structure Attachment (σ : Type) where
  controller : Nat
  subscriptions : List (Subscription σ)

/-- A view, apart from what it looks like. -/
structure View (σ : Type) where
  /-- Whether the client has a handle. -/
  held : Bool
  /-- How many calls in progress hold it. -/
  pins : Nat
  initialized : Bool
  /-- Whether user actions are passed on. -/
  enabled : Bool
  /-- Whether it has announced that it closes. -/
  closing : Bool
  attachment : Option (Attachment σ)
  userAction : Signal (Slot σ)
  viewClosing : Signal (Slot σ)
  viewUpdate : Signal (Slot σ)

instance {σ : Type} : Inhabited (View σ) :=
  ⟨⟨true, 0, false, true, false, none, .new, .new, .new⟩⟩

/-- A controller. -/
structure Controller (σ : Type) where
  /-- Whether the client has a handle. -/
  held : Bool
  /-- How many calls in progress hold it. -/
  pins : Nat
  /-- The dispatcher by which changes of the model come, if they are not taken directly. -/
  dispatcher : Option Nat
  model : Option Nat
  view : Option Nat
  initialized : Bool
  closing : Bool
  modelSubscriptions : List (Subscription σ)
  viewSubscriptions : List (Subscription σ)
  /-- What the client subscribed to for the bound pair of model and view. -/
  bindings : List (Subscription σ)
  phaseChanged : Signal (Slot σ)
  errorOccurred : Signal (Slot σ)
  operationCompleted : Signal (Slot σ)

instance {σ : Type} : Inhabited (Controller σ) :=
  ⟨⟨true, 0, none, none, none, false, false, [], [], [], .new, .new, .new⟩⟩

/-- The phase of a controller. -/
def Controller.phase {σ : Type} (c : Controller σ) : Phase :=
  if c.closing then .viewClosing
  else if c.initialized then .initialized
  else if c.model.isSome && c.view.isSome then .bound
  else .unbound

/-- A truth value as text. -/
def boolText (b : Bool) : String := if b then "true" else "false"

/-- The diagnostic text of a controller. -/
def Controller.diagnostic {σ : Type} (c : Controller σ) : String :=
  "Controller \x7b state: " ++ c.phase.name ++ ", has_model: " ++ boolText c.model.isSome ++
    ", has_view: " ++ boolText c.view.isSome ++ ", bindings: " ++ toString c.bindings.length ++
    ", dispatched: " ++ boolText c.dispatcher.isSome ++ " \x7d"

/-- Whether somebody holds a controller. -/
def Controller.isAlive {σ : Type} (c : Controller σ) : Bool := c.held || c.pins > 0

/-- The threads of a program, as far as a dispatcher tells them apart. -/
inductive Thread where
  /-- The one that owns the dispatchers. -/
  | presentation
  /-- Any other. -/
  | background
  deriving DecidableEq, Repr

/-- All objects, and where the program stands. -/
structure Ensemble (σ ε : Type) where
  /-- The running thread. -/
  thread : Thread
  models : Family (Model σ)
  views : Family (View σ)
  controllers : Family (Controller σ)
  dispatchers : Family (Dispatcher (Task σ))
  /-- The client's own signals. -/
  channels : Family (Signal (Slot σ))
  /-- The client's own state. -/
  client : ε

namespace Ensemble

variable {σ ε : Type}

/-- An ensemble with new objects only. -/
def new (client : ε) : Ensemble σ ε :=
  ⟨.presentation, .empty, .empty, .empty, .empty, .empty, client⟩

/-- A model. -/
def model (w : Ensemble σ ε) (m : Nat) : Model σ := w.models.get m

/-- A view. -/
def view (w : Ensemble σ ε) (v : Nat) : View σ := w.views.get v

/-- A controller. -/
def controller (w : Ensemble σ ε) (c : Nat) : Controller σ := w.controllers.get c

/-- A dispatcher. -/
def dispatcher (w : Ensemble σ ε) (d : Nat) : Dispatcher (Task σ) := w.dispatchers.get d

/-- Change a model. -/
def updateModel (m : Nat) (f : Model σ → Model σ) (w : Ensemble σ ε) : Ensemble σ ε :=
  { w with models := w.models.set m (f (w.model m)) }

/-- Change a view. -/
def updateView (v : Nat) (f : View σ → View σ) (w : Ensemble σ ε) : Ensemble σ ε :=
  { w with views := w.views.set v (f (w.view v)) }

/-- Change a controller. -/
def updateController (c : Nat) (f : Controller σ → Controller σ) (w : Ensemble σ ε) :
    Ensemble σ ε :=
  { w with controllers := w.controllers.set c (f (w.controller c)) }

/-- Change a dispatcher. -/
def updateDispatcher (d : Nat) (f : Dispatcher (Task σ) → Dispatcher (Task σ)) (w : Ensemble σ ε) :
    Ensemble σ ε :=
  { w with dispatchers := w.dispatchers.set d (f (w.dispatcher d)) }

/-- A signal. -/
def signal (w : Ensemble σ ε) : SignalRef → Signal (Slot σ)
  | .modelProperty m => (w.model m).propertyChanged
  | .modelData m => (w.model m).dataChanged
  | .modelValidity m => (w.model m).validityChanged
  | .viewAction v => (w.view v).userAction
  | .viewClosing v => (w.view v).viewClosing
  | .viewUpdate v => (w.view v).viewUpdate
  | .controllerPhase c => (w.controller c).phaseChanged
  | .controllerError c => (w.controller c).errorOccurred
  | .controllerDone c => (w.controller c).operationCompleted
  | .channel k => w.channels.get k

/-- Replace a signal. -/
def setSignal (s : SignalRef) (x : Signal (Slot σ)) (w : Ensemble σ ε) : Ensemble σ ε :=
  match s with
  | .modelProperty m => w.updateModel m fun o => { o with propertyChanged := x }
  | .modelData m => w.updateModel m fun o => { o with dataChanged := x }
  | .modelValidity m => w.updateModel m fun o => { o with validityChanged := x }
  | .viewAction v => w.updateView v fun o => { o with userAction := x }
  | .viewClosing v => w.updateView v fun o => { o with viewClosing := x }
  | .viewUpdate v => w.updateView v fun o => { o with viewUpdate := x }
  | .controllerPhase c => w.updateController c fun o => { o with phaseChanged := x }
  | .controllerError c => w.updateController c fun o => { o with errorOccurred := x }
  | .controllerDone c => w.updateController c fun o => { o with operationCompleted := x }
  | .channel k => { w with channels := w.channels.set k x }

/-- Whether a controller is alive. -/
def isControllerAlive (w : Ensemble σ ε) (c : Nat) : Bool := (w.controller c).isAlive

/-- Whether a living controller is bound to a view. -/
def isViewBound (w : Ensemble σ ε) (v : Nat) : Bool :=
  w.controllers.members.any fun (_, c) => c.isAlive && c.view == some v

/-- Whether somebody holds a view. -/
def isViewAlive (w : Ensemble σ ε) (v : Nat) : Bool :=
  (w.view v).held || (w.view v).pins > 0 || w.isViewBound v

/-- The controller that a view is attached to, if it is still alive. -/
def viewController? (w : Ensemble σ ε) (v : Nat) : Option Nat :=
  match (w.view v).attachment with
  | some a => if w.isControllerAlive a.controller then some a.controller else none
  | none => none

/-- The diagnostic text of a view. -/
def viewDiagnostic (w : Ensemble σ ε) (v : Nat) : String :=
  let o := w.view v
  "ViewBase \x7b initialized: " ++ boolText o.initialized ++ ", enabled: " ++ boolText o.enabled ++
    ", closing: " ++ boolText o.closing ++ ", has_controller: " ++
    boolText (w.viewController? v).isSome ++ " \x7d"

/-- The diagnostic text of a view's signals. -/
def viewSignalsDiagnostic (w : Ensemble σ ε) (v : Nat) : String :=
  let o := w.view v
  "ViewSignals \x7b user_action: " ++ o.userAction.diagnostic ++ ", view_closing: " ++
    o.viewClosing.diagnostic ++ ", view_update_requested: " ++ o.viewUpdate.diagnostic ++ " \x7d"

end Ensemble

end Mvc
