import Mvc.Ensemble.State

/-! # The parts of an ensemble after a change

Changing one object leaves the others as they are, and replacing a signal leaves everything
of its owner as it is but this signal.
-/

namespace Mvc

/-- A model apart from its signals. -/
def Model.silent {σ : Type} (o : Model σ) : Model σ :=
  { o with propertyChanged := .new, dataChanged := .new, validityChanged := .new }

/-- A view apart from its signals. -/
def View.silent {σ : Type} (o : View σ) : View σ :=
  { o with userAction := .new, viewClosing := .new, viewUpdate := .new }

/-- A controller apart from its signals. -/
def Controller.silent {σ : Type} (o : Controller σ) : Controller σ :=
  { o with phaseChanged := .new, errorOccurred := .new, operationCompleted := .new }

theorem Controller.phase_eq_viewClosing {σ : Type} {o : Controller σ} :
    o.phase = .viewClosing ↔ o.closing = true := by
  cases closing : o.closing with
  | true => simp [phase, closing]
  | false =>
      simp only [phase, closing]
      cases o.initialized <;> cases o.model.isSome && o.view.isSome <;> simp

/-- An object is a new one or a listed one. -/
theorem Family.get_cases {β : Type} [Inhabited β] (f : Family β) (i : Nat) :
    f.get i = default ∨ (i, f.get i) ∈ f.members := by
  obtain ⟨members⟩ := f
  simp only [get]
  induction members with
  | nil => exact .inl rfl
  | cons first rest ih =>
      obtain ⟨j, b⟩ := first
      simp only [lookup]
      split
      · next same => exact .inr (by simp [same])
      · exact ih.imp_right fun member => List.mem_cons_of_mem _ member

namespace Ensemble

variable {σ ε : Type} (w : Ensemble σ ε)

/-- A view that nobody holds is not bound to a living controller. -/
theorem view_ne_of_dead {v c : Nat} (dead : w.isViewAlive v = false)
    (alive : w.isControllerAlive c = true) : (w.controller c).view ≠ some v := by
  intro bound
  have unbound : w.isViewBound v = false := by
    simp only [isViewAlive, Bool.or_eq_false_iff] at dead
    exact dead.2
  rcases w.controllers.get_cases c with new | listed
  · rw [controller, new] at bound
    cases bound
  · have := List.any_eq_false.mp unbound _ listed
    simp only [isControllerAlive, controller] at alive bound
    simp [alive, bound] at this

section Model

variable (m : Nat) (f : Model σ → Model σ)

theorem model_updateModel (n : Nat) :
    (updateModel m f w).model n = if n = m then f (w.model m) else w.model n :=
  w.models.get_set m n (f (w.model m))

@[simp] theorem view_updateModel (v : Nat) : (updateModel m f w).view v = w.view v := rfl

@[simp] theorem controller_updateModel (c : Nat) :
    (updateModel m f w).controller c = w.controller c := rfl

@[simp] theorem dispatcher_updateModel (d : Nat) :
    (updateModel m f w).dispatcher d = w.dispatcher d := rfl

@[simp] theorem client_updateModel : (updateModel m f w).client = w.client := rfl

@[simp] theorem thread_updateModel : (updateModel m f w).thread = w.thread := rfl

end Model

section View

variable (v : Nat) (f : View σ → View σ)

theorem view_updateView (u : Nat) :
    (updateView v f w).view u = if u = v then f (w.view v) else w.view u :=
  w.views.get_set v u (f (w.view v))

@[simp] theorem view_updateView_self : (updateView v f w).view v = f (w.view v) := by
  rw [view_updateView, if_pos rfl]

theorem view_updateView_ne {u : Nat} (other : u ≠ v) :
    (updateView v f w).view u = w.view u := by
  rw [view_updateView, if_neg other]

/-- What does not look at the change sees none. -/
theorem blind_updateView {α : Type} (g : View σ → α) (blind : ∀ o, g (f o) = g o) (u : Nat) :
    g ((updateView v f w).view u) = g (w.view u) := by
  rw [view_updateView]
  split
  · next same => rw [same, blind]
  · rfl

@[simp] theorem model_updateView (m : Nat) : (updateView v f w).model m = w.model m := rfl

@[simp] theorem controller_updateView (c : Nat) :
    (updateView v f w).controller c = w.controller c := rfl

@[simp] theorem dispatcher_updateView (d : Nat) :
    (updateView v f w).dispatcher d = w.dispatcher d := rfl

@[simp] theorem client_updateView : (updateView v f w).client = w.client := rfl

@[simp] theorem thread_updateView : (updateView v f w).thread = w.thread := rfl

end View

section Controller

variable (c : Nat) (f : Controller σ → Controller σ)

theorem controller_updateController (b : Nat) :
    (updateController c f w).controller b =
      if b = c then f (w.controller c) else w.controller b :=
  w.controllers.get_set c b (f (w.controller c))

@[simp] theorem controller_updateController_self :
    (updateController c f w).controller c = f (w.controller c) := by
  rw [controller_updateController, if_pos rfl]

theorem controller_updateController_ne {b : Nat} (other : b ≠ c) :
    (updateController c f w).controller b = w.controller b := by
  rw [controller_updateController, if_neg other]

/-- What does not look at the change sees none. -/
theorem blind_updateController {α : Type} (g : Controller σ → α) (blind : ∀ o, g (f o) = g o)
    (b : Nat) : g ((updateController c f w).controller b) = g (w.controller b) := by
  rw [controller_updateController]
  split
  · next same => rw [same, blind]
  · rfl

@[simp] theorem model_updateController (m : Nat) :
    (updateController c f w).model m = w.model m := rfl

@[simp] theorem view_updateController (v : Nat) :
    (updateController c f w).view v = w.view v := rfl

@[simp] theorem dispatcher_updateController (d : Nat) :
    (updateController c f w).dispatcher d = w.dispatcher d := rfl

@[simp] theorem client_updateController : (updateController c f w).client = w.client := rfl

@[simp] theorem thread_updateController : (updateController c f w).thread = w.thread := rfl

end Controller

section Dispatcher

variable (d : Nat) (f : Dispatcher (Task σ) → Dispatcher (Task σ))

theorem dispatcher_updateDispatcher (e : Nat) :
    (updateDispatcher d f w).dispatcher e =
      if e = d then f (w.dispatcher d) else w.dispatcher e :=
  w.dispatchers.get_set d e (f (w.dispatcher d))

@[simp] theorem model_updateDispatcher (m : Nat) :
    (updateDispatcher d f w).model m = w.model m := rfl

@[simp] theorem view_updateDispatcher (v : Nat) :
    (updateDispatcher d f w).view v = w.view v := rfl

@[simp] theorem controller_updateDispatcher (c : Nat) :
    (updateDispatcher d f w).controller c = w.controller c := rfl

@[simp] theorem signal_updateDispatcher (s : SignalRef) :
    (updateDispatcher d f w).signal s = w.signal s := by
  cases s <;> rfl

@[simp] theorem client_updateDispatcher : (updateDispatcher d f w).client = w.client := rfl

@[simp] theorem thread_updateDispatcher : (updateDispatcher d f w).thread = w.thread := rfl

end Dispatcher

/-! ## Signals -/

/-- A change of a model that spares its signals spares all signals. -/
theorem signal_updateModel (m : Nat) {f : Model σ → Model σ}
    (spared : ∀ o, (f o).propertyChanged = o.propertyChanged ∧
      (f o).dataChanged = o.dataChanged ∧ (f o).validityChanged = o.validityChanged)
    (s : SignalRef) : (updateModel m f w).signal s = w.signal s := by
  cases s with
  | modelProperty n | modelData n | modelValidity n =>
      simp only [signal, model_updateModel]
      split
      · next same => simp [same, spared]
      · rfl
  | _ => rfl

/-- A change of a view that spares its signals spares all signals. -/
theorem signal_updateView (v : Nat) {f : View σ → View σ}
    (spared : ∀ o, (f o).userAction = o.userAction ∧
      (f o).viewClosing = o.viewClosing ∧ (f o).viewUpdate = o.viewUpdate)
    (s : SignalRef) : (updateView v f w).signal s = w.signal s := by
  cases s with
  | viewAction u | viewClosing u | viewUpdate u =>
      simp only [signal, view_updateView]
      split
      · next same => simp [same, spared]
      · rfl
  | _ => rfl

/-- A change of a controller that spares its signals spares all signals. -/
theorem signal_updateController (c : Nat) {f : Controller σ → Controller σ}
    (spared : ∀ o, (f o).phaseChanged = o.phaseChanged ∧
      (f o).errorOccurred = o.errorOccurred ∧ (f o).operationCompleted = o.operationCompleted)
    (s : SignalRef) : (updateController c f w).signal s = w.signal s := by
  cases s with
  | controllerPhase b | controllerError b | controllerDone b =>
      simp only [signal, controller_updateController]
      split
      · next same => simp [same, spared]
      · rfl
  | _ => rfl

theorem signal_setSignal (s : SignalRef) (x : Signal (Slot σ)) (t : SignalRef) :
    (setSignal s x w).signal t = if t = s then x else w.signal t := by
  cases s <;> cases t <;>
    simp only [setSignal, signal, model_updateModel, view_updateModel, controller_updateModel,
      model_updateView, view_updateView, controller_updateView, model_updateController,
      view_updateController, controller_updateController, Family.get_set,
      SignalRef.modelProperty.injEq, SignalRef.modelData.injEq, SignalRef.modelValidity.injEq,
      SignalRef.viewAction.injEq, SignalRef.viewClosing.injEq, SignalRef.viewUpdate.injEq,
      SignalRef.controllerPhase.injEq, SignalRef.controllerError.injEq,
      SignalRef.controllerDone.injEq, SignalRef.channel.injEq, reduceCtorEq, if_false] <;>
    first
      | rfl
      | (split
         · simp [*]
         · rfl)

theorem model_setSignal (s : SignalRef) (x : Signal (Slot σ)) (m : Nat) :
    ((setSignal s x w).model m).silent = (w.model m).silent := by
  cases s with
  | modelProperty n | modelData n | modelValidity n =>
      simp only [setSignal, model_updateModel]
      split
      · next same => rw [same]; rfl
      · rfl
  | _ => rfl

theorem view_setSignal (s : SignalRef) (x : Signal (Slot σ)) (v : Nat) :
    ((setSignal s x w).view v).silent = (w.view v).silent := by
  cases s with
  | viewAction u | viewClosing u | viewUpdate u =>
      simp only [setSignal, view_updateView]
      split
      · next same => rw [same]; rfl
      · rfl
  | _ => rfl

theorem controller_setSignal (s : SignalRef) (x : Signal (Slot σ)) (c : Nat) :
    ((setSignal s x w).controller c).silent = (w.controller c).silent := by
  cases s with
  | controllerPhase b | controllerError b | controllerDone b =>
      simp only [setSignal, controller_updateController]
      split
      · next same => rw [same]; rfl
      · rfl
  | _ => rfl

@[simp] theorem thread_setSignal (s : SignalRef) (x : Signal (Slot σ)) :
    (setSignal s x w).thread = w.thread := by
  cases s <;> rfl

@[simp] theorem dispatcher_setSignal (s : SignalRef) (x : Signal (Slot σ)) (d : Nat) :
    (setSignal s x w).dispatcher d = w.dispatcher d := by
  cases s <;> rfl

@[simp] theorem client_setSignal (s : SignalRef) (x : Signal (Slot σ)) :
    (setSignal s x w).client = w.client := by
  cases s <;> rfl

theorem signal_setThread (thread : Thread) (s : SignalRef) :
    ({ w with thread } : Ensemble σ ε).signal s = w.signal s := by
  cases s <;> rfl

theorem signal_setClient (client : ε) (s : SignalRef) :
    ({ w with client } : Ensemble σ ε).signal s = w.signal s := by
  cases s <;> rfl

/-! ## Changes of signals only -/

/-- Nothing but signals differs. -/
structure OnlySignals (w w' : Ensemble σ ε) : Prop where
  model : ∀ m, (w'.model m).silent = (w.model m).silent
  view : ∀ v, (w'.view v).silent = (w.view v).silent
  controller : ∀ c, (w'.controller c).silent = (w.controller c).silent
  dispatcher : ∀ d, w'.dispatcher d = w.dispatcher d
  thread : w'.thread = w.thread
  client : w'.client = w.client

namespace OnlySignals

variable {w} {w' w'' : Ensemble σ ε}

theorem refl (w : Ensemble σ ε) : OnlySignals w w :=
  ⟨fun _ => rfl, fun _ => rfl, fun _ => rfl, fun _ => rfl, rfl, rfl⟩

theorem trans (first : OnlySignals w w') (second : OnlySignals w' w'') : OnlySignals w w'' where
  model m := (second.model m).trans (first.model m)
  view v := (second.view v).trans (first.view v)
  controller c := (second.controller c).trans (first.controller c)
  dispatcher d := (second.dispatcher d).trans (first.dispatcher d)
  thread := second.thread.trans first.thread
  client := second.client.trans first.client

theorem setSignal (w : Ensemble σ ε) (s : SignalRef) (x : Signal (Slot σ)) :
    OnlySignals w (setSignal s x w) where
  model := model_setSignal w s x
  view := view_setSignal w s x
  controller := controller_setSignal w s x
  dispatcher := dispatcher_setSignal w s x
  thread := thread_setSignal w s x
  client := client_setSignal w s x

/-- What does not look at the signals of a controller is the same. -/
theorem of_controller (only : OnlySignals w w') {α : Type} (f : Controller σ → α)
    (deaf : ∀ o, f o.silent = f o) (c : Nat) : f (w'.controller c) = f (w.controller c) := by
  rw [← deaf, only.controller, deaf]

/-- What does not look at the signals of a view is the same. -/
theorem of_view (only : OnlySignals w w') {α : Type} (f : View σ → α)
    (deaf : ∀ o, f o.silent = f o) (v : Nat) : f (w'.view v) = f (w.view v) := by
  rw [← deaf, only.view, deaf]

end OnlySignals

end Ensemble

end Mvc
