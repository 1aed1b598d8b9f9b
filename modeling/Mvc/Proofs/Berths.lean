import Mvc.Proofs.Showing
import Mvc.Proofs.Topology
import Mvc.Proofs.Tying

/-! # Bound views that hear of everything

An application is manned if everybody has a handle, its signals pass on what they are told, all
connections are of the kinds that it makes, and views that are set up know the model. It is berthed
if it is wired as well, and the bound view is attached to the controller and set up together with
it. Then a connection tells the controller of the model, and another one tells the view of the
controller's phase.

Binding and connecting cut lines and plug others, and nothing else (`Relined`). So they leave an
application berthed, as steps do by which nothing is bound.
-/

namespace Mvc.App

open Ensemble Proc

variable {w w₁ w' : Whole} {n : Nat}

/-! ## Cutting and plugging -/

/-- Lines were cut and plugged; who is there, what is known and what waits is the same. -/
structure Relined (w w' : Whole) : Prop where
  client : w'.client = w.client
  store : properties w' = properties w
  waits : queue w' = queue w
  controllers : ∀ c, (w'.controller c).held = (w.controller c).held ∧
    (w'.controller c).dispatcher = (w.controller c).dispatcher
  views : ∀ v, (w'.view v).held = (w.view v).held ∧
    (w'.view v).initialized = (w.view v).initialized
  closed : ∀ s, (w'.signal s).closed = (w.signal s).closed
  blocked : ∀ s, (w'.signal s).blocked = (w.signal s).blocked
  fits : ∀ s id k, (w'.signal s).registry.get? id = some k →
    (w.signal s).registry.get? id = some k ∨ Fits w s k

namespace Relined

theorem refl (w : Whole) : Relined w w :=
  ⟨rfl, rfl, rfl, fun _ => ⟨rfl, rfl⟩, fun _ => ⟨rfl, rfl⟩, fun _ => rfl, fun _ => rfl,
    fun _ _ _ => .inl⟩

theorem delivery (relined : Relined w w') :
    modelDelivery w' controller = modelDelivery w controller :=
  delivery_of_dispatcher (relined.controllers controller).2

theorem trans (first : Relined w w₁) (second : Relined w₁ w') : Relined w w' where
  client := second.client.trans first.client
  store := second.store.trans first.store
  waits := second.waits.trans first.waits
  controllers c := ⟨(second.controllers c).1.trans (first.controllers c).1,
    (second.controllers c).2.trans (first.controllers c).2⟩
  views v := ⟨(second.views v).1.trans (first.views v).1,
    (second.views v).2.trans (first.views v).2⟩
  closed s := (second.closed s).trans (first.closed s)
  blocked s := (second.blocked s).trans (first.blocked s)
  fits s id k named := by
    rcases second.fits s id k named with before | fits
    · exact first.fits s id k before
    · exact .inr (fits_of_delivery first.delivery.symm fits)

theorem of_onlySignals (only : OnlySignals w w')
    (closed : ∀ s, (w'.signal s).closed = (w.signal s).closed)
    (blocked : ∀ s, (w'.signal s).blocked = (w.signal s).blocked)
    (fits : ∀ s id k, (w'.signal s).registry.get? id = some k →
      (w.signal s).registry.get? id = some k ∨ Fits w s k) : Relined w w' where
  client := only.client
  store := (congrArg Model.store (only.model model) : _)
  waits := congrArg (·.queue) (only.dispatcher dispatcher)
  controllers c := ⟨only.of_controller (·.held) (fun _ => rfl) c,
    only.of_controller (·.dispatcher) (fun _ => rfl) c⟩
  views v := ⟨only.of_view (·.held) (fun _ => rfl) v, only.of_view (·.initialized) (fun _ => rfl) v⟩
  closed := closed
  blocked := blocked
  fits := fits

theorem updateController (c : Nat) {f : Controller Code → Controller Code}
    (signals : ∀ o, (f o).phaseChanged = o.phaseChanged ∧ (f o).errorOccurred = o.errorOccurred ∧
      (f o).operationCompleted = o.operationCompleted)
    (stands : ∀ o, (f o).held = o.held ∧ (f o).dispatcher = o.dispatcher) :
    Relined w (updateController c f w) := by
  have kept := signal_updateController w c signals
  refine ⟨rfl, rfl, rfl, fun b => ⟨?_, ?_⟩, fun _ => ⟨rfl, rfl⟩, fun s => by rw [kept],
    fun s => by rw [kept], fun s id k named => .inl (by rwa [kept] at named)⟩
  · exact blind_updateController w c f (·.held) (fun o => (stands o).1) b
  · exact blind_updateController w c f (·.dispatcher) (fun o => (stands o).2) b

theorem updateView (v : Nat) {f : View Code → View Code}
    (signals : ∀ o, (f o).userAction = o.userAction ∧ (f o).viewClosing = o.viewClosing ∧
      (f o).viewUpdate = o.viewUpdate)
    (stands : ∀ o, (f o).held = o.held ∧ (f o).initialized = o.initialized) :
    Relined w (updateView v f w) := by
  have kept := signal_updateView w v signals
  refine ⟨rfl, rfl, rfl, fun _ => ⟨rfl, rfl⟩, fun u => ⟨?_, ?_⟩, fun s => by rw [kept],
    fun s => by rw [kept], fun s id k named => .inl (by rwa [kept] at named)⟩
  · exact blind_updateView w v f (·.held) (fun o => (stands o).1) u
  · exact blind_updateView w v f (·.initialized) (fun o => (stands o).2) u

theorem cut (line : Subscription Code) : Relined w (cut line w) := by
  cases line with
  | client code => exact .refl w
  | connection t i =>
      refine of_onlySignals (onlySignals_cut _ w) (closed_cut _ w) (fun s => ?_) fun s id k named => ?_
      · simp only [Ensemble.cut, signal_setSignal]
        split
        · next same => rw [same]; rfl
        · rfl
      · simp only [Ensemble.cut, signal_setSignal] at named
        split at named
        · next same =>
            simp only [Signal.disconnect, Registry.get?_erase] at named
            split at named
            · cases named
            · exact .inl (same ▸ named)
        · exact .inl named

theorem cutAll (lines : List (Subscription Code)) : Relined w (cutAll lines w) := by
  induction lines generalizing w with
  | nil => exact .refl w
  | cons line rest ih => exact (cut line).trans ih

theorem plug {d : Delivery} {port : SignalRef × Slot Code} (sound : (w.signal port.1).Sound)
    (fits : Fits w port.1 ⟨port.2, d⟩) : Relined w (plug d port w).2 := by
  refine of_onlySignals (onlySignals_plug d port w) (closed_plug d port w) (fun s => ?_)
    fun s id k named => ?_
  · simp only [Ensemble.plug, signal_setSignal]
    split
    · next same =>
        rw [same, Signal.connect]
        split <;> rfl
    · rfl
  · simp only [Ensemble.plug, signal_setSignal] at named
    split at named
    · next same =>
        subst same
        cases closed : (w.signal port.1).closed with
        | true => exact .inl (by rwa [Signal.connect_of_closed closed] at named)
        | false =>
            rw [Signal.connect_of_open closed] at named
            simp only [Registry.get?_insert sound.registry] at named
            split at named
            · cases named
              exact .inr fits
            · exact .inl named
    · exact .inl named

theorem plugAll {d : Delivery} {ports : List (SignalRef × Slot Code)}
    (sound : ∀ s, (w.signal s).Sound) (fits : ∀ port ∈ ports, Fits w port.1 ⟨port.2, d⟩) :
    Relined w (plugAll d ports w).2 := by
  induction ports generalizing w with
  | nil => exact .refl w
  | cons port rest ih =>
      have first := plug (sound port.1) (fits port List.mem_cons_self)
      refine first.trans (ih (sound_plug d port w sound) fun p member => ?_)
      exact fits_of_delivery first.delivery (fits p (List.mem_cons_of_mem _ member))

/-! ### Leaving and joining -/

theorem pinned (v : Nat) (pins : View Code → Nat) :
    Relined w (Ensemble.updateView v (fun o => { o with pins := pins o }) w) :=
  updateView v (fun _ => ⟨rfl, rfl, rfl⟩) fun _ => ⟨rfl, rfl⟩

theorem detach (v : Nat) : Relined w (detach v w) :=
  (updateView v (f := reattach none) (fun _ => ⟨rfl, rfl, rfl⟩) fun _ => ⟨rfl, rfl⟩).trans
    (cutAll _)

theorem quitModel (c : Nat) (m : Option Nat) : Relined w (quitModel c m w) :=
  ((updateController c (f := rebindModel m) (fun _ => ⟨rfl, rfl, rfl⟩) fun _ => ⟨rfl, rfl⟩).trans
    (cutAll _)).trans (cutAll _)

theorem quitView (c : Nat) (v : Option Nat) : Relined w (quitView c v w) := by
  have held : Relined w (holdOld (w.controller c).view w) := by
    cases (w.controller c).view with
    | none => exact .refl w
    | some u => exact pinned u (·.pins + 1)
  have rebound := updateController (w := holdOld (w.controller c).view w) c (f := rebindView v)
    (fun _ => ⟨rfl, rfl, rfl⟩) fun _ => ⟨rfl, rfl⟩
  exact ((held.trans rebound).trans (cutAll _)).trans (cutAll _)

/-- A view that is left is not taken apart, since it has a handle. -/
theorem leaveOld (views : ∀ v, (w.view v).held = true) (c : Nat) (old : Option Nat) :
    Relined w (leaveOld c old w) := by
  cases old with
  | none => exact .refl w
  | some v =>
      have freed : Relined w (freeView c v w) := by
        unfold freeView
        split
        · exact detach v
        · exact .refl w
      have unpinned : Relined w (unpinView v (freeView c v w)) :=
        freed.trans (pinned v (·.pins - 1))
      have held : (unpinView v (freeView c v w)).isViewAlive v = true := by
        simp [isViewAlive, (unpinned.views v).1, views v]
      rw [Ensemble.leaveOld, withoutView, if_pos held]
      exact unpinned

theorem attachTo (sound : ∀ s, (w.signal s).Sound) (v : Nat) :
    Relined w (attachTo v controller w) := by
  unfold Ensemble.attachTo
  split
  · exact .refl w
  · have detached : ∀ s, ((Ensemble.detach v w).signal s).Sound :=
      sound_cutAll _ _ fun s => by rw [signal_reattach]; exact sound s
    refine ((detach v).trans (plugAll detached ?_)).trans
      (updateView v (fun _ => ⟨rfl, rfl, rfl⟩) fun _ => ⟨rfl, rfl⟩)
    simp [attachmentPorts, Fits]

theorem tieView (sound : ∀ s, (w.signal s).Sound) (v : Nat) : Relined w (tieView controller v w) :=
  (plugAll sound (by simp [viewPorts, Fits])).trans
    (updateController controller (fun _ => ⟨rfl, rfl, rfl⟩) fun _ => ⟨rfl, rfl⟩)

theorem tieModel (sound : ∀ s, (w.signal s).Sound) (m : Nat) :
    Relined w (tieModel controller m w) :=
  (plugAll sound (by simp [modelPorts, Fits])).trans
    (updateController controller (fun _ => ⟨rfl, rfl, rfl⟩) fun _ => ⟨rfl, rfl⟩)

end Relined

/-! ## Manned applications -/

/-- Everybody has a handle, signals pass on what they are told, all is connected as the application
    does it, and views that are set up know the model. -/
structure Manned (w : Whole) : Prop extends Held w where
  sole : ∀ d, (w.controller controller).dispatcher = some d → d = dispatcher
  opened : ∀ s, (w.signal s).closed = false
  blocked : ∀ s, (w.signal s).blocked = false
  fits : ∀ s id k, (w.signal s).registry.get? id = some k → Fits w s k
  sound : ∀ v, (w.client.screens.get v).broken = false
  informed : ∀ v, (w.view v).initialized = true → (w.client.screens.get v).hasModel = true

theorem Relined.manned (relined : Relined w w') (manned : Manned w) : Manned w' where
  controllers c := (relined.controllers c).1.trans (manned.controllers c)
  views v := (relined.views v).1.trans (manned.views v)
  sole d same := manned.sole d ((relined.controllers controller).2 ▸ same)
  opened s := (relined.closed s).trans (manned.opened s)
  blocked s := (relined.blocked s).trans (manned.blocked s)
  fits s id k named := by
    refine fits_of_delivery relined.delivery ?_
    exact (relined.fits s id k named).elim (manned.fits s id k) fun fits => fits
  sound v := by rw [relined.client, manned.sound]
  informed v set := by
    rw [relined.client]
    exact manned.informed v ((relined.views v).2 ▸ set)

theorem Still.manned (still : Still w w') (manned : Manned w) : Manned w' where
  toHeld := still.keepsHeld manned.toHeld
  sole d same := by
    rw [still.of_controller (·.dispatcher) fun _ => rfl] at same
    exact manned.sole d same
  opened s := by rw [still.signals, manned.opened]
  blocked s := by rw [still.signals, manned.blocked]
  fits s id k named := by
    rw [still.signals] at named
    refine fits_of_delivery (delivery_of_dispatcher ?_) (manned.fits s id k named)
    exact still.of_controller (·.dispatcher) (fun _ => rfl) controller
  sound v := (still.broken v).trans (manned.sound v)
  informed v set := (still.hasModel v).trans (manned.informed v (still.initialized v ▸ set))

theorem Manned.alive (manned : Manned w) (c : Nat) : w.isControllerAlive c = true := by
  simp [isControllerAlive, Controller.isAlive, manned.controllers]

/-! ## Berthed applications -/

/-- Wired as well, with the bound view attached and set up together with the controller. -/
structure Berthed (w : Whole) : Prop extends Manned w where
  intact : Intact none w
  bindings : ∀ line ∈ (w.controller controller).bindings, line.isConnection = true
  attached : ∀ v, (w.controller controller).view = some v →
    (w.view v).attachment.map (·.controller) = some controller
  ready : (w.controller controller).initialized = true →
    ∀ v, (w.controller controller).view = some v → (w.view v).initialized = true

/-- Holding and letting go of those who have a handle leaves everything intact. -/
theorem Still.intact (still : Still w w') (held : Held w) (intact : Intact none w) :
    Intact none w' := by
  have same {α : Type} (f : Controller Code → α) (blind : ∀ o, f (standing o) = f o) :=
    still.of_controller f blind
  refine ⟨intact.toSturdy.of_lifetime still.signals ?_ still.attachments ?_ ?_, fun c dead => ?_⟩
  · exact fun c => ⟨same (·.model) (fun _ => rfl) c, same (·.view) (fun _ => rfl) c,
      same (·.modelSubscriptions) (fun _ => rfl) c, same (·.viewSubscriptions) (fun _ => rfl) c⟩
  · exact fun c h => (same (·.held) (fun _ => rfl) c).symm.trans h
  · exact same (·.bindings) fun _ => rfl
  · simp [isControllerAlive, Controller.isAlive, (still.keepsHeld held).controllers] at dead

theorem Still.berthed (still : Still w w') (berthed : Berthed w) : Berthed w' where
  toManned := still.manned berthed.toManned
  intact := still.intact berthed.toHeld berthed.intact
  bindings := by
    rw [still.of_controller (·.bindings) fun _ => rfl]
    exact berthed.bindings
  attached v view := by
    rw [still.of_controller (·.view) fun _ => rfl] at view
    rw [still.attachments]
    exact berthed.attached v view
  ready set v view := by
    rw [still.of_controller (·.view) fun _ => rfl] at view
    rw [still.of_controller (·.initialized) fun _ => rfl] at set
    rw [still.initialized]
    exact berthed.ready set v view

namespace Berthed

/-- A port of a link is plugged by a connection of the kind that the application makes. -/
theorem connected (berthed : Berthed w) {l : Link} {s : SignalRef} {k : Slot Code}
    (port : (s, k) ∈ w.ports l) :
    ∃ id d, (w.signal s).registry.get? id = some ⟨k, d⟩ ∧ Fits w s ⟨k, d⟩ := by
  obtain ⟨id, named, -⟩ := berthed.intact.wired.slot_of_port port (berthed.opened s)
  obtain ⟨⟨k', d⟩, entry, same⟩ := Option.map_eq_some_iff.mp named
  cases same
  exact ⟨id, d, entry, berthed.fits s id _ entry⟩

/-- Where the controller is connected to its model, it hears what the bound view has to show. -/
theorem shows_of_slot (berthed : Berthed w)
    (initialized : (w.controller controller).initialized = true) {v : Nat}
    (view : (w.controller controller).view = some v) {port : ConnectionId}
    (named : w.slotAt (.modelData model) port = some (.controllerData controller)) :
    Shows v port w := by
  obtain ⟨⟨k, d⟩, entry, same⟩ := Option.map_eq_some_iff.mp named
  cases same
  obtain ⟨-, -, routed⟩ := berthed.fits _ _ _ entry
  have set := berthed.ready initialized v view
  refine ⟨view, set, berthed.informed v set, berthed.sound v, berthed.blocked _, d, entry, ?_⟩
  obtain rfl : d = modelDelivery w controller := routed
  unfold modelDelivery
  cases route : (w.controller controller).dispatcher with
  | none => exact .inl rfl
  | some d => exact .inr ⟨.auto, by rw [berthed.sole d route]⟩

/-- The controller of a berthed application hears of its model. -/
theorem shows (berthed : Berthed w) (initialized : (w.controller controller).initialized = true)
    (bound : (w.controller controller).model = some model) {v : Nat}
    (view : (w.controller controller).view = some v) : ∃ port, Shows v port w := by
  have here : (.modelData model, .controllerData controller) ∈ w.ports (.model controller) := by
    simp [ports, bound, modelPorts]
  obtain ⟨port, d, entry, -⟩ := berthed.connected here
  have named : w.slotAt (.modelData model) port = some (.controllerData controller) :=
    Option.map_eq_some_iff.mpr ⟨_, entry, rfl⟩
  exact ⟨port, berthed.shows_of_slot initialized view named⟩

/-- The bound view of a berthed application hears of the controller's phase. -/
theorem follows (berthed : Berthed w) {v : Nat} (view : (w.controller controller).view = some v) :
    ∃ id, (w.signal (.controllerPhase controller)).registry.get? id =
      some ⟨.viewPhase v, .direct⟩ := by
  obtain ⟨a, attachment, same⟩ := Option.map_eq_some_iff.mp (berthed.attached v view)
  have here : (.controllerPhase controller, .viewPhase v) ∈ w.ports (.attachment v) := by
    simp [ports, attachment, same, attachmentPorts]
  obtain ⟨id, d, entry, -, direct⟩ := berthed.connected here
  obtain rfl : d = .direct := direct
  exact ⟨id, entry⟩

/-! ### Binding -/

/-- Lines were cut and plugged, and the same view is bound as before. -/
theorem of_relined (berthed : Berthed w) (relined : Relined w w') (intact : Intact none w')
    (bindings : ∀ line ∈ (w'.controller controller).bindings, line.isConnection = true)
    (view : (w'.controller controller).view = (w.controller controller).view)
    (initialized : (w'.controller controller).initialized = (w.controller controller).initialized)
    (attachment : ∀ v, (w'.view v).attachment = (w.view v).attachment) : Berthed w' where
  toManned := relined.manned berthed.toManned
  intact := intact
  bindings := bindings
  attached v bound := by
    rw [attachment]
    exact berthed.attached v (view ▸ bound)
  ready set v bound := by
    rw [(relined.views v).2]
    exact berthed.ready (initialized ▸ set) v (view ▸ bound)

theorem of_onlySignals (berthed : Berthed w) (only : OnlySignals w w') (relined : Relined w w')
    (intact : Intact none w') : Berthed w' := by
  refine berthed.of_relined relined intact ?_ (only.of_controller (·.view) (fun _ => rfl) _)
    (only.of_controller (·.initialized) (fun _ => rfl) _) (only.of_view (·.attachment) fun _ => rfl)
  rw [only.of_controller (·.bindings) fun _ => rfl]
  exact berthed.bindings

/-- Another model is bound, and the bindings are gone. -/
theorem joinModel (berthed : Berthed w) (m : Option Nat) :
    Berthed (joinModel controller m (quitModel controller m w)) := by
  have quit := berthed.intact.quitModel (berthed.alive controller) (m := m) fun i _ =>
    berthed.opened (.modelData i)
  have left := Relined.quitModel (w := w) controller m
  have joined : Relined w (Ensemble.joinModel controller m (quitModel controller m w)) := by
    refine left.trans ?_
    cases m with
    | none => exact .refl _
    | some m => exact .tieModel quit.wired.sound m
  have same := silent_joinModel (c := controller) (w := w) m controller
  have bound : ((quitModel controller m w).controller controller).model = m := by
    have same := silent_quitModel (c := controller) (w := w) m controller
    rw [controller_updateController_self] at same
    exact (congrArg Controller.model same : _)
  rw [controller_updateController_self] at same
  have part {α : Type} (f : Controller Code → α) (blind : ∀ o, f (unlined o.silent) = f o) :
      f ((Ensemble.joinModel controller m (quitModel controller m w)).controller controller) =
        f (rebindModel m (w.controller controller)) := by rw [← blind, same, blind]
  refine berthed.of_relined joined ?_ ?_ (part (·.view) fun _ => rfl)
    (part (·.initialized) fun _ => rfl) (attachment_joinModel m)
  · cases m with
    | none => exact quit.untear (by simp [ports, bound])
    | some m => exact quit.tieModel ((left.manned berthed.toManned).alive controller) bound
  · rw [part (·.bindings) fun _ => rfl]
    intro line member
    cases member

/-- Another view is bound, and the bindings are gone. -/
theorem joinView (berthed : Berthed w) {v : Option Nat}
    (ready : (w.controller controller).initialized = true →
      ∀ u, v = some u → (w.view u).initialized = true) :
    let w' := joinView controller v
      (leaveOld controller (w.controller controller).view (quitView controller v w))
    Berthed w' ∧ (w'.controller controller).closing = false := by
  have quit := berthed.intact.quitView (berthed.alive controller) (v := v) fun u _ s _ =>
    berthed.opened s
  have left := quit.leaveOld controller (w.controller controller).view
  have quitting := Relined.quitView (w := w) controller v
  have leaving := quitting.trans (.leaveOld (quitting.manned berthed.toManned).views controller
    (w.controller controller).view)
  have alive := (leaving.manned berthed.toManned).alive controller
  have bound : ((leaveOld controller (w.controller controller).view
      (quitView controller v w)).controller controller).view = v := by
    have same := (silent_leaveOld controller (w.controller controller).view
      (quitView controller v w) controller).trans (silent_quitView v controller)
    rw [controller_updateController_self] at same
    exact (congrArg Controller.view same : _)
  have same := silent_joinView (c := controller) (w := w) v controller
  rw [controller_updateController_self] at same
  generalize leaveOld controller _ (quitView controller v w) = w₁ at *
  have joined : Relined w (Ensemble.joinView controller v w₁) := by
    refine leaving.trans ?_
    cases v with
    | none => exact .refl _
    | some u =>
        exact (Relined.tieView left.wired.sound u).trans
          (.attachTo (left.tieView alive bound).wired.sound u)
  have part {α : Type} (f : Controller Code → α) (blind : ∀ o, f (unlined o.silent) = f o) :
      f ((Ensemble.joinView controller v w₁).controller controller) =
        f (rebindView v (w.controller controller)) := by rw [← blind, same, blind]
  refine ⟨⟨joined.manned berthed.toManned, ?_, ?_, fun u view => ?_, fun set u view => ?_⟩, ?_⟩
  · cases v with
    | none => exact left.untear (by simp [ports, bound])
    | some u => exact (left.tieView alive bound).attachTo (by simp) controller
  · rw [part (·.bindings) fun _ => rfl]
    intro line member
    cases member
  · obtain rfl : v = some u := (part (·.view) fun _ => rfl).symm.trans view
    exact (attached_attachTo u controller _ u).trans (if_pos rfl)
  · obtain rfl : v = some u := (part (·.view) fun _ => rfl).symm.trans view
    rw [(joined.views u).2]
    exact ready ((part (·.initialized) fun _ => rfl).symm.trans set) u rfl
  · exact part (·.closing) fun _ => rfl

/-- A client's own connection is made. -/
theorem plug (berthed : Berthed w) {s : SignalRef} {code : Code} {d : Delivery}
    (fits : Fits w s ⟨.client code, d⟩) : Berthed (plug d (s, .client code) w).2 :=
  berthed.of_onlySignals (onlySignals_plug d (s, .client code) w)
    (.plug (berthed.intact.wired.sound s) fits) (berthed.intact.connect s rfl d).1

/-- Connections are cut that are the client's own. -/
theorem cutOwn (berthed : Berthed w) {lines : List (Subscription Code)}
    (own : ∀ s id, .connection s id ∈ lines → w.Own s id) : Berthed (cutAll lines w) :=
  berthed.of_onlySignals (onlySignals_cutAll lines w) (.cutAll lines) (berthed.intact.cutOwn own)

/-- The controller has other bindings, which are connections of the client's own. -/
theorem bind (berthed : Berthed w) {bindings : List (Subscription Code)}
    (own : ∀ s id, .connection s id ∈ bindings → w.Own s id)
    (connections : ∀ line ∈ bindings, line.isConnection = true) :
    Berthed (updateController controller (fun o => { o with bindings }) w) := by
  have same := controller_updateController_self w controller fun o => { o with bindings }
  refine berthed.of_relined (.updateController controller (fun _ => ⟨rfl, rfl, rfl⟩)
    fun _ => ⟨rfl, rfl⟩) (berthed.intact.bindings controller own).1 ?_ ?_ ?_ fun _ => rfl
  · rw [same]
    exact connections
  · rw [same]
  · rw [same]

/-- The bound view is tuned to the busy flag, and the old bindings are cut. -/
theorem rebind (berthed : Berthed w) (v : Nat) :
    Berthed (cutAll (w.controller controller).bindings (fasten v w)) := by
  have still : Still w (updateView v (fun o => { o with enabled := !isBusy (properties w) }) w) :=
    .updateView v (fun _ => ⟨rfl, rfl, rfl⟩) fun _ => ⟨rfl, rfl, rfl⟩
  have enabled := still.berthed berthed
  have tuned : Berthed (tune v w).2 := enabled.plug ⟨rfl, rfl⟩
  have own : ∀ s id, .connection s id ∈ [(tune v w).1] → (tune v w).2.Own s id := by
    intro s id member
    have line := (List.mem_singleton.mp member).symm
    have port : (Channel.busy, Slot.client (Code.followBusy v)) = (s, .client (.followBusy v)) := by
      cases line
      rfl
    have named := (slotAt_plug _ _ _ enabled.intact.wired.sound).mpr
      (.inr ⟨enabled.opened s, line, port⟩)
    exact .inr (.inr ⟨_, named, rfl⟩)
  have fastened : Berthed (fasten v w) := tuned.bind own fun line member => by
    rw [List.mem_singleton.mp member]
    rfl
  refine fastened.cutOwn fun s id member => ?_
  have before := berthed.intact.own controller s id member
  rw [Own, ← still.signals s] at before
  have after := settled_plug (modelDelivery w controller)
    (Channel.busy, .client (.followBusy v)) _ enabled.intact.wired.sound before
  have kept := signal_updateController (tune v w).2 controller
    (f := fun o => { o with bindings := [(tune v w).1] }) fun _ => ⟨rfl, rfl, rfl⟩
  rw [Own, fasten, kept]
  exact after

/-- All else about the controller is as it was. -/
theorem silent_rebind (v : Nat) (w : Whole) :
    ∃ line, ((cutAll (w.controller controller).bindings (fasten v w)).controller
      controller).silent = { (w.controller controller).silent with bindings := [line] } := by
  refine ⟨(tune v w).1, ?_⟩
  rw [(onlySignals_cutAll _ _).controller, fasten, controller_updateController_self]
  exact congrArg (fun o => { o with bindings := [(tune v w).1] })
    ((onlySignals_tune v w).controller controller)

end Berthed

end Mvc.App
