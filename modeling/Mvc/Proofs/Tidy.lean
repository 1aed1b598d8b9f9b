import Mvc.Proofs.Rebinding

/-! # Tidy ensembles

An ensemble is tidy if nobody has gone, no signal is blocked, controllers have no bindings of
their client's, and every connection was made by a link and is reached the way that its slot
asks for. Binding a model or a view then runs no client code before the phase is announced,
and it keeps the ensemble tidy.
-/

namespace Mvc

variable {σ ε : Type}

/-- Whether a signal is one that a link connects a slot to. -/
def Slot.fits : Slot σ → SignalRef → Bool
  | .controllerData _, .modelData _ => true
  | .controllerAction _, .viewAction _ => true
  | .controllerClosing _, .viewClosing _ => true
  | .controllerUpdate _, .viewUpdate _ => true
  | .viewError _, .controllerError _ => true
  | .viewInfo _, .controllerDone _ => true
  | .viewPhase _, .controllerPhase _ => true
  | _, _ => false

/-- A signal passes on what is emitted, and its connections are those of links, reached the
    way that their slots ask for. -/
structure Signal.Clear (route : Slot σ → Delivery) (x : Signal (Slot σ)) : Prop where
  sound : x.Sound
  blocked : x.blocked = false
  opened : x.closed = false
  routed : ∀ id k, x.registry.get? id = some k →
    k.slot.isClient = false ∧ k.delivery = route k.slot

namespace Signal.Clear

variable {route : Slot σ → Delivery} {x : Signal (Slot σ)}

theorem disconnect (clear : x.Clear route) (id : ConnectionId) :
    (x.disconnect id).2.Clear route where
  sound := clear.sound.disconnect id
  blocked := clear.blocked
  opened := clear.opened
  routed := by
    intro other k named
    simp only [Signal.disconnect, Registry.get?_erase] at named
    split at named
    · cases named
    · exact clear.routed other k named

theorem connect (clear : x.Clear route) {k : Slot σ} (linked : k.isClient = false) :
    (x.connect k (route k)).2.Clear route where
  sound := clear.sound.connect k _
  blocked := by rw [connect_of_open clear.opened, clear.blocked]
  opened := by rw [closed_connect, clear.opened]
  routed := by
    intro id k' named
    rw [connect_of_open clear.opened] at named
    simp only [Registry.get?_insert clear.sound.registry] at named
    split at named
    · cases named
      exact ⟨linked, rfl⟩
    · exact clear.routed id k' named

end Signal.Clear

namespace Ensemble

open Proc

/-- How a slot asks to be reached. -/
def route (w : Ensemble σ ε) : Slot σ → Delivery
  | .controllerData c => modelDelivery w c
  | _ => .direct

/-- Everybody is there, and nothing is connected but by links. -/
structure Plain (w : Ensemble σ ε) : Prop where
  controllers : ∀ c, (w.controller c).held = true ∧ (w.controller c).bindings = []
  views : ∀ v, (w.view v).held = true
  signals : ∀ s, (w.signal s).Clear w.route

/-- And everything is wired. -/
structure Tidy (w : Ensemble σ ε) : Prop extends Plain w where
  wired : Wired none w

variable {w w' : Ensemble σ ε} {c : Nat}

theorem route_eq (same : ∀ c, (w'.controller c).dispatcher = (w.controller c).dispatcher) :
    w'.route = w.route := by
  funext k
  cases k with
  | controllerData c => simp only [route, modelDelivery, same]
  | _ => rfl

/-! ## Connected slots -/

theorem fits_of_port {l : Link} {s : SignalRef} {k : Slot σ} (port : (s, k) ∈ w.ports l) :
    k.fits s = true := by
  cases l with
  | model c =>
      cases bound : (w.controller c).model <;> simp [ports, bound, modelPorts] at port
      obtain ⟨rfl, rfl⟩ := port
      rfl
  | view c =>
      cases bound : (w.controller c).view <;> simp [ports, bound, viewPorts] at port
      rcases port with ⟨rfl, rfl⟩ | ⟨rfl, rfl⟩ | ⟨rfl, rfl⟩ <;> rfl
  | attachment v =>
      cases attached : (w.view v).attachment <;> simp [ports, attached, attachmentPorts] at port
      rcases port with ⟨rfl, rfl⟩ | ⟨rfl, rfl⟩ | ⟨rfl, rfl⟩ <;> rfl

namespace Tidy

theorem alive (tidy : Tidy w) (c : Nat) : w.isControllerAlive c = true := by
  simp [isControllerAlive, Controller.isAlive, tidy.controllers c]

theorem intact (tidy : Tidy w) : Intact none w where
  wired := tidy.wired
  standing s _ := (tidy.signals s).opened
  own c s id member := by
    rw [(tidy.controllers c).2] at member
    cases member
  idle c dead := by
    rw [tidy.alive c] at dead
    cases dead

theorem viewAlive (tidy : Tidy w) (v : Nat) : w.isViewAlive v = true := by
  simp [isViewAlive, tidy.views v]

/-- A connected slot is where its link connects it. -/
theorem fits (tidy : Tidy w) {s : SignalRef} {id : ConnectionId} {k : Slot σ}
    (named : w.slotAt s id = some k) : k.fits s = true := by
  obtain ⟨e, entry, rfl⟩ := Option.map_eq_some_iff.mp named
  have linked := ((tidy.signals s).routed id e entry).1
  obtain ⟨l, link⟩ : ∃ l, e.slot.link? = some l :=
    Option.isSome_iff_exists.mp (by simpa [Slot.isClient] using linked)
  exact fits_of_port (tidy.wired.port_of_slot named link)

end Tidy

/-! ## Changes of one object -/

namespace Plain

theorem of_same (plain : Plain w) (signals : ∀ s, w'.signal s = w.signal s)
    (controllers : ∀ c, (w'.controller c).held = (w.controller c).held ∧
      (w'.controller c).bindings = (w.controller c).bindings ∧
      (w'.controller c).dispatcher = (w.controller c).dispatcher)
    (views : ∀ v, (w'.view v).held = (w.view v).held) : Plain w' where
  controllers c := by
    rw [(controllers c).1, (controllers c).2.1]
    exact plain.controllers c
  views v := (views v).trans (plain.views v)
  signals s := by
    rw [signals s, route_eq fun c => (controllers c).2.2]
    exact plain.signals s

theorem updateController (plain : Plain w) (c : Nat) {f : Controller σ → Controller σ}
    (signals : ∀ o, (f o).phaseChanged = o.phaseChanged ∧ (f o).errorOccurred = o.errorOccurred ∧
      (f o).operationCompleted = o.operationCompleted)
    (held : ∀ o, (f o).held = o.held) (dispatcher : ∀ o, (f o).dispatcher = o.dispatcher)
    (bindings : ∀ o, o.bindings = [] → (f o).bindings = []) :
    Plain (updateController c f w) where
  controllers b := by
    refine ⟨(blind_updateController w c f (·.held) held b).trans (plain.controllers b).1, ?_⟩
    rw [controller_updateController]
    split
    · exact bindings _ (plain.controllers c).2
    · exact (plain.controllers b).2
  views := plain.views
  signals s := by
    rw [signal_updateController w c signals,
      route_eq (blind_updateController w c f (·.dispatcher) dispatcher)]
    exact plain.signals s

theorem updateView (plain : Plain w) (v : Nat) {f : View σ → View σ}
    (signals : ∀ o, (f o).userAction = o.userAction ∧ (f o).viewClosing = o.viewClosing ∧
      (f o).viewUpdate = o.viewUpdate) (held : ∀ o, (f o).held = o.held) :
    Plain (updateView v f w) :=
  plain.of_same (signal_updateView w v signals) (fun _ => ⟨rfl, rfl, rfl⟩)
    (blind_updateView w v f (·.held) held)

theorem onlySignals (plain : Plain w) (only : OnlySignals w w')
    (signals : ∀ s, (w'.signal s).Clear w.route) : Plain w' where
  controllers c := by
    rw [only.of_controller (·.held) fun _ => rfl, only.of_controller (·.bindings) fun _ => rfl]
    exact plain.controllers c
  views v := (only.of_view (·.held) (fun _ => rfl) v).trans (plain.views v)
  signals s := by
    rw [route_eq (only.of_controller (·.dispatcher) fun _ => rfl)]
    exact signals s

theorem setSignal (plain : Plain w) (s : SignalRef) {x : Signal (Slot σ)}
    (clear : x.Clear w.route) : Plain (setSignal s x w) := by
  refine plain.onlySignals (.setSignal w s x) fun t => ?_
  rw [signal_setSignal]
  split
  · exact clear
  · exact plain.signals t

theorem cutAll (plain : Plain w) (lines : List (Subscription σ)) : Plain (cutAll lines w) := by
  induction lines generalizing w with
  | nil => exact plain
  | cons line rest ih =>
      refine ih ?_
      cases line with
      | connection s id => exact plain.setSignal s ((plain.signals s).disconnect id)
      | client code => exact plain

theorem plugAll (plain : Plain w) {d : Delivery} {ports : List (SignalRef × Slot σ)}
    (linked : ∀ port ∈ ports, port.2.isClient = false ∧ d = w.route port.2) :
    Plain (plugAll d ports w).2 := by
  induction ports generalizing w with
  | nil => exact plain
  | cons port rest ih =>
      obtain ⟨link, routed⟩ := linked port List.mem_cons_self
      have plugged : Plain (plug d port w).2 := by
        subst routed
        exact plain.setSignal _ ((plain.signals port.1).connect link)
      refine ih plugged fun p member => ?_
      rw [route_eq ((onlySignals_plug d port w).of_controller (·.dispatcher) fun _ => rfl)]
      exact linked p (List.mem_cons_of_mem _ member)

end Plain

/-! ## Binding -/

/-- A controller leaves its model and joins another one. -/
def bindModel (c : Nat) (m : Option Nat) (w : Ensemble σ ε) : Ensemble σ ε :=
  joinModel c m (tearModel c m w)

/-- A controller leaves its view and joins another one. -/
def bindView (c : Nat) (v : Option Nat) (w : Ensemble σ ε) : Ensemble σ ε :=
  let old := (w.controller c).view
  joinView c v (leaveOld c old (tearView c v (holdOld old w)))

theorem Tidy.tornModel (tidy : Tidy w) (m : Option Nat) :
    Intact (some (.model c)) (tearModel c m w) :=
  tidy.intact.tearModel (tidy.alive c) fun i _ => (tidy.signals (.modelData i)).opened

theorem Tidy.tornView (tidy : Tidy w) (v : Option Nat) (old : Option Nat) :
    Intact (some (.view c)) (tearView c v (holdOld old w)) := by
  refine (tidy.intact.holdOld old).tearView ?_ fun u _ s _ => ?_
  · rw [isControllerAlive, controller_holdOld]
    exact tidy.alive c
  · rw [signal_holdOld]
    exact (tidy.signals s).opened

theorem controller_updateController_holdOld (f : Controller σ → Controller σ) (old : Option Nat)
    (b : Nat) : (updateController c f (holdOld old w)).controller b =
      (updateController c f w).controller b := by
  cases old <;> rfl

/-- A controller that has left its view has the next one, and all else as it had. -/
theorem bonds_left (v : Option Nat) (old : Option Nat) (b : Nat) :
    ((leaveOld c old (tearView c v (holdOld old w))).controller b).bonds =
      ((updateController c (rebindView v) w).controller b).bonds := by
  rw [bonds_leaveOld, tearView, (onlySignals_cutAll _ _).bonds,
    controller_updateController_holdOld]

theorem bound_of_left (tidy : Tidy w) {v : Option Nat}
    (left : (w'.controller c).bonds = ((updateController c (rebindView v) w).controller c).bonds) :
    w'.isControllerAlive c = true ∧ (w'.controller c).view = v := by
  obtain ⟨held, -, -, -, view, -⟩ := Controller.bonds_eq.mp left
  rw [controller_updateController_self] at held view
  refine ⟨?_, view⟩
  simp [isControllerAlive, Controller.isAlive, held, rebindView, tidy.controllers c]

section Steps

variable {run : Runner σ ε} {β : Behaviour σ ε}

theorem Tidy.noBindings (tidy : Tidy w) :
    ∀ line ∈ (w.controller c).bindings, line.isConnection = true := by
  rw [(tidy.controllers c).2]
  exact nofun

/-- A controller binds another model, and no client code runs before all is tied. -/
theorem setModel_eq (tidy : Tidy w) {m : Option Nat} (other : (w.controller c).model ≠ m) :
    setModel run β c m w = announce run β c (bindModel c m w) := by
  have quit : quitModel c m w = tearModel c m w := by
    rw [quitModel, (tidy.controllers c).2]
    rfl
  rw [setModel_eq_announce tidy.intact tidy.noBindings other, quit]
  rfl

/-- A controller binds another view, and no client code runs before all is tied. -/
theorem setView_eq (tidy : Tidy w) {v : Option Nat} (other : (w.controller c).view ≠ v) :
    setView run β c v w = announce run β c (bindView c v w) := by
  have quit : quitView c v w = tearView c v (holdOld (w.controller c).view w) := by
    rw [quitView, (tidy.controllers c).2]
    rfl
  rw [setView_eq_announce tidy.intact tidy.noBindings (tidy.alive c)
    (fun _ _ s _ => (tidy.signals s).opened) other, quit]
  rfl

end Steps

/-! ## What binding keeps -/

namespace Plain

theorem bindModel (plain : Plain w) (c : Nat) (m : Option Nat) : Plain (bindModel c m w) := by
  have torn : Plain (tearModel c m w) := by
    refine Plain.cutAll (plain.updateController c ?_ ?_ ?_ ?_) _
    all_goals intro o
    · exact ⟨rfl, rfl, rfl⟩
    · rfl
    · rfl
    · exact fun _ => rfl
  cases m with
  | none => exact torn
  | some m =>
      refine (torn.plugAll ?_).updateController c ?_ ?_ ?_ ?_
      · simp [modelPorts, Slot.isClient, Slot.link?, route]
      all_goals intro o
      · exact ⟨rfl, rfl, rfl⟩
      · rfl
      · rfl
      · exact id

theorem holdOld (plain : Plain w) (old : Option Nat) : Plain (holdOld old w) := by
  cases old with
  | none => exact plain
  | some v =>
      exact plain.updateView v (f := fun o => { o with pins := o.pins + 1 })
        (fun _ => ⟨rfl, rfl, rfl⟩) fun _ => rfl

theorem detach (plain : Plain w) (v : Nat) : Plain (detach v w) :=
  Plain.cutAll (plain.updateView v (by exact fun _ => ⟨rfl, rfl, rfl⟩) (by exact fun _ => rfl)) _

theorem unpinView (plain : Plain w) (c v : Nat) : Plain (unpinView v (freeView c v w)) := by
  have freed : Plain (freeView c v w) := by
    unfold freeView
    split
    · exact plain.detach v
    · exact plain
  exact freed.updateView v (f := fun o => { o with pins := o.pins - 1 })
    (fun _ => ⟨rfl, rfl, rfl⟩) fun _ => rfl

/-- The view that is left is not taken apart. -/
theorem leaveOld_some (plain : Plain w) (c v : Nat) :
    Ensemble.leaveOld c (some v) w = Ensemble.unpinView v (freeView c v w) :=
  if_pos (by simp [isViewAlive, (plain.unpinView c v).views v])

theorem leaveOld (plain : Plain w) (c : Nat) (old : Option Nat) : Plain (leaveOld c old w) := by
  cases old with
  | none => exact plain
  | some v =>
      rw [plain.leaveOld_some]
      exact plain.unpinView c v

theorem attachTo (plain : Plain w) (v c : Nat) : Plain (attachTo v c w) := by
  unfold Ensemble.attachTo
  split
  · exact plain
  · refine ((plain.detach v).plugAll ?_).updateView v ?_ ?_
    · simp [attachmentPorts, Slot.isClient, Slot.link?, route]
    · exact fun _ => ⟨rfl, rfl, rfl⟩
    · exact fun _ => rfl

theorem tearView (plain : Plain w) (c : Nat) (v : Option Nat) (old : Option Nat) :
    Plain (tearView c v (Ensemble.holdOld old w)) := by
  refine Plain.cutAll ((plain.holdOld old).updateController c ?_ ?_ ?_ ?_) _
  all_goals intro o
  · exact ⟨rfl, rfl, rfl⟩
  · rfl
  · rfl
  · exact fun _ => rfl

theorem bindView (plain : Plain w) (c : Nat) (v : Option Nat) : Plain (bindView c v w) := by
  have left := (plain.tearView c v (w.controller c).view).leaveOld c (w.controller c).view
  cases v with
  | none => exact left
  | some v =>
      refine Plain.attachTo ((left.plugAll ?_).updateController c ?_ ?_ ?_ ?_) v c
      · simp [viewPorts, Slot.isClient, Slot.link?, route]
      all_goals intro o
      · exact ⟨rfl, rfl, rfl⟩
      · rfl
      · rfl
      · exact id

end Plain

namespace Tidy

theorem bindModel (tidy : Tidy w) (c : Nat) (m : Option Nat) : Tidy (bindModel c m w) := by
  refine ⟨tidy.toPlain.bindModel c m, ?_⟩
  have torn := tidy.tornModel (c := c) m
  have only := onlySignals_cutAll (w.lines (.model c)) (updateController c (rebindModel m) w)
  have bound : ((tearModel c m w).controller c).model = m := by
    rw [tearModel, only.of_controller (·.model) fun _ => rfl, controller_updateController_self]
    rfl
  cases m with
  | none => exact (torn.untear (by simp [ports, bound])).wired
  | some m =>
      refine (torn.tieModel ?_ bound).wired
      rw [isControllerAlive, tearModel, only.of_controller Controller.isAlive fun _ => rfl,
        controller_updateController_self]
      exact tidy.alive c

theorem bindView (tidy : Tidy w) (c : Nat) (v : Option Nat) : Tidy (bindView c v w) := by
  refine ⟨tidy.toPlain.bindView c v, ?_⟩
  have left := (tidy.tornView (c := c) v (w.controller c).view).leaveOld c (w.controller c).view
  obtain ⟨alive, bound⟩ := bound_of_left tidy (bonds_left v (w.controller c).view c)
  cases v with
  | none => exact (left.untear (by simp [ports, bound])).wired
  | some v => exact ((left.tieView alive bound).attachTo (by simp) c).wired

end Tidy

/-! ## Slots of other links -/

section Slots

variable {torn : Option Link} {l l' : Link} {k : Slot σ} (s : SignalRef) (id : ConnectionId)

theorem slotAt_cut_other (wired : Wired torn w) (signals : ∀ s, w'.signal s = w.signal s)
    (link : k.link? = some l') (other : l' ≠ l) :
    (cutAll (w.lines l) w').slotAt s id = some k ↔ w.slotAt s id = some k := by
  rw [slotAt_cutAll, slotAt, signals s]
  refine ⟨And.right, fun named => ⟨fun member => ?_, named⟩⟩
  have own := (wired.port_of_line member named).2
  rw [link] at own
  exact other (Option.some.inj own)

theorem slotAt_plug_other (sound : ∀ s, (w.signal s).Sound) (d : Delivery)
    {ports : List (SignalRef × Slot σ)} (linked : ∀ port ∈ ports, port.2.link? = some l)
    (link : k.link? = some l') (other : l' ≠ l) :
    (plugAll d ports w).2.slotAt s id = some k ↔ w.slotAt s id = some k := by
  refine ⟨fun named => ?_, slotAt_plugAll_kept d ports w sound⟩
  refine (slotAt_plugAll_made d ports w sound named).resolve_right fun made => ?_
  have own := linked _ made.1
  rw [link] at own
  exact other (Option.some.inj own)

end Slots

/-- Binding a model concerns no other controller's slot at a model. -/
theorem slotAt_bindModel (tidy : Tidy w) {b : Nat} (other : b ≠ c) (m : Option Nat)
    {s : SignalRef} {id : ConnectionId} : (bindModel c m w).slotAt s id = some (.controllerData b) ↔
      w.slotAt s id = some (.controllerData b) := by
  have link : (Slot.controllerData b : Slot σ).link? = some (.model b) := rfl
  have elsewhere : Link.model b ≠ .model c := fun same => other (Link.model.inj same)
  have torn := slotAt_cut_other s id tidy.wired
    (signal_updateController w c (f := rebindModel m) fun _ => ⟨rfl, rfl, rfl⟩) link elsewhere
  cases m with
  | none => exact torn
  | some m =>
      have sound := sound_cutAll (w.lines (.model c)) (updateController c (rebindModel (some m)) w)
        fun s => by
          rw [signal_updateController w c (f := rebindModel (some m)) fun _ => ⟨rfl, rfl, rfl⟩]
          exact (tidy.signals s).sound
      refine Iff.trans ?_ torn
      rw [slotAt, bindModel, joinModel, tieModel,
        signal_updateController _ c (by exact fun _ => ⟨rfl, rfl, rfl⟩)]
      exact slotAt_plug_other s id sound _ (link_modelPorts c m) link elsewhere

/-- Once a controller has bound another model, no older id names its slot at a model. -/
theorem gone_of_bindModel (tidy : Tidy w) (m : Option Nat) {s : SignalRef} {id : ConnectionId}
    (settled : (w.signal s).Settled (· = .controllerData c) id) :
    (bindModel c m w).slotAt s id ≠ some (.controllerData c) := by
  have torn := tidy.tornModel (c := c) m
  have still := (untouched_tearModel c m w).settled _ s id settled
  -- With the link torn, the slot is nowhere, so the id is past.
  have past : ((tearModel c m w).signal s).Settled (fun _ => False) id := by
    rcases still with closed | past | ⟨k, named, rfl⟩
    · exact .inl closed
    · exact .inr (.inl past)
    · have line := torn.wired.booked named (l := .model c) rfl
      rw [torn.wired.torn _ rfl] at line
      cases line
  have settled' : ((bindModel c m w).signal s).Settled (fun _ => False) id := by
    cases m with
    | none => exact past
    | some m => exact (untouched_tieModel c m torn.wired.sound).settled _ s id past
  intro named
  exact settled'.property ((tidy.bindModel c m).wired.sound s) named

section Models

variable {torn : Option Link} {b : Nat} {s : SignalRef} {id : ConnectionId}

theorem slotAt_detach (wired : Wired torn w) (v : Nat) :
    (detach v w).slotAt s id = some (.controllerData b) ↔
      w.slotAt s id = some (.controllerData b) :=
  have other : Link.model b ≠ .attachment v := by simp
  slotAt_cut_other s id wired (signal_reattach v none w) rfl other

theorem slotAt_leaveOld (wired : Wired torn w) (plain : Plain w) (old : Option Nat) :
    (leaveOld c old w).slotAt s id = some (.controllerData b) ↔
      w.slotAt s id = some (.controllerData b) := by
  cases old with
  | none => exact Iff.rfl
  | some v =>
      rw [plain.leaveOld_some, slotAt, unpinView,
        signal_updateView _ v (by exact fun _ => ⟨rfl, rfl, rfl⟩)]
      show (freeView c v w).slotAt s id = _ ↔ _
      unfold freeView
      split
      · exact slotAt_detach wired v
      · exact Iff.rfl

theorem slotAt_attachTo (intact : Intact torn w) (v : Nat) :
    (attachTo v c w).slotAt s id = some (.controllerData b) ↔
      w.slotAt s id = some (.controllerData b) := by
  unfold attachTo
  split
  · exact Iff.rfl
  · rw [slotAt, signal_reattach]
    refine Iff.trans ?_ (slotAt_detach intact.wired v)
    have other : Link.model b ≠ .attachment v := by simp
    exact slotAt_plug_other s id (intact.detach v).wired.sound _ (link_attachmentPorts v c) rfl
      other

end Models

/-- Binding a view concerns no slot at a model. -/
theorem slotAt_bindView (tidy : Tidy w) (c : Nat) (v : Option Nat) {b : Nat} {s : SignalRef}
    {id : ConnectionId} : (bindView c v w).slotAt s id = some (.controllerData b) ↔
      w.slotAt s id = some (.controllerData b) := by
  have elsewhere : Link.model b ≠ .view c := by simp
  have torn := tidy.tornView (c := c) v (w.controller c).view
  have leaving : (leaveOld c (w.controller c).view (tearView c v
      (holdOld (w.controller c).view w))).slotAt s id = some (.controllerData b) ↔
      w.slotAt s id = some (.controllerData b) := by
    refine (slotAt_leaveOld torn.wired (tidy.toPlain.tearView c v _) _).trans ?_
    have link : (Slot.controllerData b : Slot σ).link? = some (.model b) := rfl
    refine (slotAt_cut_other s id (tidy.intact.holdOld (w.controller c).view).wired
      (signal_updateController _ c (f := rebindView v) fun _ => ⟨rfl, rfl, rfl⟩) link
      elsewhere).trans ?_
    rw [slotAt, signal_holdOld]
    exact Iff.rfl
  have left := torn.leaveOld c (w.controller c).view
  obtain ⟨alive, bound⟩ := bound_of_left tidy (bonds_left v (w.controller c).view c)
  cases v with
  | none => exact leaving
  | some v =>
      refine (slotAt_attachTo (left.tieView alive bound) v).trans (Iff.trans ?_ leaving)
      rw [tieView, slotAt, signal_updateController _ c (by exact fun _ => ⟨rfl, rfl, rfl⟩)]
      exact slotAt_plug_other s id left.wired.sound _ (link_viewPorts c v) rfl
        elsewhere

/-! ## What binding leaves aside -/

/-- Threads, queues and what is the client's are the same. -/
structure Aside (w w' : Ensemble σ ε) : Prop where
  thread : w'.thread = w.thread
  client : w'.client = w.client
  queues : ∀ d, w'.dispatcher d = w.dispatcher d

namespace Aside

theorem refl (w : Ensemble σ ε) : Aside w w := ⟨rfl, rfl, fun _ => rfl⟩

theorem trans {w'' : Ensemble σ ε} (first : Aside w w') (second : Aside w' w'') : Aside w w'' where
  thread := second.thread.trans first.thread
  client := second.client.trans first.client
  queues d := (second.queues d).trans (first.queues d)

theorem cut (lines : List (Subscription σ)) (f : Controller σ → Controller σ) :
    Aside w (cutAll lines (updateController c f w)) :=
  have only := onlySignals_cutAll lines (updateController c f w)
  ⟨only.thread, only.client, only.dispatcher⟩

theorem plug (d : Delivery) (ports : List (SignalRef × Slot σ)) (f : Controller σ → Controller σ) :
    Aside w (updateController c f (plugAll d ports w).2) :=
  have only := onlySignals_plugAll d ports w
  ⟨only.thread, only.client, only.dispatcher⟩

theorem detach (v : Nat) : Aside w (detach v w) :=
  have only := onlySignals_cutAll (w.lines (.attachment v)) (updateView v (reattach none) w)
  ⟨only.thread, only.client, only.dispatcher⟩

theorem attachTo (v : Nat) : Aside w (attachTo v c w) := by
  unfold Ensemble.attachTo
  split
  · exact .refl w
  · have only := onlySignals_plugAll .direct (attachmentPorts v c) (Ensemble.detach v w)
    exact (Aside.detach v).trans ⟨only.thread, only.client, only.dispatcher⟩

theorem holdOld (old : Option Nat) : Aside w (holdOld old w) := by
  cases old <;> exact ⟨rfl, rfl, fun _ => rfl⟩

theorem leaveOld (plain : Plain w) (old : Option Nat) : Aside w (leaveOld c old w) := by
  cases old with
  | none => exact .refl w
  | some v =>
      rw [plain.leaveOld_some]
      unfold freeView
      split
      · have detached := Aside.detach (w := w) v
        exact ⟨detached.thread, detached.client, detached.queues⟩
      · exact ⟨rfl, rfl, fun _ => rfl⟩

theorem bindModel (c : Nat) (m : Option Nat) : Aside w (bindModel c m w) := by
  have torn : Aside w (tearModel c m w) := .cut _ _
  cases m with
  | none => exact torn
  | some m => exact torn.trans (.plug _ _ _)

theorem bindView (plain : Plain w) (c : Nat) (v : Option Nat) : Aside w (bindView c v w) := by
  have torn : Aside w (tearView c v (Ensemble.holdOld (w.controller c).view w)) :=
    (Aside.holdOld _).trans (.cut _ _)
  have left := torn.trans (Aside.leaveOld (c := c) (plain.tearView c v _) (w.controller c).view)
  cases v with
  | none => exact left
  | some v => exact (left.trans (.plug _ _ _)).trans (.attachTo v)

end Aside

/-- A controller that has bound a model differs from before in it, and in lines. -/
theorem bonds_bindModel (c : Nat) (m : Option Nat) (b : Nat) :
    unlined ((bindModel c m w).controller b).bonds =
      unlined ((updateController c (rebindModel m) w).controller b).bonds := by
  have torn := congrArg unlined ((onlySignals_cutAll (w.lines (.model c))
    (updateController c (rebindModel m) w)).bonds b)
  cases m with
  | none => exact torn
  | some m =>
      refine Eq.trans ?_ torn
      refine (blind_updateController _ c (lineModel _) (fun o => unlined o.bonds)
        (fun _ => rfl) b).trans ?_
      exact congrArg unlined ((onlySignals_plugAll _ _ _).bonds b)

/-- A controller that has bound a view differs from before in it, and in lines. -/
theorem bonds_bindView (c : Nat) (v : Option Nat) (b : Nat) :
    unlined ((bindView c v w).controller b).bonds =
      unlined ((updateController c (rebindView v) w).controller b).bonds := by
  have left := congrArg unlined (bonds_left (w := w) (c := c) v (w.controller c).view b)
  cases v with
  | none => exact left
  | some v =>
      refine Eq.trans ?_ left
      refine (congrArg unlined (bonds_attachTo v c _ b)).trans ?_
      refine (blind_updateController _ c (lineView _) (fun o => unlined o.bonds)
        (fun _ => rfl) b).trans ?_
      exact congrArg unlined ((onlySignals_plugAll _ _ _).bonds b)

theorem parts_bindModel (c : Nat) (m : Option Nat) (b : Nat) :
    ((bindModel c m w).controller b).dispatcher = (w.controller b).dispatcher ∧
      ((bindModel c m w).controller b).view = (w.controller b).view ∧
      ((bindModel c m w).controller b).model = if b = c then m else (w.controller b).model := by
  have same := bonds_bindModel (w := w) c m b
  have dispatcher := congrArg Controller.dispatcher same
  have view := congrArg Controller.view same
  have model := congrArg Controller.model same
  rw [controller_updateController] at dispatcher view model
  split at model
  · next here =>
      subst here
      rw [if_pos rfl] at dispatcher view
      exact ⟨dispatcher, view, by rw [if_pos rfl]; exact model⟩
  · next other =>
      rw [if_neg other] at dispatcher view
      exact ⟨dispatcher, view, by rw [if_neg other]; exact model⟩

theorem parts_bindView (c : Nat) (v : Option Nat) (b : Nat) :
    ((bindView c v w).controller b).dispatcher = (w.controller b).dispatcher ∧
      ((bindView c v w).controller b).model = (w.controller b).model ∧
      ((bindView c v w).controller b).view = if b = c then v else (w.controller b).view := by
  have same := bonds_bindView (w := w) c v b
  have dispatcher := congrArg Controller.dispatcher same
  have model := congrArg Controller.model same
  have view := congrArg Controller.view same
  rw [controller_updateController] at dispatcher model view
  split at view
  · next here =>
      subst here
      rw [if_pos rfl] at dispatcher model
      exact ⟨dispatcher, model, by rw [if_pos rfl]; exact view⟩
  · next other =>
      rw [if_neg other] at dispatcher model
      exact ⟨dispatcher, model, by rw [if_neg other]; exact view⟩

theorem settled_bindModel (tidy : Tidy w) (c : Nat) (m : Option Nat) :
    StaySettled w (bindModel c m w) := by
  have torn := untouched_tearModel c m w
  cases m with
  | none => exact torn.settled
  | some m =>
      have tied := untouched_tieModel c m (tidy.tornModel (c := c) (some m)).wired.sound
      exact (torn.trans tied).settled

theorem settled_bindView (tidy : Tidy w) (c : Nat) (v : Option Nat) :
    StaySettled w (bindView c v w) := by
  have torn := tidy.tornView (c := c) v (w.controller c).view
  have left := torn.leaveOld c (w.controller c).view
  obtain ⟨alive, bound⟩ := bound_of_left tidy (bonds_left v (w.controller c).view c)
  have leaving : StaySettled w (leaveOld c (w.controller c).view
      (tearView c v (holdOld (w.controller c).view w))) := fun P s id own =>
    (untouched_leaveOld torn c _).settled P s id
      (settled_tearView c v _ P s id ((untouched_holdOld _ w).settled P s id own))
  cases v with
  | none => exact leaving
  | some v =>
      have joining := (untouched_tieView c v left.wired.sound).trans
        (untouched_attachTo v c (left.tieView alive bound))
      exact fun P s id own => joining.settled P s id (leaving P s id own)

end Ensemble

end Mvc
