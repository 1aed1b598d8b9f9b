import Mvc.Proofs.Passages
import Mvc.Proofs.Rebinding

/-! # Moorings of a controller

A controller that is held is moored if it listens to one model at most, by a connection that it
knows, if no other slot of its kind is connected, and if the model that is bound to it is open.
No subscription of anybody else ends its connection: each one is a line of another link, or the
client's own, now and ever.

Most of what happens around a controller is quiet: the controller stays moored, and it stands as
it did. Only its own steps change how it stands, and they leave it moored.
-/

namespace Mvc.Ensemble

open Proc

variable {σ ε : Type}

/-- A subscription is a line of a link, now and ever. -/
def IsLine (w : Ensemble σ ε) (l : Link) (line : Subscription σ) : Prop :=
  ∃ s id, line = .connection s id ∧ (w.signal s).Settled (fun k => k.link? = some l) id

/-- A subscription is no line to the model of a controller, now and ever. -/
def Apart (c : Nat) (w : Ensemble σ ε) (line : Subscription σ) : Prop :=
  ∀ s id, line = .connection s id →
    (w.signal s).Settled (fun k => k.link? ≠ some (.model c)) id

/-- A controller listens to one model at most, and knows how. -/
structure Moored (c : Nat) (w : Ensemble σ ε) : Prop where
  sound : ∀ s, (w.signal s).Sound
  lines : ∀ l, ∀ line ∈ w.lines l, w.IsLine l line
  own : ∀ b s id, .connection s id ∈ (w.controller b).bindings → w.Own s id
  held : (w.controller c).held = true
  opened : ∀ m, (w.controller c).model = some m → (w.signal (.modelData m)).closed = false
  booked : ∀ s id, w.slotAt s id = some (.controllerData c) →
    .connection s id ∈ w.lines (.model c)
  plugged : w.lines (.model c) = [] ∨ ∃ m id,
    w.lines (.model c) = [.connection (.modelData m) id] ∧
      ((w.signal (.modelData m)).closed = true ∨
        w.slotAt (.modelData m) id = some (.controllerData c))

/-- A controller stays moored, and it stands as it did. -/
structure Quiet (c : Nat) (w w' : Ensemble σ ε) : Prop where
  moored : Moored c w'
  settled : StaySettled w w'
  standing : (w'.controller c).standing = (w.controller c).standing
  client : w'.client = w.client

variable {c : Nat} {w w' w'' : Ensemble σ ε}

theorem IsLine.later {l : Link} {line : Subscription σ} (is : w.IsLine l line)
    (settled : StaySettled w w') : w'.IsLine l line := by
  obtain ⟨s, id, same, before⟩ := is
  exact ⟨s, id, same, settled _ s id before⟩

theorem Apart.later {line : Subscription σ} (apart : Apart c w line)
    (settled : StaySettled w w') : Apart c w' line :=
  fun s id same => settled _ s id (apart s id same)

theorem IsLine.apart {l : Link} {line : Subscription σ} (is : w.IsLine l line)
    (other : l ≠ .model c) : Apart c w line := by
  obtain ⟨s, id, rfl, settled⟩ := is
  intro _ _ same
  cases same
  refine settled.imp fun k link => ?_
  rw [link]
  exact fun h => other (Option.some.inj h)

theorem Own.apart {line : Subscription σ}
    (own : ∀ s id, line = .connection s id → w.Own s id) : Apart c w line :=
  fun s id same => (own s id same).imp fun k client => by
    rw [Option.isNone_iff_eq_none.mp client]
    simp

theorem IsLine.isConnection {l : Link} {line : Subscription σ} (is : w.IsLine l line) :
    line.isConnection = true := by
  obtain ⟨s, id, rfl, -⟩ := is
  rfl

/-- What plugs the ports of a link is a line of it. -/
theorem isLine_of_plugged {l : Link} {ports : List (SignalRef × Slot σ)}
    {lines : List (Subscription σ)} (plugged : List.Forall₂ (w.Plugged l) ports lines) :
    ∀ line ∈ lines, w.IsLine l line := by
  induction plugged with
  | nil => simp
  | cons first rest ih =>
      obtain ⟨link, id, rfl, there⟩ := first
      refine List.forall_mem_cons.mpr ⟨⟨_, id, rfl, ?_⟩, ih⟩
      exact there.imp_right fun named => .inr ⟨_, named, link⟩

namespace Quiet

theorem refl (moored : Moored c w) : Quiet c w w := ⟨moored, fun _ _ _ h => h, rfl, rfl⟩

theorem trans (first : Quiet c w w') (second : Quiet c w' w'') : Quiet c w w'' where
  moored := second.moored
  settled P s id h := second.settled P s id (first.settled P s id h)
  standing := second.standing.trans first.standing
  client := second.client.trans first.client

end Quiet

/-! ## Another model to listen to -/

section Retying

variable (c) (m : Nat) (v : Ensemble σ ε)

/-- A controller listens to a model, and no longer to what it listened to. -/
def retieModel : Ensemble σ ε := cutAll (v.lines (.model c)) (tieModel c m v)

/-- The line by which it listens. -/
def modelLine : Subscription σ :=
  (plug (modelDelivery v c) (.modelData m, .controllerData c) v).1

theorem signal_tieModel (s : SignalRef) : (tieModel c m v).signal s =
    (plug (modelDelivery v c) (.modelData m, .controllerData c) v).2.signal s :=
  signal_updateController _ c (f := lineModel [modelLine c m v]) (fun _ => ⟨rfl, rfl, rfl⟩) s

theorem closed_retieModel (s : SignalRef) :
    ((retieModel c m v).signal s).closed = (v.signal s).closed := by
  rw [retieModel, closed_cutAll, signal_tieModel, closed_plug]

theorem sound_retieModel (sound : ∀ s, (v.signal s).Sound) (s : SignalRef) :
    ((retieModel c m v).signal s).Sound := by
  refine sound_cutAll _ _ (fun s => ?_) s
  rw [signal_tieModel]
  exact sound_plug _ _ v sound s

theorem staySettled_retied :
    StaySettled (plug (modelDelivery v c) (.modelData m, .controllerData c) v).2
      (retieModel c m v) := fun P s id before =>
  settled_cutAll _ _ (by rwa [signal_tieModel])

theorem staySettled_retieModel (sound : ∀ s, (v.signal s).Sound) :
    StaySettled v (retieModel c m v) := fun P s id before =>
  staySettled_retied c m v P s id (settled_plug _ _ v sound before)

/-- What was not cut names what it named, and the new connection names the controller's slot. -/
theorem slotAt_retieModel (sound : ∀ s, (v.signal s).Sound) {s : SignalRef} {id : ConnectionId}
    {k : Slot σ} : (retieModel c m v).slotAt s id = some k ↔
      .connection s id ∉ v.lines (.model c) ∧ (v.slotAt s id = some k ∨
        ((v.signal s).closed = false ∧ modelLine c m v = .connection s id ∧
          ((.modelData m, .controllerData c) : SignalRef × Slot σ) = (s, k))) := by
  have slots : (tieModel c m v).slotAt s id = _ := congrArg (·.slot? id) (signal_tieModel c m v s)
  rw [retieModel, slotAt_cutAll, slots]
  exact and_congr_right fun _ => slotAt_plug _ _ v sound

/-- But for the lines to its model, a controller is as it was. -/
theorem of_controller_retieModel {α : Type} (g : Controller σ → α)
    (deaf : ∀ o, g o.silent = g o) (unlined : ∀ o lines, g (lineModel lines o) = g o) (b : Nat) :
    g ((retieModel c m v).controller b) = g (v.controller b) := by
  rw [retieModel, (onlySignals_cutAll _ _).of_controller g deaf, tieModel,
    blind_updateController _ c _ g fun o => unlined o _]
  exact (onlySignals_plug _ _ v).of_controller g deaf b

theorem client_retieModel : (retieModel c m v).client = v.client :=
  (onlySignals_cutAll _ _).client.trans (onlySignals_plug _ _ v).client

theorem standing_retieModel : ((retieModel c m v).controller c).standing =
    { (v.controller c).standing with listening := some m } := by
  rw [retieModel, (onlySignals_cutAll _ _).of_controller Controller.standing fun _ => rfl,
    tieModel, controller_updateController_self,
    ← (onlySignals_plug _ _ v).of_controller Controller.standing (fun _ => rfl) c]
  rfl

theorem lines_retieModel : (retieModel c m v).lines (.model c) = [modelLine c m v] := by
  rw [retieModel, ((onlySignals_cutAll _ _).sameLink _).2]
  simp only [Ensemble.lines, tieModel, controller_updateController_self, lineModel]
  rfl

theorem lines_retieModel_ne {l : Link} (other : l ≠ .model c) :
    (retieModel c m v).lines l = v.lines l := by
  have plugging := onlySignals_plug (modelDelivery v c) (.modelData m, .controllerData c) v
  have same := sameLink_updateController (plugAll (modelDelivery v c) (modelPorts c m) v).2 c
    (l := l) (f := lineModel [modelLine c m v]) (fun is => absurd is other) fun _ _ => ⟨rfl, rfl⟩
  rw [retieModel, ((onlySignals_cutAll _ _).sameLink l).2]
  exact same.2.trans (plugging.sameLink l).2

theorem isLine_modelLine (sound : ∀ s, (v.signal s).Sound) :
    (retieModel c m v).IsLine (.model c) (modelLine c m v) := by
  have plugged := plugged_plugAll (modelDelivery v c) _ v sound (link_modelPorts c m)
  exact (isLine_of_plugged plugged _ List.mem_cons_self).later (staySettled_retied c m v)

end Retying

namespace Moored

variable (moored : Moored c w)
include moored

theorem slot_ne {line : Subscription σ} (apart : Apart c w line) {s : SignalRef}
    {id : ConnectionId} (same : line = .connection s id) :
    w.slotAt s id ≠ some (.controllerData c) :=
  fun named => (apart s id same).property (moored.sound s) named rfl

theorem isConnection (l : Link) : ∀ line ∈ w.lines l, line.isConnection = true :=
  fun line member => (moored.lines l line member).isConnection

theorem apart {l : Link} (other : l ≠ .model c) : ∀ line ∈ w.lines l, Apart c w line :=
  fun line member => (moored.lines l line member).apart other

theorem apart_bindings (b : Nat) : ∀ line ∈ (w.controller b).bindings, Apart c w line := by
  rintro line member
  exact Own.apart fun s id same => moored.own b s id (same ▸ member)

/-! ## What leaves a controller moored -/

/-- The controller keeps its model and its line, with the slot there, and no other slot of its
    kind is connected. -/
theorem change (sound : ∀ s, (w'.signal s).Sound) (settled : StaySettled w w')
    (lines : ∀ l, ∀ line ∈ w'.lines l, line ∈ w.lines l ∨ w'.IsLine l line)
    (own : ∀ b s id, .connection s id ∈ (w'.controller b).bindings →
      .connection s id ∈ (w.controller b).bindings ∨ w'.Own s id)
    (held : (w'.controller c).held = (w.controller c).held)
    (model : (w'.controller c).model = (w.controller c).model)
    (same : w'.lines (.model c) = w.lines (.model c))
    (opened : ∀ m, (w.controller c).model = some m → (w'.signal (.modelData m)).closed = false)
    (closed : ∀ s, (w.signal s).closed = true → (w'.signal s).closed = true)
    (kept : ∀ s id, w.slotAt s id = some (.controllerData c) →
      (w'.signal s).closed = true ∨ w'.slotAt s id = some (.controllerData c))
    (made : ∀ s id, w'.slotAt s id = some (.controllerData c) →
      w.slotAt s id = some (.controllerData c)) : Moored c w' where
  sound := sound
  lines l line member := (lines l line member).elim
    (fun before => (moored.lines l line before).later settled) id
  own b s id member := (own b s id member).elim
    (fun before => settled _ s id (moored.own b s id before)) fun own => own
  held := held.trans moored.held
  opened m bound := opened m (model ▸ bound)
  booked s id named := by
    rw [same]
    exact moored.booked s id (made s id named)
  plugged := by
    rw [same]
    refine moored.plugged.imp_right fun ⟨m, id, line, there⟩ => ⟨m, id, line, ?_⟩
    exact there.elim (fun shut => .inl (closed _ shut)) (kept _ id)

/-- All that matters is the same, whatever the client's own state is. -/
theorem of_parts {δ : Type} {v : Ensemble σ δ} (signals : ∀ s, v.signal s = w.signal s)
    (lines : ∀ l, v.lines l = w.lines l) (controllers : ∀ b, v.controller b = w.controller b) :
    Moored c v where
  sound s := signals s ▸ moored.sound s
  lines l line member := by
    obtain ⟨s, id, same, settled⟩ := moored.lines l line (lines l ▸ member)
    exact ⟨s, id, same, by rwa [signals]⟩
  own b s id member := by
    rw [Own, signals]
    exact moored.own b s id (controllers b ▸ member)
  held := controllers c ▸ moored.held
  opened m bound := by
    rw [signals]
    exact moored.opened m (controllers c ▸ bound)
  booked s id named := by
    rw [slotAt, signals] at named
    rw [lines]
    exact moored.booked s id named
  plugged := by
    simp only [lines, slotAt, signals]
    exact moored.plugged

/-- Signals are the same. -/
theorem of_signals (signals : ∀ s, w'.signal s = w.signal s)
    (lines : ∀ l, ∀ line ∈ w'.lines l, line ∈ w.lines l ∨ w'.IsLine l line)
    (own : ∀ b s id, .connection s id ∈ (w'.controller b).bindings →
      .connection s id ∈ (w.controller b).bindings ∨ w'.Own s id)
    (held : (w'.controller c).held = (w.controller c).held)
    (model : (w'.controller c).model = (w.controller c).model)
    (same : w'.lines (.model c) = w.lines (.model c)) : Moored c w' := by
  have slots : ∀ s id, w'.slotAt s id = w.slotAt s id := fun s id => by
    rw [slotAt, signals]
    rfl
  refine moored.change (fun s => signals s ▸ moored.sound s) (fun P s id h => by rwa [signals])
    lines own held model same (fun m bound => ?_) (fun s h => by rwa [signals]) ?_ ?_
  · rw [signals]
    exact moored.opened m bound
  · exact fun s id named => .inr (by rw [slots, named])
  · exact fun s id named => by rwa [slots] at named

/-- Nothing but signals differs. -/
theorem of_onlySignals (only : OnlySignals w w') (sound : ∀ s, (w'.signal s).Sound)
    (settled : StaySettled w w')
    (opened : ∀ m, (w.controller c).model = some m → (w'.signal (.modelData m)).closed = false)
    (closed : ∀ s, (w.signal s).closed = true → (w'.signal s).closed = true)
    (kept : ∀ s id, w.slotAt s id = some (.controllerData c) →
      (w'.signal s).closed = true ∨ w'.slotAt s id = some (.controllerData c))
    (made : ∀ s id, w'.slotAt s id = some (.controllerData c) →
      w.slotAt s id = some (.controllerData c)) : Quiet c w w' := by
  refine ⟨moored.change sound settled ?_ ?_ ?_ ?_ ?_ opened closed kept made, settled, ?_,
    only.client⟩
  · exact fun l line member => .inl ((only.sameLink l).2 ▸ member)
  · intro b s id member
    rw [only.of_controller (·.bindings) fun _ => rfl] at member
    exact .inl member
  · exact only.of_controller (·.held) (fun _ => rfl) c
  · exact only.of_controller (·.model) (fun _ => rfl) c
  · exact (only.sameLink (.model c)).2
  · exact only.of_controller Controller.standing (fun _ => rfl) c

/-! ## Signals -/

/-- One signal is replaced. -/
theorem setSignal {s : SignalRef} {x : Signal (Slot σ)} (sound : x.Sound)
    (settled : ∀ (P : Slot σ → Prop) id, (w.signal s).Settled P id → x.Settled P id)
    (opened : ∀ m, s = .modelData m → (w.controller c).model = some m → x.closed = false)
    (closed : (w.signal s).closed = true → x.closed = true)
    (kept : ∀ id, w.slotAt s id = some (.controllerData c) →
      x.closed = true ∨ x.slot? id = some (.controllerData c))
    (made : ∀ id, x.slot? id = some (.controllerData c) →
      w.slotAt s id = some (.controllerData c)) : Quiet c w (Ensemble.setSignal s x w) := by
  refine moored.of_onlySignals (.setSignal w s x) ?_ ?_ ?_ ?_ ?_ ?_
  · intro t
    rw [signal_setSignal]
    split
    · exact sound
    · exact moored.sound t
  · intro P t id before
    rw [signal_setSignal]
    split
    · next same => exact settled P id (same ▸ before)
    · exact before
  · intro m bound
    rw [signal_setSignal]
    split
    · next same => exact opened m same.symm bound
    · exact moored.opened m bound
  · intro t before
    rw [signal_setSignal]
    split
    · next same => exact closed (same ▸ before)
    · exact before
  · intro t id named
    rw [signal_setSignal, slotAt_setSignal]
    split
    · next same => exact kept id (same ▸ named)
    · exact .inr named
  · intro t id named
    rw [slotAt_setSignal] at named
    split at named
    · next same => exact same ▸ made id named
    · exact named

theorem plugAll (d : Delivery) (ports : List (SignalRef × Slot σ))
    (other : ∀ port ∈ ports, port.2.link? ≠ some (.model c)) :
    Quiet c w (Ensemble.plugAll d ports w).2 := by
  refine moored.of_onlySignals (onlySignals_plugAll d ports w)
    (sound_plugAll d ports w moored.sound) (fun P s id => settled_plugAll d ports w moored.sound)
    ?_ ?_ ?_ ?_
  · exact fun m bound => by rw [closed_plugAll, moored.opened m bound]
  · exact fun s closed => by rw [closed_plugAll, closed]
  · exact fun s id named => .inr (slotAt_plugAll_kept d ports w moored.sound named)
  · intro s id named
    refine (slotAt_plugAll_made d ports w moored.sound named).resolve_right ?_
    rintro ⟨port, -⟩
    exact other _ port rfl

theorem connect (s : SignalRef) {k : Slot σ} (client : k.isClient = true) (d : Delivery) :
    Quiet c w (Ensemble.setSignal s ((w.signal s).connect k d).2 w) := by
  refine moored.plugAll d [(s, k)] fun port member => ?_
  rw [List.mem_singleton.mp member, Option.isNone_iff_eq_none.mp client]
  simp

/-- A connection is removed that is not the controller's. -/
theorem cut (line : Subscription σ)
    (other : ∀ s id, line = .connection s id → w.slotAt s id ≠ some (.controllerData c)) :
    Quiet c w (Ensemble.cut line w) := by
  refine moored.of_onlySignals (onlySignals_cut line w) (sound_cut line w moored.sound)
    (fun P s id => settled_cut line w) ?_ ?_ ?_ ?_
  · exact fun m bound => by rw [closed_cut, moored.opened m bound]
  · exact fun s closed => by rw [closed_cut, closed]
  · exact fun s id named => .inr ((slotAt_cut line w).mpr
      ⟨fun same => other s id same named, named⟩)
  · exact fun s id named => ((slotAt_cut line w).mp named).2

theorem cutAll {lines : List (Subscription σ)} (apart : ∀ line ∈ lines, Apart c w line) :
    Quiet c w (Ensemble.cutAll lines w) := by
  induction lines generalizing w with
  | nil => exact .refl moored
  | cons line rest ih =>
      have first := moored.cut line fun s id => moored.slot_ne (apart line List.mem_cons_self)
      refine first.trans (ih first.moored fun other member => ?_)
      exact (apart other (List.mem_cons_of_mem _ member)).later first.settled

theorem disconnectAll {s : SignalRef}
    (clients : (w.signal s).connections.all (fun c => c.2.slot.isClient) = true) :
    Quiet c w (Ensemble.setSignal s (w.signal s).disconnectAll w) := by
  have sound := moored.sound s
  refine moored.setSignal sound.disconnectAll (fun P id h => h.disconnectAll sound) ?_
    (fun h => h) ?_ ?_
  · rintro m rfl bound
    exact moored.opened m bound
  · intro id named
    obtain ⟨entry, there, slot⟩ := Option.map_eq_some_iff.mp named
    have client := List.all_eq_true.mp clients _ (Registry.mem_entries.mpr there)
    rw [slot] at client
    cases client
  · intro id named
    rw [Signal.slot?_disconnectAll sound] at named
    cases named

theorem setBlocked (s : SignalRef) (blocked : Bool) :
    Quiet c w (Ensemble.setSignal s ((w.signal s).setBlocked blocked) w) := by
  have sound := moored.sound s
  refine moored.setSignal ⟨sound.registry, sound.closed⟩ (fun _ _ h => h) ?_ (fun h => h)
    (fun _ named => .inr named) fun _ named => named
  rintro m rfl bound
  exact moored.opened m bound

theorem close {s : SignalRef} (free : ∀ m, s = .modelData m → (w.controller c).model ≠ some m) :
    Quiet c w (Ensemble.setSignal s (w.signal s).close w) := by
  refine moored.setSignal (Signal.sound_close _) (fun _ _ _ => Signal.settled_close _ _ _) ?_
    (fun _ => rfl) (fun _ _ => .inl rfl) fun id named => ?_
  · exact fun m same bound => absurd bound (free m same)
  · rw [Signal.slot?_close] at named
    cases named

/-! ## Objects -/

/-- Neither signals nor controllers nor attachments differ. -/
theorem of_same (signals : ∀ s, w'.signal s = w.signal s)
    (controllers : ∀ b, w'.controller b = w.controller b)
    (attachment : ∀ v, (w'.view v).attachment = (w.view v).attachment)
    (client : w'.client = w.client) : Quiet c w w' := by
  have lines : ∀ l, w'.lines l = w.lines l := by
    intro l
    cases l with
    | model b | view b => simp only [Ensemble.lines, controllers]
    | attachment v => simp only [Ensemble.lines, attachment]
  refine ⟨moored.of_signals signals ?_ ?_ ?_ ?_ (lines _), ?_, ?_, client⟩
  · exact fun l line member => .inl (lines l ▸ member)
  · exact fun b s id member => .inl (controllers b ▸ member)
  · rw [controllers]
  · rw [controllers]
  · exact fun P s id h => by rwa [signals]
  · rw [controllers]

omit moored in
theorem staySettled_updateController (b : Nat) {f : Controller σ → Controller σ}
    (spared : ∀ o, (f o).phaseChanged = o.phaseChanged ∧ (f o).errorOccurred = o.errorOccurred ∧
      (f o).operationCompleted = o.operationCompleted) :
    StaySettled w (Ensemble.updateController b f w) := fun P s id h => by
  rwa [signal_updateController w b spared]

/-- A controller changes, but not its signals; the one that is moored keeps its model and its
    line to it. -/
theorem updateController {b : Nat} {f : Controller σ → Controller σ}
    (spared : ∀ o, (f o).phaseChanged = o.phaseChanged ∧ (f o).errorOccurred = o.errorOccurred ∧
      (f o).operationCompleted = o.operationCompleted)
    (modelLines : ∀ line ∈ (f (w.controller b)).modelSubscriptions,
      line ∈ w.lines (.model b) ∨ w.IsLine (.model b) line)
    (viewLines : ∀ line ∈ (f (w.controller b)).viewSubscriptions,
      line ∈ w.lines (.view b) ∨ w.IsLine (.view b) line)
    (own : ∀ s id, .connection s id ∈ (f (w.controller b)).bindings →
      .connection s id ∈ (w.controller b).bindings ∨ w.Own s id)
    (here : b = c → (f (w.controller b)).held = (w.controller b).held ∧
      (f (w.controller b)).model = (w.controller b).model ∧
      (f (w.controller b)).modelSubscriptions = (w.controller b).modelSubscriptions) :
    Moored c (Ensemble.updateController b f w) := by
  have signals := signal_updateController w b spared
  have isLine : ∀ {l line}, w.IsLine l line → (Ensemble.updateController b f w).IsLine l line :=
    fun is => is.later fun P s id h => by rwa [signals]
  refine moored.of_signals signals ?_ ?_ ?_ ?_ ?_
  · intro l line member
    cases l with
    | model a =>
        simp only [Ensemble.lines, controller_updateController] at member ⊢
        split at member
        · next same =>
            subst same
            exact (modelLines line member).imp_right isLine
        · exact .inl member
    | view a =>
        simp only [Ensemble.lines, controller_updateController] at member ⊢
        split at member
        · next same =>
            subst same
            exact (viewLines line member).imp_right isLine
        · exact .inl member
    | attachment v => exact .inl member
  · intro a s id member
    rw [Own, signals]
    rw [controller_updateController] at member
    split at member
    · next same => exact same ▸ own s id member
    · exact .inl member
  all_goals
    simp only [Ensemble.lines, controller_updateController]
    split
    · next same =>
        obtain ⟨held, model, lines⟩ := here same.symm
        simp [held, model, lines, same]
    · rfl

/-- And the one that is moored stands as it did. -/
theorem touch {b : Nat} {f : Controller σ → Controller σ}
    (spared : ∀ o, (f o).phaseChanged = o.phaseChanged ∧ (f o).errorOccurred = o.errorOccurred ∧
      (f o).operationCompleted = o.operationCompleted)
    (modelLines : ∀ line ∈ (f (w.controller b)).modelSubscriptions,
      line ∈ w.lines (.model b) ∨ w.IsLine (.model b) line)
    (viewLines : ∀ line ∈ (f (w.controller b)).viewSubscriptions,
      line ∈ w.lines (.view b) ∨ w.IsLine (.view b) line)
    (own : ∀ s id, .connection s id ∈ (f (w.controller b)).bindings →
      .connection s id ∈ (w.controller b).bindings ∨ w.Own s id)
    (here : b = c → (f (w.controller b)).held = (w.controller b).held ∧
      (f (w.controller b)).modelSubscriptions = (w.controller b).modelSubscriptions ∧
      (f (w.controller b)).standing = (w.controller b).standing) :
    Quiet c w (Ensemble.updateController b f w) := by
  refine ⟨moored.updateController spared modelLines viewLines own fun same => ?_,
    staySettled_updateController b spared, ?_, rfl⟩
  · obtain ⟨held, lines, standing⟩ := here same
    exact ⟨held, congrArg (·.pair.model) standing, lines⟩
  · rw [controller_updateController]
    split
    · next same =>
        subst same
        exact (here rfl).2.2
    · rfl

/-- Who holds a controller changes, or how far it is in its lifecycle, but not that of the moored
    controller. -/
theorem lifecycle (b : Nat) (pins : Controller σ → Nat)
    (held initialized closing : Controller σ → Bool) (here : b = c → ∀ o,
      held o = o.held ∧ initialized o = o.initialized ∧ closing o = o.closing) :
    Quiet c w (Ensemble.updateController b (fun o =>
      { o with
        held := held o, pins := pins o, initialized := initialized o
        closing := closing o }) w) := by
  refine moored.touch (fun _ => ⟨rfl, rfl, rfl⟩) (fun _ => .inl) (fun _ => .inl)
    (fun _ _ => .inl) fun same => ?_
  simp only [Controller.standing, Controller.pair, Controller.listening, here same, and_self]

theorem holders (pins : Controller σ → Nat) : Moored c (Ensemble.holders c (·.held) pins w) :=
  (moored.lifecycle c pins (·.held) (·.initialized) (·.closing) fun _ _ => ⟨rfl, rfl, rfl⟩).moored

/-- Another controller has other bindings, of its client's own. -/
theorem bindings {b : Nat} (other : b ≠ c) {bindings : List (Subscription σ)}
    (own : ∀ s id, .connection s id ∈ bindings → w.Own s id) :
    Quiet c w (Ensemble.updateController b (fun o => { o with bindings }) w) :=
  moored.touch (fun _ => ⟨rfl, rfl, rfl⟩) (fun _ => .inl) (fun _ => .inl)
    (fun s id member => .inr (own s id member)) fun same => absurd same other

/-- Another controller has another model, and no line to it yet. -/
theorem rebindModel {b : Nat} (other : b ≠ c) (m : Option Nat) :
    Quiet c w (Ensemble.updateController b (Ensemble.rebindModel m) w) :=
  moored.touch (fun _ => ⟨rfl, rfl, rfl⟩) (fun _ member => by cases member) (fun _ => .inl)
    (fun _ _ member => by cases member) fun same => absurd same other

/-- Another controller has lines to its model. -/
theorem lineModel {b : Nat} (other : b ≠ c) {lines : List (Subscription σ)}
    (are : ∀ line ∈ lines, w.IsLine (.model b) line) :
    Quiet c w (Ensemble.updateController b (Ensemble.lineModel lines) w) :=
  moored.touch (fun _ => ⟨rfl, rfl, rfl⟩) (fun line member => .inr (are line member))
    (fun _ => .inl) (fun _ _ => .inl) fun same => absurd same other

/-- Another controller has another view, and no lines to it yet. -/
theorem rebindView {b : Nat} (other : b ≠ c) (v : Option Nat) :
    Quiet c w (Ensemble.updateController b (Ensemble.rebindView v) w) :=
  moored.touch (fun _ => ⟨rfl, rfl, rfl⟩) (fun _ => .inl) (fun _ member => by cases member)
    (fun _ _ member => by cases member) fun same => absurd same other

/-- A controller has lines to its view. -/
theorem lineView (b : Nat) {lines : List (Subscription σ)}
    (are : ∀ line ∈ lines, w.IsLine (.view b) line) :
    Quiet c w (Ensemble.updateController b (Ensemble.lineView lines) w) :=
  moored.touch (fun _ => ⟨rfl, rfl, rfl⟩) (fun _ => .inl)
    (fun line member => .inr (are line member)) (fun _ _ => .inl) fun _ => ⟨rfl, rfl, rfl⟩

/-- Another controller gives up what it has. -/
theorem takeController {b : Nat} (other : b ≠ c) : Quiet c w (Ensemble.takeController b w) :=
  moored.touch (fun _ => ⟨rfl, rfl, rfl⟩) (fun _ member => by cases member)
    (fun _ member => by cases member) (fun _ _ member => by cases member)
    fun same => absurd same other

/-- Signals are closed that are of no model. -/
theorem shut {signals : List SignalRef} (foreign : ∀ m, .modelData m ∉ signals)
    (signal : ∀ s, w'.signal s = if s ∈ signals then (w.signal s).close else w.signal s)
    (lines : ∀ l, ∀ line ∈ w'.lines l, line ∈ w.lines l)
    (controllers : ∀ b, (w'.controller b).silent = (w.controller b).silent)
    (client : w'.client = w.client) : Quiet c w w' := by
  have blind : ∀ {α : Type} (g : Controller σ → α), (∀ o, g o.silent = g o) → ∀ b,
      g (w'.controller b) = g (w.controller b) := fun g deaf b => by
    rw [← deaf, controllers, deaf]
  have slots : ∀ s id k, w'.slotAt s id = some k → s ∉ signals ∧ w.slotAt s id = some k := by
    intro s id k named
    rw [slotAt, signal] at named
    split at named
    · rw [Signal.slot?_close] at named
      cases named
    · next kept => exact ⟨kept, named⟩
  have settled : StaySettled w w' := by
    intro P s id before
    rw [signal]
    split
    · exact .inl rfl
    · exact before
  refine ⟨moored.change ?_ settled ?_ ?_ ?_ ?_ ?_ ?_ ?_ ?_ ?_, settled, ?_, client⟩
  · intro s
    rw [signal]
    split
    · exact Signal.sound_close _
    · exact moored.sound s
  · exact fun l line member => .inl (lines l line member)
  · exact fun b s id member => .inl (blind (·.bindings) (fun _ => rfl) b ▸ member)
  · exact blind (·.held) (fun _ => rfl) c
  · exact blind (·.model) (fun _ => rfl) c
  · exact blind (·.modelSubscriptions) (fun _ => rfl) c
  · intro m bound
    rw [signal, if_neg (foreign m)]
    exact moored.opened m bound
  · intro s closed
    rw [signal]
    split
    · rfl
    · exact closed
  · intro s id named
    by_cases lost : s ∈ signals
    · exact .inl (by rw [signal, if_pos lost]; rfl)
    · exact .inr (by rw [slotAt, signal, if_neg lost]; exact named)
  · exact fun s id named => (slots s id _ named).2
  · exact blind Controller.standing (fun _ => rfl) c

/-- A controller gives up its signals. -/
theorem shutController (b : Nat) : Quiet c w (Ensemble.shutController b w) := by
  have silent : ∀ a, ((Ensemble.shutController b w).controller a).silent =
      (w.controller a).silent := blind_updateController w b _ Controller.silent fun _ => rfl
  refine moored.shut (by simp [controllerSignals]) (signal_shutController b w) ?_ silent rfl
  intro l line member
  have same := sameLink_updateController w b (l := l) (f := fun o =>
      { o with
        phaseChanged := o.phaseChanged.close
        errorOccurred := o.errorOccurred.close
        operationCompleted := o.operationCompleted.close })
    (fun _ _ => ⟨rfl, rfl⟩) fun _ _ => ⟨rfl, rfl⟩
  exact same.2 ▸ member

/-! ## Views -/

/-- A view gives up its signals and its controller. -/
theorem takeView (v : Nat) : Quiet c w (Ensemble.takeView v w) := by
  refine moored.shut (by simp [viewSignals]) (signal_takeView v w) ?_ (fun _ => rfl) rfl
  intro l line member
  cases l with
  | model b | view b => exact member
  | attachment u =>
      simp only [Ensemble.lines, Ensemble.takeView, view_updateView] at member
      split at member
      · cases member
      · exact member

/-- A view is taken apart if nobody holds it. -/
theorem collectView (run : Runner σ ε) (v : Nat) :
    Ends (Ensemble.collectView run v) w fun _ w' => Quiet c w w' := by
  refine (ends_of_eq (collectView_eq run (moored.isConnection _))).mpr ?_
  unfold withoutView
  split
  · exact .refl moored
  · have taken := moored.takeView v
    refine taken.trans (taken.moored.cutAll fun line member => ?_)
    exact (moored.apart (by simp) line member).later taken.settled

/-- A view has another link to a controller. -/
theorem reattach (v : Nat) (attachment : Option (Attachment σ))
    (are : ∀ line ∈ (attachment.map (·.subscriptions)).getD [], w.IsLine (.attachment v) line) :
    Quiet c w (Ensemble.updateView v (Ensemble.reattach attachment) w) := by
  have signals := signal_reattach v attachment w
  refine ⟨moored.of_signals signals ?_ (fun _ _ _ => .inl) rfl rfl rfl,
    fun P s id h => by rwa [signals], rfl, rfl⟩
  intro l line member
  cases l with
  | model b | view b => exact .inl member
  | attachment u =>
      simp only [Ensemble.lines, view_updateView] at member ⊢
      split at member
      · next same =>
          subst same
          exact .inr ((are line member).later fun P s id h => by rwa [signals])
      · exact .inl member

/-- A view changes, but neither its signals nor its link. -/
theorem updateView (v : Nat) {f : View σ → View σ}
    (spared : ∀ o, (f o).userAction = o.userAction ∧ (f o).viewClosing = o.viewClosing ∧
      (f o).viewUpdate = o.viewUpdate)
    (attachment : ∀ o, (f o).attachment = o.attachment) :
    Quiet c w (Ensemble.updateView v f w) :=
  moored.of_same (signal_updateView w v spared) (fun _ => rfl)
    (blind_updateView w v f (·.attachment) attachment) rfl

/-- A view is attached to another controller, or to none. -/
theorem attach (run : Runner σ ε) (v : Nat) (b : Option Nat) :
    Ends (Ensemble.attach run v b) w fun _ w' => Quiet c w w' := by
  refine .get_bind ?_
  dsimp only
  split
  · exact (ends_pure () w _).mpr (.refl moored)
  · have freed := moored.reattach v none fun _ member => by cases member
    have cutting : Quiet c w (Ensemble.detach v w) :=
      freed.trans (freed.moored.cutAll fun line member =>
        (moored.apart (by simp) line member).later freed.settled)
    have released := releaseAll_connections _ (Ensemble.updateView v (Ensemble.reattach none) w)
      run (moored.isConnection (.attachment v))
    refine .modify_bind ?_
    refine .bind_of_eq released ?_
    cases b with
    | none => exact (ends_pure () _ _).mpr cutting
    | some b =>
        refine .bind_of_eq (subscribeToController_eq v b _) ?_
        have links := link_attachmentPorts (σ := σ) v b
        have plugged := cutting.moored.plugAll .direct (attachmentPorts v b)
          fun port member => by simp [links port member]
        refine (ends_modify _ _ _).mpr (cutting.trans (plugged.trans ?_))
        exact plugged.moored.reattach v _ (isLine_of_plugged
          (plugged_plugAll .direct _ _ cutting.moored.sound links))

/-! ## The controller's own steps -/

/-- It gives up its model, or has another, and its line to the old one is cut. -/
theorem tearModel {m : Option Nat}
    (opened : ∀ i, m = some i → (w.signal (.modelData i)).closed = false) :
    Moored c (Ensemble.tearModel c m w) ∧ StaySettled w (Ensemble.tearModel c m w) ∧
      ((Ensemble.tearModel c m w).controller c).standing =
        (w.controller c).standing.withModel m ∧
      (Ensemble.tearModel c m w).client = w.client := by
  have signals := signal_updateController w c (f := Ensemble.rebindModel m)
    fun _ => ⟨rfl, rfl, rfl⟩
  have only := onlySignals_cutAll (w.lines (.model c))
    (Ensemble.updateController c (Ensemble.rebindModel m) w)
  have settled : StaySettled w (Ensemble.tearModel c m w) := fun P s id before =>
    settled_cutAll _ _ (by rwa [signals])
  have here : (Ensemble.updateController c (Ensemble.rebindModel m) w).controller c =
      Ensemble.rebindModel m (w.controller c) := controller_updateController_self ..
  refine ⟨⟨?_, ?_, ?_, ?_, ?_, ?_, .inl ?_⟩, settled, ?_, only.client⟩
  · exact sound_cutAll _ _ fun s => signals s ▸ moored.sound s
  · intro l line member
    rw [Ensemble.tearModel, (only.sameLink l).2] at member
    by_cases torn : l = .model c
    · subst torn
      simp [Ensemble.lines, here, Ensemble.rebindModel] at member
    · have same := sameLink_updateController w c (l := l) (f := Ensemble.rebindModel m)
        (fun is => absurd is torn) fun _ _ => ⟨rfl, rfl⟩
      exact (moored.lines l line (same.2 ▸ member)).later settled
  · intro b s id member
    rw [Ensemble.tearModel, only.of_controller (·.bindings) fun _ => rfl,
      controller_updateController] at member
    split at member
    · cases member
    · exact settled _ s id (moored.own b s id member)
  · rw [Ensemble.tearModel, only.of_controller (·.held) fun _ => rfl, here]
    exact moored.held
  · intro i bound
    rw [Ensemble.tearModel, only.of_controller (·.model) fun _ => rfl, here] at bound
    rw [Ensemble.tearModel, closed_cutAll, signals]
    exact opened i bound
  · intro s id named
    obtain ⟨uncut, named⟩ := (slotAt_cutAll _ _).mp named
    rw [slotAt, signals] at named
    exact absurd (moored.booked s id named) uncut
  · rw [Ensemble.tearModel, (only.sameLink _).2]
    simp [Ensemble.lines, here, Ensemble.rebindModel]
  · rw [Ensemble.tearModel, only.of_controller Controller.standing fun _ => rfl, here]
    rfl

/-- It listens to a model, and not to any other that it listened to. -/
theorem retieModel (m : Nat) :
    Moored c (Ensemble.retieModel c m w) ∧ StaySettled w (Ensemble.retieModel c m w) ∧
      (Ensemble.retieModel c m w).client = w.client ∧
      ((Ensemble.retieModel c m w).controller c).standing =
        { (w.controller c).standing with listening := some m } := by
  have sound := moored.sound
  have settled := staySettled_retieModel c m w sound
  refine ⟨⟨?_, ?_, ?_, ?_, ?_, ?_, .inr ⟨m, _, lines_retieModel c m w, ?_⟩⟩, settled,
    client_retieModel c m w, standing_retieModel c m w⟩
  · exact sound_retieModel c m w sound
  · intro l line member
    by_cases tied : l = .model c
    · subst tied
      rw [lines_retieModel, List.mem_singleton] at member
      exact member ▸ isLine_modelLine c m w sound
    · rw [lines_retieModel_ne c m w tied] at member
      exact (moored.lines l line member).later settled
  · intro b s id member
    rw [of_controller_retieModel c m w (·.bindings) (fun _ => rfl) fun _ _ => rfl] at member
    exact settled _ s id (moored.own b s id member)
  · rw [of_controller_retieModel c m w (·.held) (fun _ => rfl) fun _ _ => rfl]
    exact moored.held
  · intro i bound
    rw [of_controller_retieModel c m w (·.model) (fun _ => rfl) fun _ _ => rfl] at bound
    rw [closed_retieModel]
    exact moored.opened i bound
  · intro s id there
    obtain ⟨uncut, before | ⟨-, made, -⟩⟩ := (slotAt_retieModel c m w sound).mp there
    · exact absurd (moored.booked s id before) uncut
    · rw [lines_retieModel, made]
      exact List.mem_singleton.mpr rfl
  · cases closed : (w.signal (.modelData m)).closed with
    | true => exact .inl (by rw [closed_retieModel, closed])
    | false =>
        refine .inr ((slotAt_retieModel c m w sound).mpr
          ⟨fun member => ?_, .inr ⟨closed, rfl, rfl⟩⟩)
        -- The id of the new connection is no old one.
        obtain ⟨s, id, same, before⟩ := moored.lines _ _ member
        cases same
        exact Signal.not_settled_connect (sound _) closed _ (modelDelivery w c) before

end Moored

end Mvc.Ensemble
