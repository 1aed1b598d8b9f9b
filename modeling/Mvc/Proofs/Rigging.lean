import Mvc.Proofs.Steady

/-! # Rigged applications

A mounted application is rigged if its signals are sound and open, nothing but the bindings ends
what was connected to the busy flag, and every word of the flag that waits was left for a view that
was connected for it. Cutting lines, plugging ports elsewhere, and binding keep it so. They
change nothing that matters but the frame, and nobody comes to be told of the busy flag.
-/

namespace Mvc.App

open Ensemble Proc

/-- Whether a link is one of the application's. -/
def IsOurs : Link → Prop
  | .model c | .view c => c = controller
  | .attachment _ => True

/-- A subscription is a connection, and to something else than the busy flag. -/
def IsAside : Subscription Code → Prop
  | .connection s _ => s ≠ Channel.busy
  | .client _ => False

/-- Signals are sound and open, and what is connected to the busy flag is connected, and was left
    word, on behalf of the bindings only. -/
structure Rigged (w : Whole) : Prop extends Mounted w where
  sound : ∀ s, (w.signal s).Sound
  opened : ∀ s, (w.signal s).closed = false
  aside : ∀ l, IsOurs l → ∀ line ∈ w.lines l, IsAside line
  settled : ∀ id view busy, .tell id view busy ∈ (gist w).waiting →
    (w.signal Channel.busy).Settled (· = .client (.followBusy view)) id

variable {w w₁ w' : Whole}

theorem isConnection_of_isAside {lines : List (Subscription Code)}
    (aside : ∀ line ∈ lines, IsAside line) : ∀ line ∈ lines, line.isConnection = true := by
  intro line member
  have here := aside line member
  cases line with
  | connection s id => rfl
  | client code => exact here.elim

/-- What fits depends on the delivery of the model's changes only. -/
theorem fits_of_delivery (delivery : modelDelivery w' controller = modelDelivery w controller)
    {s : SignalRef} {k : Connection (Slot Code)} (fits : Fits w s k) : Fits w' s k := by
  unfold Fits at fits ⊢
  rw [delivery]
  exact fits

theorem delivery_of_dispatcher
    (dispatcher : (w'.controller controller).dispatcher = (w.controller controller).dispatcher) :
    modelDelivery w' controller = modelDelivery w controller := by
  simp only [modelDelivery, dispatcher]

namespace Rigged

/-- Everybody stays, and signals and lines are as they should be. -/
theorem change (rigged : Rigged w)
    (held : (w'.controller controller).held = (w.controller controller).held)
    (dispatcher : (w'.controller controller).dispatcher = (w.controller controller).dispatcher)
    (views : ∀ v, (w'.view v).held = (w.view v).held)
    (waiting : App.queue w' = App.queue w)
    (sound : ∀ s, (w'.signal s).Sound) (opened : ∀ s, (w'.signal s).closed = false)
    (blocked : ∀ s, (w'.signal s).blocked = false)
    (fits : ∀ s id k, (w'.signal s).registry.get? id = some k → Fits w s k)
    (settled : ∀ (P : Slot Code → Prop) id, (w.signal Channel.busy).Settled P id →
      (w'.signal Channel.busy).Settled P id)
    (aside : ∀ l, IsOurs l → ∀ line ∈ w'.lines l, IsAside line) : Rigged w' where
  held := held.trans rigged.held
  views v := (views v).trans (rigged.views v)
  sole d same := rigged.sole d (dispatcher ▸ same)
  blocked := blocked
  fits s id k named := fits_of_delivery (delivery_of_dispatcher dispatcher) (fits s id k named)
  chores t member := rigged.chores t (waiting ▸ member)
  sound := sound
  opened := opened
  aside := aside
  settled id view busy member := by
    have before : .tell id view busy ∈ (gist w).waiting := by
      rw [show (gist w).waiting = (gist w').waiting from
        congrArg (List.filterMap Errand.ofTask?) waiting.symm]
      exact member
    exact settled _ id (rigged.settled id view busy before)

/-- No signal changes. -/
theorem of_signals (rigged : Rigged w)
    (held : (w'.controller controller).held = (w.controller controller).held)
    (dispatcher : (w'.controller controller).dispatcher = (w.controller controller).dispatcher)
    (views : ∀ v, (w'.view v).held = (w.view v).held)
    (waiting : App.queue w' = App.queue w) (signals : ∀ s, w'.signal s = w.signal s)
    (aside : ∀ l, IsOurs l → ∀ line ∈ w'.lines l, IsAside line) : Rigged w' := by
  refine rigged.change held dispatcher views waiting ?_ ?_ ?_ ?_ ?_ aside
  · exact fun s => by rw [signals]; exact rigged.sound s
  · exact fun s => by rw [signals, rigged.opened]
  · exact fun s => by rw [signals, rigged.blocked]
  · exact fun s id k named => rigged.fits s id k (by rwa [signals] at named)
  · exact fun P id settled => by rwa [signals]

/-- One signal changes. -/
theorem setSignal (rigged : Rigged w) (s : SignalRef) {x : Signal (Slot Code)} (sound : x.Sound)
    (opened : x.closed = false) (blocked : x.blocked = false)
    (fits : ∀ id k, x.registry.get? id = some k → Fits w s k)
    (settled : ∀ (P : Slot Code → Prop) id, (w.signal s).Settled P id → x.Settled P id) :
    Rigged (setSignal s x w) := by
  have only : OnlySignals w (Ensemble.setSignal s x w) := .setSignal w s x
  have at_signal : ∀ {P : SignalRef → Signal (Slot Code) → Prop}, P s x → (∀ t, P t (w.signal t)) →
      ∀ t, P t ((Ensemble.setSignal s x w).signal t) := by
    intro P here there t
    rw [signal_setSignal]
    split
    · next same => exact same ▸ here
    · exact there t
  refine rigged.change (only.of_controller (·.held) (fun _ => rfl) _)
    (only.of_controller (·.dispatcher) (fun _ => rfl) _) (only.of_view (·.held) fun _ => rfl)
    (congrArg (·.queue) (only.dispatcher _)) (at_signal (P := fun _ => (·.Sound)) sound rigged.sound)
    (at_signal (P := fun _ x => x.closed = false) opened rigged.opened)
    (at_signal (P := fun _ x => x.blocked = false) blocked rigged.blocked)
    (at_signal (P := fun s x => ∀ id k, x.registry.get? id = some k → Fits w s k) fits rigged.fits)
    ?_ fun l ours line member => ?_
  · intro P id before
    rw [signal_setSignal]
    split
    · next same => exact settled P id (same ▸ before)
    · exact before
  · rw [(only.sameLink l).2] at member
    exact rigged.aside l ours line member

/-- Steady steps keep an application rigged, if word is left only for those who are told. -/
theorem steady (rigged : Rigged w) (steady : Steady w w')
    (news : ∀ id view busy, .tell id view busy ∈ (gist w').waiting →
      .tell id view busy ∈ (gist w).waiting ∨
        w.slotAt Channel.busy id = some (.client (.followBusy view))) : Rigged w' where
  toMounted := steady.mounted rigged.toMounted
  sound s := steady.signals s ▸ rigged.sound s
  opened s := (congrArg (·.closed) (steady.signals s)).trans (rigged.opened s)
  aside l ours line member := by
    refine rigged.aside l ours line ?_
    cases l with
    | model c =>
        obtain rfl : c = controller := ours
        rw [lines, ← steady.of_controller (·.modelSubscriptions) fun _ => rfl]
        exact member
    | view c =>
        obtain rfl : c = controller := ours
        rw [lines, ← steady.of_controller (·.viewSubscriptions) fun _ => rfl]
        exact member
    | attachment v =>
        rw [lines, ← steady.attachments v]
        exact member
  settled id view busy member := by
    rw [steady.signals]
    rcases news id view busy member with old | told
    · exact rigged.settled id view busy old
    · exact .inr (.inr ⟨_, told, rfl⟩)

end Rigged

/-! ## Rewiring -/

/-- Lines were cut or plugged, but nobody came to be told of the busy flag. -/
structure Rewired (w w' : Whole) : Prop where
  rigged : Rigged w'
  stands : unlined (w'.controller controller).silent = unlined (w.controller controller).silent
  gist : gist w' = { gist w with frame := frame w' }
  fewer : ∀ id k, w'.slotAt Channel.busy id = some k → w.slotAt Channel.busy id = some k

namespace Rewired

theorem refl (rigged : Rigged w) : Rewired w w := ⟨rigged, rfl, rfl, fun _ _ => id⟩

theorem trans (first : Rewired w w₁) (second : Rewired w₁ w') : Rewired w w' where
  rigged := second.rigged
  stands := second.stands.trans first.stands
  gist := second.gist.trans (by rw [first.gist])
  fewer id k named := first.fewer id k (second.fewer id k named)

/-- What does not look at the signals and the lines of the controller is the same. -/
theorem of_controller (rewired : Rewired w w') {α : Type} (f : Controller Code → α)
    (blind : ∀ o, f (unlined o.silent) = f o) :
    f (w'.controller controller) = f (w.controller controller) := by
  rw [← blind, rewired.stands, blind]

theorem thread (rewired : Rewired w w') : w'.thread = w.thread :=
  congrArg Gist.thread rewired.gist

theorem delivery (rewired : Rewired w w') :
    modelDelivery w' controller = modelDelivery w controller :=
  delivery_of_dispatcher (rewired.of_controller (·.dispatcher) fun _ => rfl)

end Rewired

theorem gist_of_onlySignals (only : OnlySignals w w') :
    gist w' = { gist w with frame := frame w' } := by
  have store := congrArg Model.store (only.model model)
  have phase := only.of_controller Controller.phase (fun _ => rfl) controller
  have enabled := only.of_view (·.enabled) fun _ => rfl
  have store : properties w' = properties w := store
  have waiting : queue w' = queue w := congrArg (·.queue) (only.dispatcher _)
  simp only [gist, phase, enabled, store, waiting, heard, only.client, only.thread]

/-- Another signal than the busy flag changes. -/
theorem rewired_setSignal {s : SignalRef} {x : Signal (Slot Code)}
    (rigged : Rigged (setSignal s x w))
    (fewer : s = Channel.busy → ∀ id k, x.slot? id = some k → w.slotAt Channel.busy id = some k) :
    Rewired w (setSignal s x w) := by
  have only : OnlySignals w (setSignal s x w) := .setSignal w s x
  refine ⟨rigged, only.of_controller (unlined ·.silent) (fun _ => rfl) _,
    gist_of_onlySignals only, fun id k named => ?_⟩
  rw [slotAt_setSignal] at named
  split at named
  · next same => exact fewer same.symm id k named
  · exact named

theorem Rigged.cut (rigged : Rigged w) (line : Subscription Code) : Rewired w (cut line w) := by
  cases line with
  | client code => exact .refl rigged
  | connection s id =>
      refine rewired_setSignal (rigged.setSignal s ((rigged.sound s).disconnect id)
        (rigged.opened s) (rigged.blocked s) ?_ fun _ _ settled => settled.disconnect id) ?_
      · intro other k named
        simp only [Signal.disconnect, Registry.get?_erase] at named
        split at named
        · cases named
        · exact rigged.fits s other k named
      · rintro rfl other k named
        rw [Signal.slot?_disconnect] at named
        split at named
        · cases named
        · exact named

theorem Rigged.cutAll (rigged : Rigged w) (lines : List (Subscription Code)) :
    Rewired w (cutAll lines w) := by
  induction lines generalizing w with
  | nil => exact .refl rigged
  | cons line rest ih =>
      have first := rigged.cut line
      exact first.trans (ih first.rigged)

/-- Plugging a port that fits keeps an application rigged. -/
theorem Rigged.plug (rigged : Rigged w) {d : Delivery} {port : SignalRef × Slot Code}
    (fits : Fits w port.1 ⟨port.2, d⟩) : Rigged (plug d port w).2 := by
  have sound := rigged.sound port.1
  have opened := rigged.opened port.1
  refine rigged.setSignal port.1 (sound.connect port.2 d) ?_ ?_ ?_ fun _ _ settled =>
    settled.connect sound port.2 d
  · rw [Signal.closed_connect, opened]
  · rw [Signal.connect_of_open opened, rigged.blocked]
  · intro id k named
    rw [Signal.connect_of_open opened] at named
    simp only [Registry.get?_insert sound.registry] at named
    split at named
    · cases named
      exact fits
    · exact rigged.fits port.1 id k named

theorem Rigged.plugAll (rigged : Rigged w) {d : Delivery} {ports : List (SignalRef × Slot Code)}
    (fits : ∀ port ∈ ports, port.1 ≠ Channel.busy ∧ Fits w port.1 ⟨port.2, d⟩) :
    Rewired w (plugAll d ports w).2 ∧ ∀ line ∈ (plugAll d ports w).1, IsAside line := by
  induction ports generalizing w with
  | nil => exact ⟨.refl rigged, nofun⟩
  | cons port rest ih =>
      obtain ⟨elsewhere, here⟩ := fits port List.mem_cons_self
      have first : Rewired w (Ensemble.plug d port w).2 :=
        rewired_setSignal (rigged.plug here) fun same => absurd same elsewhere
      obtain ⟨second, aside⟩ := ih first.rigged fun p member => by
        obtain ⟨elsewhere, there⟩ := fits p (List.mem_cons_of_mem _ member)
        exact ⟨elsewhere, fits_of_delivery first.delivery there⟩
      refine ⟨first.trans second, fun line member => ?_⟩
      rcases List.mem_cons.mp member with rfl | member
      · exact elsewhere
      · exact aside line member

/-- A controller has other lines. -/
theorem Rigged.updateController (rigged : Rigged w) {f : Controller Code → Controller Code}
    (signals : ∀ o, (f o).phaseChanged = o.phaseChanged ∧ (f o).errorOccurred = o.errorOccurred ∧
      (f o).operationCompleted = o.operationCompleted)
    (stands : ∀ o, (f o).held = o.held ∧ (f o).dispatcher = o.dispatcher)
    (modelLines : ∀ o, (f o).modelSubscriptions = o.modelSubscriptions ∨
      ∀ line ∈ (f o).modelSubscriptions, IsAside line)
    (viewLines : ∀ o, (f o).viewSubscriptions = o.viewSubscriptions ∨
      ∀ line ∈ (f o).viewSubscriptions, IsAside line) :
    Rigged (updateController controller f w) := by
  have changed := controller_updateController_self w controller f
  refine rigged.of_signals ?_ ?_ (fun _ => rfl) rfl (signal_updateController w controller signals)
    fun l ours line member => ?_
  · rw [changed, (stands _).1]
  · rw [changed, (stands _).2]
  · cases l with
    | model c =>
        obtain rfl : c = controller := ours
        rw [lines, changed] at member
        rcases modelLines (w.controller controller) with same | aside
        · rw [same] at member
          exact rigged.aside (.model controller) rfl line member
        · exact aside line member
    | view c =>
        obtain rfl : c = controller := ours
        rw [lines, changed] at member
        rcases viewLines (w.controller controller) with same | aside
        · rw [same] at member
          exact rigged.aside (.view controller) rfl line member
        · exact aside line member
    | attachment v => exact rigged.aside (.attachment v) ours line member

/-- Only its lines are others. -/
theorem Rigged.reline (rigged : Rigged w) {f : Controller Code → Controller Code}
    (signals : ∀ o, (f o).phaseChanged = o.phaseChanged ∧ (f o).errorOccurred = o.errorOccurred ∧
      (f o).operationCompleted = o.operationCompleted)
    (stands : ∀ o, unlined (f o).silent = unlined o.silent)
    (modelLines : ∀ o, (f o).modelSubscriptions = o.modelSubscriptions ∨
      ∀ line ∈ (f o).modelSubscriptions, IsAside line)
    (viewLines : ∀ o, (f o).viewSubscriptions = o.viewSubscriptions ∨
      ∀ line ∈ (f o).viewSubscriptions, IsAside line) :
    Rewired w (Ensemble.updateController controller f w) := by
  have kept := signal_updateController w controller signals
  have changed := controller_updateController_self w controller f
  have blind : ∀ {α : Type} (g : Controller Code → α), (∀ o, g (unlined o.silent) = g o) →
      ∀ o, g (f o) = g o := fun g blind o => by rw [← blind, stands, blind]
  refine ⟨rigged.updateController signals (fun o => ⟨?_, ?_⟩) modelLines viewLines, ?_, ?_,
    fun id k named => ?_⟩
  · exact blind (·.held) (fun _ => rfl) o
  · exact blind (·.dispatcher) (fun _ => rfl) o
  · rw [changed, stands]
  · have phase := blind Controller.phase (fun _ => rfl) (w.controller controller)
    simp only [gist, changed, phase]
    rfl
  · rwa [slotAt, kept] at named

theorem Rigged.updateView (rigged : Rigged w) (v : Nat) {f : View Code → View Code}
    (signals : ∀ o, (f o).userAction = o.userAction ∧ (f o).viewClosing = o.viewClosing ∧
      (f o).viewUpdate = o.viewUpdate) (held : ∀ o, (f o).held = o.held)
    (enabled : ∀ o, (f o).enabled = o.enabled)
    (attached : ∀ o, (f o).attachment = o.attachment ∨
      ∀ line ∈ ((f o).attachment.map (·.subscriptions)).getD [], IsAside line) :
    Rewired w (updateView v f w) := by
  have kept := signal_updateView w v signals
  have frames : frame (Ensemble.updateView v f w) = frame w := by
    simp only [frame, kept, controller_updateView, client_updateView]
  have same := blind_updateView w v f (·.enabled) enabled
  refine ⟨rigged.of_signals rfl rfl (blind_updateView w v f (·.held) held) rfl kept ?_, rfl, ?_,
    fun id k named => ?_⟩
  · intro l ours line member
    cases l with
    | model c | view c => exact rigged.aside _ ours line member
    | attachment u =>
        by_cases here : u = v
        · subst here
          rw [lines, view_updateView_self] at member
          rcases attached (w.view u) with same | aside
          · rw [same] at member
            exact rigged.aside (.attachment u) trivial line member
          · exact aside line member
        · rw [lines, view_updateView_ne _ _ _ here] at member
          exact rigged.aside (.attachment u) trivial line member
  · rw [frames]
    simp only [gist, frames, same]
    rfl
  · rwa [slotAt, kept] at named

end Mvc.App
