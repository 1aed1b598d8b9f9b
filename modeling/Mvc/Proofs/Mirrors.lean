import Mvc.Proofs.Berths
import Mvc.Proofs.Dealings
import Mvc.Proofs.Enabling

/-! # The bound view shows the model

A berthed application is current if the bound view is abreast of the model. Binding another view
shows it anew when the phase is announced, and so does setting up the controller. Whatever else is
done leaves the application current.
-/

namespace Mvc.App

open Ensemble Proc

variable {w w₁ w' : Whole} {n : Nat}

/-- Whoever keeps a relation keeps it in what any thread asks of the model. -/
theorem Deals.ask {rules : Rules} {R : Whole → Whole → Prop} {depth : Nat}
    (deals : Deals rules R (runs depth)) (lax : rules.Lax) (writes : ∀ name, rules.writes name)
    (thread : Thread) (r : Request) (saves : r = .saveSettings → saveSettings.All rules.Allow)
    (left : Option (List Piece)) : Keeps R ((Deed.ask thread r).perform depth left) := by
  have asked := deals.request lax writes r saves
  cases thread with
  | presentation => exact .bind deals.order asked fun _ => .pure deals.order left
  | background => exact .bind deals.order (deals.inBackground asked) fun _ => .pure deals.order left

/-! ## Staying current -/

/-- Berthed, and once everything is set up and bound, the bound view is abreast of the model. -/
structure Current (w : Whole) : Prop extends Berthed w where
  abreast : (w.controller controller).initialized = true →
    (w.controller controller).model = some model →
    ∀ v, (w.controller controller).view = some v → ∃ port, Shows v port w ∧ Abreast v port w

/-- Nothing is bound, and a berthed application is current if it was before or if the model
    changed. -/
def Sustains (w w' : Whole) : Prop :=
  Held w → Still w w' ∧ (Berthed w → Current w ∨ properties w' ≠ properties w → Current w')

theorem Sustains.current (sustains : Sustains w w') (current : Current w) : Current w' :=
  (sustains current.toHeld).2 current.toBerthed (.inl current)

theorem sustains_composes : Composes Sustains where
  refl w _ := ⟨.refl w, fun _ due => due.resolve_right fun changed => changed rfl⟩
  trans := by
    intro a b c first second held
    obtain ⟨still, keeps⟩ := first held
    obtain ⟨still', keeps'⟩ := second (still.keepsHeld held)
    refine ⟨still.trans still', fun berthed due => keeps' (still.berthed berthed) ?_⟩
    by_cases same : properties b = properties a
    · rw [← same] at due
      exact due.imp_left fun current => keeps berthed (.inl current)
    · exact .inl (keeps berthed (.inr same))

theorem sustains_of_attends (attends : ∀ v port, Attends v port w w') : Sustains w w' := by
  intro held
  have still := (attends 0 .unused held).1
  refine ⟨still, fun berthed due => ⟨still.berthed berthed, fun set bound v view => ?_⟩⟩
  rw [still.of_controller (·.initialized) fun _ => rfl] at set
  rw [still.of_controller (·.model) fun _ => rfl] at bound
  rw [still.of_controller (·.view) fun _ => rfl] at view
  have abreast : ∃ port, Shows v port w ∧ (Abreast v port w ∨ properties w' ≠ properties w) := by
    rcases due with current | changed
    · obtain ⟨port, shows, abreast⟩ := current.abreast set bound v view
      exact ⟨port, shows, .inl abreast⟩
    · obtain ⟨port, shows⟩ := berthed.shows set bound view
      exact ⟨port, shows, .inr changed⟩
  obtain ⟨port, shows, due⟩ := abreast
  exact ⟨port, still.shows shows, (attends v port held).2 shows due⟩

theorem keeps_sustains {α : Type} {p : Proc Whole α}
    (attends : ∀ v port, Keeps (Attends v port) p) : Keeps Sustains p :=
  fun w r w' ran => sustains_of_attends fun v port => attends v port w r w' ran

/-- Nothing is bound in what the application's owner and its user set off. -/
theorem deals_attends (v : Nat) (port : ConnectionId) (depth : Nat) :
    Deals showing (Attends v port) (runs depth) where
  order := attends_composes v port
  program := (attentive v port depth).client
  stop := (attentive v port depth).client (stop_allowed showing_lax showing_free)
  handle _ _ := (attentive v port depth).action _ trivial
  close _ := (attentive v port depth).action _ trivial
  drain := (attentive v port depth).action _ trivial
  fill := (attentive v port depth).action _ rfl
  refill := (attentive v port depth).action _ rfl
  thread _ thread := attends_of_same (.setThread thread) rfl (fun _ => rfl) fun _ => id

/-- And so what is set off keeps the application current. -/
theorem deals_sustains (depth : Nat) : Deals showing Sustains (runs depth) where
  order := sustains_composes
  program allowed := keeps_sustains fun v port => (deals_attends v port depth).program allowed
  stop := keeps_sustains fun v port => (deals_attends v port depth).stop
  handle name data := keeps_sustains fun v port => (deals_attends v port depth).handle name data
  close u := keeps_sustains fun v port => (deals_attends v port depth).close u
  drain := keeps_sustains fun v port => (deals_attends v port depth).drain
  fill := keeps_sustains fun v port => (deals_attends v port depth).fill
  refill := keeps_sustains fun v port => (deals_attends v port depth).refill
  thread _ thread := sustains_of_attends fun v port => (deals_attends v port depth).thread _ thread

/-! ## Holding -/

theorem sustains_holders (c : Nat) (pins : Controller Code → Nat) (w : Whole) :
    Sustains w (holders c (·.held) pins w) :=
  sustains_of_attends fun v port => (attentive v port 0).onlooker.pins w c pins

theorem sustains_pins (v : Nat) (pins : View Code → Nat) (w : Whole) :
    Sustains w (updateView v (fun o => { o with pins := pins o }) w) :=
  sustains_of_attends fun u port => (attentive u port 0).onlooker.view w v pins (·.closing)

section Holding

variable {α : Type} {run : Runner Code State} {p : Proc Whole α} {post : α → Whole → Prop}

theorem holdingController_ends (c : Nat)
    (inner : Ends p (holders c (·.held) (·.pins + 1) w) fun r w₂ =>
      Held w₂ ∧ post r (holders c (·.held) (·.pins - 1) w₂)) :
    Ends (holdingController run c p) w post := by
  refine .modify_bind (.bind (inner.mono fun r w₂ => ?_))
  rintro ⟨held, holds⟩
  have held₃ : Held (holders c (·.held) (·.pins - 1) w₂) :=
    (sustains_holders c (·.pins - 1) w₂ held).1.keepsHeld held
  exact .modify_bind (.bind_of_eq (collectController_held held₃ c) ((ends_pure _ _ _).mpr holds))

theorem holdingView_ends (v : Nat)
    (inner : Ends p (pinView v w) fun r w₂ => Held w₂ ∧ post r (unpinView v w₂)) :
    Ends (holdingView run v p) w post := by
  refine .modify_bind (.bind (inner.mono fun r w₂ => ?_))
  rintro ⟨held, holds⟩
  have held₃ : Held (unpinView v w₂) := (sustains_pins v (·.pins - 1) w₂ held).1.keepsHeld held
  exact .modify_bind (.bind_of_eq (collectView_held held₃ v) ((ends_pure _ _ _).mpr holds))

end Holding

/-! ## Announcing the phase -/

/-- When the phase is announced, the bound view is shown anew, unless it closes. -/
theorem emitPhase_ends (berthed : Berthed w) : Ends (emitPhase (runs n) controller) w fun _ w' =>
    Still w w' ∧ ((w.controller controller).closing = false →
      ∀ v, (w.controller controller).view = some v → ∀ port, Renews v port w w') := by
  intro r w' ran
  have still := ((attentive 0 .unused n).onlooker.emitPhase controller w r w' ran berthed.toHeld).1
  refine ⟨still, fun opened v view port => ?_⟩
  obtain ⟨id, entry⟩ := berthed.follows view
  have other : (w.controller controller).phase ≠ .viewClosing := fun same => by
    simp [Controller.phase_eq_viewClosing.mp same] at opened
  have connected : (w.signal (.controllerPhase controller)).isConnected id = true := by
    simp [Signal.isConnected, Registry.contains, entry]
  have renews : Keeps (Renews v port) (deliver (runs n) (.controllerPhase controller)
      (.phase (w.controller controller).phase) id ⟨.viewPhase v, .direct⟩) :=
    (attentive v port n).follows _ other
  have visited := (attentive v port n).visit_renews renews (mem_connections.mpr entry)
    berthed.toHeld connected
  unfold emitPhase Ensemble.emit at ran
  rw [get_bind, get_bind] at ran
  rw [berthed.blocked] at ran
  exact visited r w' ran

/-- The bindings are made anew, and nothing else about the controller. -/
theorem rebindIfReady_ends (berthed : Berthed w) :
    Ends (rebindIfReady (runs (n + 1)) behaviour controller) w fun _ w₁ => Berthed w₁ ∧
      { (w₁.controller controller).silent with bindings := [] } =
        { (w.controller controller).silent with bindings := [] } := by
  cases ready : isReady (w.controller controller) with
  | false =>
      refine .get_bind ?_
      rw [if_neg (by simp [ready])]
      exact (ends_pure _ _ _).mpr ⟨berthed, rfl⟩
  | true =>
      have both := ready
      simp only [isReady, Bool.and_eq_true] at both
      obtain ⟨v, view⟩ := Option.isSome_iff_exists.mp both.2
      refine (ends_of_eq (rebindIfReady_eq view ready berthed.bindings)).mpr
        ⟨berthed.rebind v, ?_⟩
      obtain ⟨line, same⟩ := Berthed.silent_rebind v w
      rw [same]

/-- Once the phase is announced, the application is current, unless its view closes. -/
theorem announce_ends (berthed : Berthed w) :
    Ends (announce (runs (n + 1)) behaviour controller) w fun _ w' => Berthed w' ∧
      ((w.controller controller).closing = true → (w'.controller controller).closing = true) ∧
      (((w.controller controller).initialized = true →
        (w.controller controller).closing = false) → Current w') := by
  refine .bind ((rebindIfReady_ends berthed).mono fun _ w₁ => ?_)
  rintro ⟨berthed₁, same⟩
  have part {α : Type} (f : Controller Code → α)
      (blind : ∀ o, f { o.silent with bindings := [] } = f o) :
      f (w₁.controller controller) = f (w.controller controller) := by rw [← blind, same, blind]
  refine (emitPhase_ends berthed₁).mono fun _ w' => ?_
  rintro ⟨still, renews⟩
  refine ⟨still.berthed berthed₁, fun closing => ?_, fun opened => ?_⟩
  · exact still.closing _ ((part (·.closing) fun _ => rfl).trans closing)
  · refine ⟨still.berthed berthed₁, fun set bound v view => ?_⟩
    rw [still.of_controller (·.initialized) fun _ => rfl] at set
    rw [still.of_controller (·.model) fun _ => rfl] at bound
    rw [still.of_controller (·.view) fun _ => rfl] at view
    have opened₁ := (part (·.closing) fun _ => rfl).trans
      (opened ((part (·.initialized) fun _ => rfl).symm.trans set))
    obtain ⟨port, shows⟩ := berthed₁.shows set bound view
    exact ⟨port, still.shows shows, (renews opened₁ v view port berthed₁.toHeld).2 shows⟩

/-! ## Binding -/

/-- Another view is bound that is set up if the controller is. -/
theorem setView_ends (current : Current w) {v : Option Nat}
    (ready : (w.controller controller).initialized = true →
      ∀ u, v = some u → (w.view u).initialized = true) :
    Ends (setView (runs (n + 1)) behaviour controller v) w fun _ w' => Current w' := by
  by_cases same : (w.controller controller).view = v
  · refine .get_bind ?_
    exact (ends_of_eq (congrFun (if_pos same) w)).mpr current
  · obtain ⟨berthed, opened⟩ := current.joinView ready
    intro r w' ran
    rw [setView_eq_announce current.intact current.bindings (current.alive controller)
      (fun _ _ s _ => current.opened s) same] at ran
    exact (announce_ends berthed r w' ran).2.2 fun _ => opened

/-- Another model is bound before the controller is set up. -/
theorem setModel_ends (current : Current w) {m : Option Nat}
    (unset : (w.controller controller).initialized = true → (w.controller controller).model = m) :
    Ends (setModel (runs (n + 1)) behaviour controller m) w fun _ w' => Current w' := by
  by_cases same : (w.controller controller).model = m
  · refine .get_bind ?_
    exact (ends_of_eq (congrFun (if_pos same) w)).mpr current
  · have berthed := current.joinModel m
    intro r w' ran
    rw [setModel_eq_announce current.intact current.bindings same] at ran
    refine (announce_ends berthed r w' ran).2.2 fun set => absurd (unset ?_) same
    have alike := congrArg Controller.initialized
      (silent_joinModel (c := controller) (w := w) m controller)
    rw [controller_updateController_self] at alike
    exact (alike : _).symm.trans set

/-! ## The owner's arrangements -/

section Calls

variable {α : Type} {run : Runner Code State} {p : Proc Whole α}

theorem holdingController_current (current : Current w)
    (inner : ∀ w₁, Still w w₁ → Current w₁ → Ends p w₁ fun _ w₂ => Current w₂) :
    Ends (holdingController run controller p) w fun _ w' => Current w' := by
  have pinned := sustains_holders controller (·.pins + 1) w
  refine holdingController_ends controller
    ((inner _ (pinned current.toHeld).1 (pinned.current current)).mono fun _ w₂ current₂ => ?_)
  exact ⟨current₂.toHeld, (sustains_holders controller (·.pins - 1) w₂).current current₂⟩

theorem holdingView?_current (current : Current w) (v : Option Nat)
    (inner : ∀ w₁, Still w w₁ → Current w₁ → Ends p w₁ fun _ w₂ => Current w₂) :
    Ends (holdingView? run v p) w fun _ w' => Current w' := by
  cases v with
  | none => exact inner w (.refl w) current
  | some v =>
      have pinned := sustains_pins v (·.pins + 1) w
      refine holdingView_ends v
        ((inner _ (pinned current.toHeld).1 (pinned.current current)).mono fun _ w₂ current₂ => ?_)
      exact ⟨current₂.toHeld, (sustains_pins v (·.pins - 1) w₂).current current₂⟩

end Calls

theorem bind_ends (current : Current w) {v : Option Nat}
    (ready : (w.controller controller).initialized = true →
      ∀ u, v = some u → (w.view u).initialized = true) :
    Ends ((runs (n + 2)).client (App.bind v)) w fun _ w' => Current w' := by
  refine ends_perform (holdingController_current current fun w₁ still current₁ => ?_)
  refine holdingView?_current current₁ v fun w₂ still₂ current₂ => ?_
  have through := still.trans still₂
  refine setView_ends (n := n) current₂ fun set u bound => ?_
  rw [through.initialized]
  exact ready ((through.of_controller (·.initialized) (fun _ => rfl) _).symm.trans set) u bound

theorem bindModel_ends (current : Current w) {m : Option Nat}
    (unset : (w.controller controller).initialized = true → (w.controller controller).model = m) :
    Ends ((runs (n + 2)).client (.perform (Action.setModel controller m))) w fun _ w' =>
      Current w' := by
  refine ends_perform (holdingController_current current fun w₁ still current₁ => ?_)
  refine setModel_ends (n := n) current₁ fun set => ?_
  rw [still.of_controller (·.model) fun _ => rfl]
  exact unset ((still.of_controller (·.initialized) (fun _ => rfl) _).symm.trans set)

/-- The application's own code is connected to a signal. -/
theorem connect_ends (current : Current w) {s : SignalRef} {code : Code} {d : Delivery}
    (fits : Fits w s ⟨.client code, d⟩) :
    Ends ((runs (n + 1)).client (connect s code d)) w fun _ w' => Current w' := by
  have only := onlySignals_plug d (s, .client code) w
  have relined : Relined w (plug d (s, .client code) w).2 :=
    .plug (current.intact.wired.sound s) fits
  have berthed := current.plug fits
  refine (ends_of_eq rfl).mpr ⟨berthed, fun set bound v view => ?_⟩
  obtain ⟨port, shows, abreast⟩ := current.abreast
    ((only.of_controller (·.initialized) (fun _ => rfl) _).symm.trans set)
    ((only.of_controller (·.model) (fun _ => rfl) _).symm.trans bound) v
    ((only.of_controller (·.view) (fun _ => rfl) _).symm.trans view)
  obtain ⟨d', entry, -⟩ := shows.hears
  have named : w.slotAt (.modelData model) port = some (.controllerData controller) :=
    Option.map_eq_some_iff.mpr ⟨_, entry, rfl⟩
  refine ⟨port, berthed.shows_of_slot set view
    ((slotAt_plug d _ w current.intact.wired.sound).mpr (.inl named)), ?_⟩
  refine abreast.imp (fun fresh => ?_) fun waits => ?_
  · rw [IsFresh, relined.client, relined.store]
    exact fresh
  · rw [relined.waits]
    exact waits

/-- A new view is made. -/
theorem makeView_ends (current : Current w) (hasModel : Bool)
    (new : (w.view w.client.screens.members.length).initialized = false) :
    Ends ((runs (n + 1)).client (App.makeView hasModel)) w fun _ w' => Current w' := by
  let made := w.client.screens.members.length
  let screens := w.client.screens.set made (.new hasModel)
  let w' : Whole := { w with client := { w.client with screens, current := some made } }
  have signals : ∀ s, w'.signal s = w.signal s := signal_setClient w _
  have other : ∀ v, (w.view v).initialized = true → screens.get v = w.client.screens.get v := by
    intro v set
    refine (Family.get_set _ _ _ _).trans (if_neg ?_)
    rintro rfl
    exact absurd (new.symm.trans set) (by simp)
  have manned : Manned w' := by
    refine ⟨⟨current.controllers, current.views⟩, current.sole, fun s => ?_, fun s => ?_,
      fun s id k named => ?_, fun v => ?_, fun v set => ?_⟩
    · rw [signals, current.opened]
    · rw [signals, current.blocked]
    · rw [signals] at named
      exact fits_of_delivery rfl (current.fits s id k named)
    · show (screens.get v).broken = false
      rw [show screens.get v = _ from Family.get_set _ _ _ _]
      split
      · rfl
      · exact current.sound v
    · show (screens.get v).hasModel = true
      rw [other v set, current.informed v set]
  have intact : Intact none w' := (current.intact.of_same signals (fun _ => rfl) (fun _ h => h)
    fun _ => rfl).1
  have berthed : Berthed w' := ⟨manned, intact, current.bindings, current.attached, current.ready⟩
  refine (ends_of_eq (show _ = some (_, w') from rfl)).mpr ⟨berthed, fun set bound v view => ?_⟩
  obtain ⟨port, shows, abreast⟩ := current.abreast set bound v view
  obtain ⟨d, entry, -⟩ := shows.hears
  have named : w'.slotAt (.modelData model) port = some (.controllerData controller) := by
    rw [slotAt, signals]
    exact Option.map_eq_some_iff.mpr ⟨_, entry, rfl⟩
  refine ⟨port, berthed.shows_of_slot set view named, abreast.imp_left fun fresh => ?_⟩
  show (screens.get v).shown = _
  rw [other v shows.initialized]
  exact fresh

end Mvc.App
