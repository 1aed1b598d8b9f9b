import Mvc.Proofs.Bystanders
import Mvc.Proofs.Conduct
import Mvc.Proofs.Rules

/-! # What the bound view shows

As long as nothing is bound or connected, the bound view is abreast of the model: it shows the
model's properties, or word of a change of the model waits for its controller. A write to the
model breaks this, and the announcement that ends the write makes it good again, whatever came in
between. So every call keeps it that the application makes of itself, and every task that the
dispatcher runs.

Two relations carry this. A step `Attends` if the view is abreast after it that was abreast before,
and also if the model changed, and it `Renews` if it makes the view abreast whatever came before.
-/

namespace Mvc.App

open Ensemble Proc

/-! ## Steps by which nothing is bound -/

/-- Everybody has a handle. -/
structure Held (w : Whole) : Prop where
  controllers : ∀ c, (w.controller c).held = true
  views : ∀ v, (w.view v).held = true

/-- Nothing is bound or connected, no view is set up, and no screen is another one. -/
structure Still (w w' : Whole) : Prop where
  signals : ∀ s, w'.signal s = w.signal s
  controllers : ∀ c, standing (w'.controller c) = standing (w.controller c)
  /-- The closing phase does not end. -/
  closing : ∀ c, (w.controller c).closing = true → (w'.controller c).closing = true
  held : ∀ v, (w'.view v).held = (w.view v).held
  attachments : ∀ v, (w'.view v).attachment = (w.view v).attachment
  initialized : ∀ v, (w'.view v).initialized = (w.view v).initialized
  hasModel : ∀ v, (w'.client.screens.get v).hasModel = (w.client.screens.get v).hasModel
  broken : ∀ v, (w'.client.screens.get v).broken = (w.client.screens.get v).broken

namespace Still

variable {w w₁ w' : Whole}

theorem refl (w : Whole) : Still w w :=
  ⟨fun _ => rfl, fun _ => rfl, fun _ h => h, fun _ => rfl, fun _ => rfl, fun _ => rfl, fun _ => rfl,
    fun _ => rfl⟩

theorem trans (first : Still w w₁) (second : Still w₁ w') : Still w w' where
  signals s := (second.signals s).trans (first.signals s)
  controllers c := (second.controllers c).trans (first.controllers c)
  closing c h := second.closing c (first.closing c h)
  held v := (second.held v).trans (first.held v)
  attachments v := (second.attachments v).trans (first.attachments v)
  initialized v := (second.initialized v).trans (first.initialized v)
  hasModel v := (second.hasModel v).trans (first.hasModel v)
  broken v := (second.broken v).trans (first.broken v)

/-- What does not look at signals, at pins and at the closing of a controller is the same. -/
theorem of_controller (still : Still w w') {α : Type} (f : Controller Code → α)
    (blind : ∀ o, f (standing o) = f o) (c : Nat) : f (w'.controller c) = f (w.controller c) := by
  rw [← blind, still.controllers, blind]

theorem keepsHeld (still : Still w w') (held : Held w) : Held w' where
  controllers c := (still.of_controller (·.held) (fun _ => rfl) c).trans (held.controllers c)
  views v := (still.held v).trans (held.views v)

theorem change {f : State → State}
    (screens : ∀ s v, (s.screens.get v).hasModel = ((f s).screens.get v).hasModel ∧
      (s.screens.get v).broken = ((f s).screens.get v).broken) :
    Still w { w with client := f w.client } :=
  ⟨signal_setClient w _, fun _ => rfl, fun _ h => h, fun _ => rfl, fun _ => rfl, fun _ => rfl,
    fun v => (screens _ v).1.symm, fun v => (screens _ v).2.symm⟩

theorem updateModel (m : Nat) {f : Model Code → Model Code}
    (signals : ∀ o, (f o).propertyChanged = o.propertyChanged ∧
      (f o).dataChanged = o.dataChanged ∧ (f o).validityChanged = o.validityChanged) :
    Still w (updateModel m f w) :=
  ⟨signal_updateModel w m signals, fun _ => rfl, fun _ h => h, fun _ => rfl, fun _ => rfl,
    fun _ => rfl, fun _ => rfl, fun _ => rfl⟩

theorem updateView (v : Nat) {f : View Code → View Code}
    (signals : ∀ o, (f o).userAction = o.userAction ∧ (f o).viewClosing = o.viewClosing ∧
      (f o).viewUpdate = o.viewUpdate)
    (same : ∀ o, (f o).held = o.held ∧ (f o).attachment = o.attachment ∧
      (f o).initialized = o.initialized) : Still w (updateView v f w) :=
  ⟨signal_updateView w v signals, fun _ => rfl, fun _ h => h,
    blind_updateView w v f (·.held) fun o => (same o).1,
    blind_updateView w v f (·.attachment) fun o => (same o).2.1,
    blind_updateView w v f (·.initialized) fun o => (same o).2.2, fun _ => rfl, fun _ => rfl⟩

theorem updateController (c : Nat) {f : Controller Code → Controller Code}
    (signals : ∀ o, (f o).phaseChanged = o.phaseChanged ∧ (f o).errorOccurred = o.errorOccurred ∧
      (f o).operationCompleted = o.operationCompleted)
    (stands : ∀ o, standing (f o) = standing o)
    (closing : ∀ o, o.closing = true → (f o).closing = true) : Still w (updateController c f w) where
  signals := signal_updateController w c signals
  controllers := blind_updateController w c f standing stands
  closing b h := by
    rw [controller_updateController]
    split
    · next same => exact closing _ (same ▸ h)
    · exact h
  held _ := rfl
  attachments _ := rfl
  initialized _ := rfl
  hasModel _ := rfl
  broken _ := rfl

theorem updateDispatcher (d : Nat) (f : Dispatcher (Task Code) → Dispatcher (Task Code)) :
    Still w (updateDispatcher d f w) :=
  ⟨signal_updateDispatcher w d f, fun _ => rfl, fun _ h => h, fun _ => rfl, fun _ => rfl,
    fun _ => rfl, fun _ => rfl, fun _ => rfl⟩

theorem setThread (thread : Thread) : Still w { w with thread } :=
  ⟨signal_setThread w thread, fun _ => rfl, fun _ h => h, fun _ => rfl, fun _ => rfl, fun _ => rfl,
    fun _ => rfl, fun _ => rfl⟩

end Still

theorem collectController_held {run : Runner Code State} {w : Whole} (held : Held w) (c : Nat) :
    collectController run c w = some ((), w) :=
  collectController_of_alive run (by simp [isControllerAlive, Controller.isAlive, held.controllers])

theorem collectView_held {run : Runner Code State} {w : Whole} (held : Held w) (v : Nat) :
    collectView run v w = some ((), w) := by
  unfold collectView
  rw [get_bind]
  exact congrFun (if_pos (by simp [isViewAlive, held.views])) w

/-! ## Being abreast -/

/-- A view that is set up is bound, and its controller hears of the model by a connection. -/
structure Shows (v : Nat) (port : ConnectionId) (w : Whole) : Prop where
  view : (w.controller controller).view = some v
  initialized : (w.view v).initialized = true
  hasModel : (w.client.screens.get v).hasModel = true
  sound : (w.client.screens.get v).broken = false
  unblocked : (w.signal (.modelData model)).blocked = false
  hears : ∃ d, (w.signal (.modelData model)).registry.get? port =
      some ⟨.controllerData controller, d⟩ ∧ (d = .direct ∨ ∃ mode, d = .dispatched mode dispatcher)

/-- The task by which the controller hears that its model changed. -/
def word (port : ConnectionId) : Task Code :=
  .delivery (.modelData model) port (.controllerData controller) .dataChanged

/-- The panel that a view shows last says what the model knows. -/
def IsFresh (v : Nat) (w : Whole) : Prop :=
  (w.client.screens.get v).shown = some (Panel.ofStore (properties w))

/-- Or word of a change waits. -/
def Abreast (v : Nat) (port : ConnectionId) (w : Whole) : Prop := IsFresh v w ∨ word port ∈ queue w

/-- Nothing is bound, if everybody has a handle. -/
def Stays (w w' : Whole) : Prop := Held w → Still w w'

/-- And the bound view is abreast if it was before or if the model changed. -/
def Attends (v : Nat) (port : ConnectionId) (w w' : Whole) : Prop :=
  Held w → Still w w' ∧
    (Shows v port w → Abreast v port w ∨ properties w' ≠ properties w → Abreast v port w')

/-- And the bound view is abreast, whatever was before. -/
def Renews (v : Nat) (port : ConnectionId) (w w' : Whole) : Prop :=
  Held w → Still w w' ∧ (Shows v port w → Abreast v port w')

variable {v : Nat} {port : ConnectionId} {w w₁ w' : Whole}

theorem Still.shows (still : Still w w') (shows : Shows v port w) : Shows v port w' where
  view := (still.of_controller (·.view) (fun _ => rfl) _).trans shows.view
  initialized := (still.initialized v).trans shows.initialized
  hasModel := (still.hasModel v).trans shows.hasModel
  sound := (still.broken v).trans shows.sound
  unblocked := by rw [still.signals, shows.unblocked]
  hears := by rw [still.signals]; exact shows.hears

theorem attends_composes (v : Nat) (port : ConnectionId) : Composes (Attends v port) where
  refl w _ := ⟨.refl w, fun _ due => due.resolve_right fun changed => changed rfl⟩
  trans := by
    intro a b c first second held
    obtain ⟨still, keeps⟩ := first held
    obtain ⟨still', keeps'⟩ := second (still.keepsHeld held)
    refine ⟨still.trans still', fun shows due => keeps' (still.shows shows) ?_⟩
    by_cases same : properties b = properties a
    · rw [← same] at due
      exact due.imp_left fun abreast => keeps shows (.inl abreast)
    · exact .inl (keeps shows (.inr same))

theorem Stays.renews (first : Stays w w₁) (second : Renews v port w₁ w') : Renews v port w w' := by
  intro held
  have still := first held
  obtain ⟨still', renewed⟩ := second (still.keepsHeld held)
  exact ⟨still.trans still', fun shows => renewed (still.shows shows)⟩

theorem Renews.attends (first : Renews v port w w₁) (second : Attends v port w₁ w') :
    Renews v port w w' := by
  intro held
  obtain ⟨still, renewed⟩ := first held
  obtain ⟨still', keeps⟩ := second (still.keepsHeld held)
  exact ⟨still.trans still', fun shows => keeps (still.shows shows) (.inl (renewed shows))⟩

theorem Renews.toAttends (renews : Renews v port w w') : Attends v port w w' := fun held =>
  ⟨(renews held).1, fun shows _ => (renews held).2 shows⟩

theorem Attends.stays (attends : Attends v port w w') : Stays w w' := fun held => (attends held).1

/-- What leaves the queue, the model and the panels alone leaves the bound view abreast. -/
theorem attends_of_same (still : Still w w') (store : properties w' = properties w)
    (shown : ∀ v, (w'.client.screens.get v).shown = (w.client.screens.get v).shown)
    (waits : ∀ t ∈ queue w, t ∈ queue w') : Attends v port w w' := by
  refine fun _ => ⟨still, fun _ due => ?_⟩
  refine (due.resolve_right fun changed => changed store).imp (fun fresh => ?_) (waits _)
  rw [IsFresh, shown, store]
  exact fresh

/-! ## Printing -/

/-- A view prints a panel with what the model knows. -/
def shownAnew (u : Nat) (w : Whole) : Whole :=
  let shown := (w.client.screens.get u).print (.panel (Panel.ofStore (properties w)))
  { w with client := { w.client with screens := w.client.screens.set u shown } }

theorem shownAnew_still (u : Nat) (w : Whole) : Still w (shownAnew u w) := by
  let p : Printed := .panel (Panel.ofStore (properties w))
  let f : State → State := fun s => { s with screens := s.screens.set u ((s.screens.get u).print p) }
  refine Still.change (f := f) fun s x => ?_
  simp only [f, Family.get_set]
  split
  · next same => exact same ▸ ⟨(Screen.print_hasModel _ _).symm, (Screen.print_broken _ _).symm⟩
  · exact ⟨rfl, rfl⟩

theorem shownAnew_renews (w : Whole) : Renews v port w (shownAnew v w) := by
  refine fun _ => ⟨shownAnew_still v w, fun shows => .inl ?_⟩
  show ((w.client.screens.set v _).get v).shown = _
  rw [Family.get_set, if_pos rfl, Screen.shown_print shows.sound]
  rfl

theorem shownAnew_attends (u : Nat) (w : Whole) : Attends v port w (shownAnew u w) := by
  by_cases here : u = v
  · exact here ▸ (shownAnew_renews w).toAttends
  · -- Another view prints.
    refine fun _ => ⟨shownAnew_still u w, fun _ due => ?_⟩
    refine (due.resolve_right fun changed => changed rfl).imp_left fun fresh => ?_
    show ((w.client.screens.set u _).get v).shown = _
    rw [Family.get_set, if_neg (Ne.symm here)]
    exact fresh

section Procedures

variable {α γ : Type} {p : Proc Whole α} {f : α → Proc Whole γ}

theorem keeps_stays (keeps : Keeps (Attends v port) p) : Keeps Stays p :=
  fun w => (keeps w).mono fun _ _ => Attends.stays

theorem keeps_attends (keeps : Keeps (Renews v port) p) : Keeps (Attends v port) p :=
  fun w => (keeps w).mono fun _ _ => Renews.toAttends

theorem renews_after (first : Keeps Stays p) (rest : ∀ a, Keeps (Renews v port) (f a)) :
    Keeps (Renews v port) (p >>= f) :=
  fun w => .bind ((first w).mono fun a w₁ before => (rest a w₁).mono fun _ _ => before.renews)

theorem renews_before (first : Keeps (Renews v port) p) (rest : ∀ a, Keeps (Attends v port) (f a)) :
    Keeps (Renews v port) (p >>= f) :=
  fun w => .bind ((first w).mono fun a w₁ before => (rest a w₁).mono fun _ _ => before.attends)

end Procedures

/-! ## What the application does by itself -/

/-- Rules for programs that only the bound view looks at. -/
def showing : Rules where
  writes _ := True
  changes f := ∀ (s : State) v, (s.screens.get v).Alike ((f s).screens.get v)
  acts := True

theorem showing_lax : showing.Lax := ⟨fun _ _ => trivial, fun _ alike s => (alike s).screens⟩

theorem showing_changes {f : State → State} (same : ∀ s, (f s).screens = s.screens) :
    showing.changes f := fun s _ => same s ▸ .refl _

theorem showing_free : showing.Free where
  starts := showing_changes fun _ => rfl
  stops := showing_changes fun _ => rfl
  keeps _ _ := change_allowed (showing_changes fun _ => rfl)

/-- What the application does when nothing is bound. -/
def IsMild : Action Code State → Prop
  | .handleAction .. | .announceClosing .. | .drain .. => True
  | .initializeModel m | .resetModel m => m = model
  | a => showing.Allow a

theorem isMild_of_allow {a : Action Code State} (allowed : showing.Allow a) : IsMild a := by
  cases a <;> first | exact allowed | exact allowed.elim

/-- What has to be known of a way to run calls before one that nests deeper leaves the bound view
    abreast. -/
structure Attentive (v : Nat) (port : ConnectionId) (run : Runner Code State) : Prop where
  slot : ∀ slot notice, Keeps (Attends v port) (run (.slot slot notice))
  task : ∀ t, Keeps (Attends v port) (run (.task t))
  action : ∀ a, IsMild a → Keeps (Attends v port) (run (.action a))
  /-- Changes of the application's own state are what they are. -/
  change : ∀ f w, Ends (run (.action (.change f))) w fun _ w' => w' = { w with client := f w.client }
  /-- The controller shows its view anew. -/
  refresh : Keeps (Renews v port) (run (.action (.refresh controller)))
  /-- And so it does when it hears of its model. -/
  told : Keeps (Renews v port) (run (.slot (.controllerData controller) .dataChanged))
  heard : Keeps (Renews v port) (run (.task (word port)))
  /-- The view follows the phase of its controller, except to the closing phase. -/
  follows : ∀ phase, phase ≠ .viewClosing →
    Keeps (Renews v port) (run (.slot (.viewPhase v) (.phase phase)))

namespace Attentive

variable {run : Runner Code State} (attentive : Attentive v port run)
include attentive

theorem client {ρ : Type} {code : Program ρ} (all : code.All showing.Allow) :
    Keeps (Attends v port) (run.client code) :=
  .program (attends_composes v port) (fun a allowed => attentive.action a (isMild_of_allow allowed))
    all

/-! ### Showing -/

/-- A view prints what the model knows, if it can. -/
theorem display_ends (u : Nat) (w : Whole) : Ends (run.client (display u)) w fun _ w' =>
    Attends v port w w' ∧ (u = v → Renews v port w w') := by
  have finish : Keeps (Attends v port) (run.client (.perform (Action.finishUpdate u))) :=
    attentive.client ⟨trivial, fun _ => trivial⟩
  unfold App.display
  refine ends_see ?_
  split
  · refine ends_see (ends_program (ends_perform ?_))
    refine (attentive.change _ w).mono fun _ w₁ printed => ?_
    obtain rfl : w₁ = shownAnew u w := printed
    refine (finish _).mono fun _ w' finished => ?_
    refine ⟨(attends_composes v port).trans (shownAnew_attends u w) finished, fun same => ?_⟩
    exact Renews.attends (same ▸ shownAnew_renews w) finished
  · next unready =>
      refine (ends_pure _ _ _).mpr ⟨(attends_composes v port).refl w, fun same => ?_⟩
      subst same
      refine fun _ => ⟨.refl w, fun shows => absurd ?_ unready⟩
      rw [shows.initialized, shows.hasModel]
      rfl

theorem display (u : Nat) : Keeps (Attends v port) (run.client (App.display u)) :=
  fun w => (attentive.display_ends u w).mono fun _ _ shown => shown.1

theorem onlooker : Onlooker (Attends v port) True run where
  order := attends_composes v port
  slot slot notice _ := attentive.slot slot notice
  post w d t := by
    refine attends_of_same (.updateDispatcher d _) rfl (fun _ => rfl) fun u waits => ?_
    rw [queue, dispatcher_updateDispatcher]
    split
    · next same => exact same ▸ List.mem_append_left _ waits
    · exact waits
  pins w c _ := attends_of_same (.updateController c (fun _ => ⟨rfl, rfl, rfl⟩) (fun _ => rfl)
    fun _ => id) rfl (fun _ => rfl) fun _ => id
  closing w c := attends_of_same (.updateController c (fun _ => ⟨rfl, rfl, rfl⟩) (fun _ => rfl)
    fun _ _ => rfl) rfl (fun _ => rfl) fun _ => id
  view w u _ _ := attends_of_same (.updateView u (fun _ => ⟨rfl, rfl, rfl⟩)
    fun _ => ⟨rfl, rfl, rfl⟩) rfl (fun _ => rfl) fun _ => id
  collectController c w r w' ran held := by
    rw [collectController_held held] at ran
    cases ran
    exact (attends_composes v port).refl w held
  collectView u w r w' ran held := by
    rw [collectView_held held] at ran
    cases ran
    exact (attends_composes v port).refl w held

theorem answers : Answers (Attends v port) True behaviour run where
  handles _ _ name data := attentive.client (handles_allowed showing_lax trivial name data)
  derive _ := attentive.client (deriveTitle_allowed showing_lax)
  dataChanged c := attentive.client (dataChanged_allowed c)
  updateRequested _ := .pure (attends_composes v port) _
  closing _ := attentive.client (stop_allowed showing_lax showing_free)
  display := attentive.display
  showError u _ := attentive.client (print_allowed showing_lax u rfl)
  showInfo u _ := attentive.client (print_allowed showing_lax u rfl)
  slot code notice := attentive.client (slot_allowed showing_lax code notice)

section Holding

variable {α : Type} {p : Proc Whole α}

theorem holdingController_renews (c : Nat) (inner : Keeps (Renews v port) p) :
    Keeps (Renews v port) (holdingController run c p) := by
  have o := attentive.onlooker
  have pinned : ∀ pins : Controller Code → Nat,
      Keeps (Attends v port) (modify (updateController c fun o => { o with pins := pins o })) :=
    fun pins => .modify fun w => o.pins w c pins
  refine renews_after (keeps_stays (pinned _)) fun _ => renews_before inner fun r => ?_
  refine .bind o.order (pinned _) fun _ => ?_
  exact .bind o.order (o.collectController c) fun _ => .pure o.order r

theorem holdingView_renews (u : Nat) (inner : Keeps (Renews v port) p) :
    Keeps (Renews v port) (holdingView run u p) := by
  have o := attentive.onlooker
  have pinned : ∀ pins : View Code → Nat,
      Keeps (Attends v port) (modify (updateView u fun o => { o with pins := pins o })) :=
    fun pins => .modify fun w => o.view w u pins (·.closing)
  refine renews_after (keeps_stays (pinned _)) fun _ => renews_before inner fun r => ?_
  refine .bind o.order (pinned _) fun _ => ?_
  exact .bind o.order (o.collectView u) fun _ => .pure o.order r

end Holding

theorem refresh_renews : Keeps (Renews v port) (Ensemble.refresh run behaviour controller) := by
  intro w
  by_cases bound : (w.controller controller).view = some v
  · refine .get_bind ?_
    rw [bound]
    have shown : Keeps (Renews v port) (run.client (App.display v)) := fun w =>
      (attentive.display_ends v w).mono fun _ _ shown => shown.2 rfl
    have derived : Keeps Stays (run.client (behaviour.derive controller)) :=
      keeps_stays (attentive.answers.derive controller)
    exact attentive.holdingView_renews v (renews_after derived fun _ => shown) w
  · -- Another view is bound, or none.
    have refreshed := attentive.onlooker.refresh attentive.answers controller
    refine (refreshed w).mono fun _ _ attends held => ⟨(attends held).1, fun shows => ?_⟩
    exact absurd shows.view bound

/-! ### Telling -/

theorem deliver_renews {d : Delivery}
    (reached : d = .direct ∨ ∃ mode, d = .dispatched mode dispatcher) :
    Keeps (Renews v port) (deliver run (.modelData model) .dataChanged port
      ⟨.controllerData controller, d⟩) := by
  rcases reached with rfl | ⟨mode, rfl⟩
  · exact attentive.told
  · refine .look fun w => .ite attentive.told (.modify fun w _ => ?_)
    refine ⟨.updateDispatcher dispatcher _, fun _ => .inr ?_⟩
    rw [queue_post]
    exact List.mem_append_right _ (List.mem_singleton_self _)

theorem visit_attends (s : SignalRef) (notice : Notice)
    (entries : List (ConnectionId × Connection (Slot Code))) :
    Keeps (Attends v port) (visit run s notice entries) :=
  (visit_tracks attentive.onlooker.order s notice entries
    (fun e _ => (tracks_self _).mpr (attentive.slot e.2.slot _)) attentive.onlooker.post).keeps

/-- A connection is visited that has the view abreast, and what comes after it leaves the view
    abreast. -/
theorem visit_renews {s : SignalRef} {notice : Notice} {id : ConnectionId}
    {k : Connection (Slot Code)} (renews : Keeps (Renews v port) (deliver run s notice id k))
    {entries : List (ConnectionId × Connection (Slot Code))} (member : (id, k) ∈ entries)
    (held : Held w) (connected : (w.signal s).isConnected id = true) :
    Ends (visit run s notice entries) w fun _ w' => Renews v port w w' := by
  have o := attentive.onlooker
  induction entries generalizing w with
  | nil => cases member
  | cons first rest ih =>
      obtain ⟨other, k'⟩ := first
      refine .get_bind ?_
      rcases List.mem_cons.mp member with same | later
      · cases same
        rw [if_pos connected]
        refine .bind ((renews w).mono fun _ w₁ renewed => ?_)
        exact (attentive.visit_attends s notice rest w₁).mono fun _ _ => renewed.attends
      · have onward : ∀ {w₁}, Stays w w₁ →
            Ends (visit run s notice rest) w₁ fun _ w' => Renews v port w w' := by
          intro w₁ stays
          have still := stays held
          have connected₁ : (w₁.signal s).isConnected id = true := by rw [still.signals, connected]
          exact (ih later (still.keepsHeld held) connected₁).mono fun _ _ => stays.renews
        split
        · have delivered := deliver_tracks o.order s notice other k'
            ((tracks_self _).mpr (attentive.slot k'.slot _)) o.post
          exact .bind ((delivered.keeps w).mono fun _ _ attends => onward attends.stays)
        · exact onward fun _ => .refl w

/-- That the model changed is told the controller, at once or by the word that waits for it. -/
theorem emitData_renews :
    Keeps (Renews v port) (Ensemble.emit run (.modelData model) .dataChanged) := by
  have emitted := attentive.onlooker.emit (.modelData model) .dataChanged nofun
  intro w r w' ran held
  refine ⟨(emitted w r w' ran held).1, fun shows => ?_⟩
  obtain ⟨d, named, reached⟩ := shows.hears
  have connected : (w.signal (.modelData model)).isConnected port = true := by
    simp [Signal.isConnected, Registry.contains, named]
  have visited := attentive.visit_renews (attentive.deliver_renews reached)
    (mem_connections.mpr named) held connected
  unfold Ensemble.emit at ran
  rw [get_bind] at ran
  rw [shows.unblocked] at ran
  exact (visited r w' ran held).2 shows

/-! ### Writing -/

theorem emitValidity_attends :
    Keeps (Attends v port) (emitValidity run behaviour model) :=
  .look fun _ => attentive.onlooker.emit _ _ nofun

theorem write_attends (name : String) (value : Value) :
    Keeps (Attends v port) (write run behaviour model true name value) := by
  have o := attentive.onlooker
  refine .bind o.order (.pure o.order _) fun accepted => .ite (.pure o.order _) ?_
  refine .look fun w => .ite (.pure o.order _) (keeps_attends ?_)
  refine renews_after (.modify fun w _ => .updateModel model fun _ => ⟨rfl, rfl, rfl⟩) fun _ => ?_
  refine renews_after (keeps_stays (attentive.client (afterSet_allowed name value))) fun _ => ?_
  refine renews_after (keeps_stays (o.emit _ _ nofun)) fun _ => ?_
  exact renews_before attentive.emitData_renews fun _ => .pure o.order _

theorem setProperty_attends (name : String) (value : Value) :
    Keeps (Attends v port) (setProperty run behaviour model name value) := by
  have o := attentive.onlooker
  refine .bind o.order (attentive.write_attends name value) fun outcome => ?_
  cases outcome with
  | changed => exact .bind o.order attentive.emitValidity_attends fun _ => .pure o.order _
  | unchanged | rejected => exact .pure o.order _

/-- However the model is filled, that is told. -/
theorem filled_attends {f : Model Code → Model Code}
    (signals : ∀ o, (f o).propertyChanged = o.propertyChanged ∧
      (f o).dataChanged = o.dataChanged ∧ (f o).validityChanged = o.validityChanged) :
    Keeps (Attends v port) (do
      modify (updateModel model f)
      emitReloaded run behaviour model
      return (.ok () : Except ModelError Unit)) := by
  have o := attentive.onlooker
  have told : Keeps (Renews v port) (emitReloaded run behaviour model) :=
    renews_before attentive.emitData_renews fun _ => attentive.emitValidity_attends
  refine keeps_attends (renews_after (.modify fun w _ => .updateModel model signals) fun _ => ?_)
  exact renews_before told fun _ => .pure o.order _

theorem initializeModel_attends :
    Keeps (Attends v port) (initializeModel run behaviour model) := by
  have o := attentive.onlooker
  have populated := attentive.client (populate_allowed showing_lax model)
  refine .look fun w => .ite (.pure o.order _) (.bind o.order populated fun result => ?_)
  cases result with
  | error e => exact .pure o.order _
  | ok defaults =>
      exact .look fun w => .ite (.pure o.order _)
        (attentive.filled_attends fun _ => ⟨rfl, rfl, rfl⟩)

theorem resetModel_attends : Keeps (Attends v port) (resetModel run behaviour model) := by
  have o := attentive.onlooker
  have populated := attentive.client (populate_allowed showing_lax model)
  refine .bind o.order populated fun result => ?_
  cases result with
  | error e => exact .pure o.order _
  | ok defaults => exact attentive.filled_attends fun _ => ⟨rfl, rfl, rfl⟩

/-! ### Draining -/

/-- A word that is taken from the queue is heard. -/
theorem taken_ends {d : Nat} {t : Task Code} {rest : Dispatcher (Task Code)}
    (next : (w.dispatcher d).next? = some (t, rest)) :
    Ends (run (.task t)) (updateDispatcher d (fun _ => rest) w) fun _ w' => Attends v port w w' := by
  have taken : Still w (updateDispatcher d (fun _ => rest) w) := .updateDispatcher d _
  have removed : ∀ u ∈ queue w, u ∈ queue (updateDispatcher d (fun _ => rest) w) ∨ u = t := by
    intro u waits
    rw [queue, dispatcher_updateDispatcher]
    split
    · next same =>
        subst same
        unfold Dispatcher.next? at next
        unfold queue at waits
        split at next
        · next task later queued =>
            cases next
            rw [queued] at waits
            exact (List.mem_cons.mp waits).symm
        · cases next
    · exact .inl waits
  by_cases told : t = word port
  · subst told
    refine (attentive.heard _).mono fun _ w' renews => ?_
    exact Renews.toAttends (Stays.renews (fun _ => taken) renews)
  · refine (attentive.task t _).mono fun _ w' attends => ?_
    have first : Attends v port w (updateDispatcher d (fun _ => rest) w) := by
      refine fun _ => ⟨taken, fun _ due => ?_⟩
      refine (due.resolve_right fun changed => changed rfl).imp (fun fresh => fresh) fun waits => ?_
      exact (removed _ waits).resolve_right fun same => told same.symm
    exact (attends_composes v port).trans first attends

theorem drain_attends (d fuel : Nat) : Keeps (Attends v port) (drain run d fuel) := by
  have o := attentive.onlooker
  induction fuel with
  | zero =>
      intro w r w' ran
      cases ran
  | succ fuel ih =>
      intro w
      refine .get_bind ?_
      cases next : (w.dispatcher d).next? with
      | none => exact Keeps.pure o.order 0 w
      | some first =>
          have counted : Keeps (Attends v port) (do
              modify (updateDispatcher d Dispatcher.finish)
              return (← drain run d fuel) + 1) := by
            refine .bind o.order (.modify fun w => ?_) fun _ =>
              .bind o.order ih fun n => .pure o.order (n + 1)
            refine attends_of_same (.updateDispatcher d _) rfl (fun _ => rfl) fun t waits => ?_
            rw [queue, dispatcher_updateDispatcher]
            split
            · next same => exact same ▸ waits
            · exact waits
          refine .modify_bind (.bind ((attentive.taken_ends next).mono fun _ w₂ before => ?_))
          exact (counted w₂).mono fun _ _ => o.order.trans before

/-! ### Calls -/

theorem performAction_attends (fuel : Nat) {a : Action Code State} (mild : IsMild a) :
    Keeps (Attends v port) (performAction run behaviour fuel a) := by
  have o := attentive.onlooker
  have passing : a.isPassing = true → Keeps (Attends v port) (performAction run behaviour fuel a) :=
    fun passing => o.performAction attentive.answers fuel passing fun _ => trivial
  cases a with
  | emit | handleAction | refresh | reportError | reportDone | report | announceClosing
  | finishUpdate => exact passing rfl
  | setProperty m name value =>
      obtain rfl : m = model := mild.1
      exact attentive.setProperty_attends name value
  | change f =>
      exact .modify fun w => attends_of_same
        (.change fun s x => ⟨(mild s x).hasModel.symm, (mild s x).broken.symm⟩) rfl
        (fun x => (mild w.client x).shown) fun _ => id
  | post d code => exact .modify fun w => o.post w d _
  | enable u enabled =>
      exact .modify fun w => attends_of_same (.updateView u (fun _ => ⟨rfl, rfl, rfl⟩)
        fun _ => ⟨rfl, rfl, rfl⟩) rfl (fun _ => rfl) fun _ => id
  | perform code => exact attentive.client (job_allowed showing_lax trivial code)
  | inBackground a =>
      have inner := attentive.action a (isMild_of_allow mild.2)
      exact (inBackground_tracks o.order
        (fun w t => attends_of_same (.setThread t) rfl (fun _ => rfl) fun _ => id)
        ((tracks_self _).mpr inner)).keeps
  | initializeModel m =>
      obtain rfl : m = model := mild
      exact attentive.initializeModel_attends
  | resetModel m =>
      obtain rfl : m = model := mild
      exact attentive.resetModel_attends
  | drain d => exact attentive.drain_attends d fuel
  | _ => exact mild.elim

/-- What leaves the bound view abreast at some depth does so one call deeper. -/
theorem body (fuel : Nat) : Attentive v port (Ensemble.body run behaviour fuel) where
  slot slot notice := attentive.onlooker.serve attentive.answers slot notice fun _ => trivial
  task t := by
    have order := attends_composes v port
    cases t with
    | delivery s i slot notice =>
        exact .look fun _ => .ite (attentive.slot slot notice) (.pure order ())
    | client code => exact attentive.client (job_allowed showing_lax trivial code)
  action a mild := attentive.performAction_attends fuel mild
  change f w := (ends_modify _ w _).mpr rfl
  refresh := attentive.holdingController_renews controller attentive.refresh_renews
  told := by
    have hears : Keeps (Renews v port) (run.client (behaviour.dataChanged controller)) := by
      show Keeps (Renews v port) (run.client (.perform (.refresh controller)))
      unfold Runner.client
      rw [Program.run_perform]
      exact attentive.refresh
    intro w
    refine .get_bind ?_
    split
    · exact attentive.holdingController_renews controller hears w
    · next dead =>
        refine (ends_pure _ _ _).mpr fun held => absurd ?_ dead
        simp [isControllerAlive, Controller.isAlive, held.controllers]
  heard := by
    intro w
    refine .get_bind ?_
    split
    · exact attentive.told w
    · next gone =>
        refine (ends_pure _ _ _).mpr fun _ => ⟨.refl w, fun shows => absurd ?_ gone⟩
        obtain ⟨d, named, -⟩ := shows.hears
        simp [Signal.isConnected, Registry.contains, named]
  follows phase other := by
    have shown : Keeps (Renews v port) (run.client (behaviour.display v)) := fun w =>
      (attentive.display_ends v w).mono fun _ _ shown => shown.2 rfl
    show Keeps _ (if phase = .viewClosing then pure () else ifViewAlive run v _)
    rw [if_neg other]
    intro w
    refine .get_bind ?_
    split
    · exact attentive.holdingView_renews v shown w
    · next dead =>
        refine (ends_pure _ _ _).mpr fun held => absurd ?_ dead
        simp [isViewAlive, held.views]

end Attentive

/-- Whatever the application does while nothing is bound leaves the bound view abreast. -/
theorem attentive (v : Nat) (port : ConnectionId) (depth : Nat) : Attentive v port (runs depth) := by
  induction depth with
  | zero =>
      -- No call has a result.
      exact {
        slot := fun _ _ _ _ _ ran => nomatch ran
        task := fun _ _ _ _ ran => nomatch ran
        action := fun _ _ _ _ _ ran => nomatch ran
        change := fun _ _ _ _ ran => nomatch ran
        refresh := fun _ _ _ ran => nomatch ran
        told := fun _ _ _ ran => nomatch ran
        heard := fun _ _ _ ran => nomatch ran
        follows := fun _ _ _ _ _ ran => nomatch ran }
  | succ depth ih => exact ih.body depth

end Mvc.App
