import Mvc.Proofs.Gist
import Mvc.Proofs.Slots

/-! # Steady steps

A step is steady if nothing is bound or connected by it and what it posts are chores of the
application. An application is mounted if everybody has a handle, no signal is blocked, and all
connections are of the kinds that the application makes, or listeners. It stays so through
steady steps.

An emission of a mounted application comes to an end if its slots do, and what it does to the
gist is put together from what they do.
-/

namespace Mvc.App

open Ensemble Proc

/-- A controller apart from its signals, from who holds it for a while and from its closing. -/
def standing (o : Controller Code) : Controller Code := { o.silent with pins := 0, closing := false }

/-- Nothing was bound or connected, and what was posted are chores. -/
structure Steady (w w' : Whole) : Prop where
  thread : w'.thread = w.thread
  signals : ∀ s, w'.signal s = w.signal s
  stands : standing (w'.controller controller) = standing (w.controller controller)
  held : ∀ v, (w'.view v).held = (w.view v).held
  attachments : ∀ v, (w'.view v).attachment = (w.view v).attachment
  config : w'.client.config = w.client.config
  chores : ∀ t ∈ queue w', t ∈ queue w ∨ IsChore t

/-- And the presentation thread posts nothing. -/
structure Onward (w w' : Whole) : Prop extends Steady w w' where
  still : w.thread = .presentation → queue w' = queue w

/-- Whether a connection at a signal is one that the application makes, or a listener. -/
def Fits (w : Whole) (s : SignalRef) (k : Connection (Slot Code)) : Prop :=
  match k.slot with
  | .controllerData c =>
    (∃ m, s = .modelData m) ∧ c = controller ∧ k.delivery = modelDelivery w controller
  | .controllerAction c => (∃ v, s = .viewAction v) ∧ c = controller ∧ k.delivery = .direct
  | .controllerClosing c => (∃ v, s = .viewClosing v) ∧ c = controller ∧ k.delivery = .direct
  | .controllerUpdate c => (∃ v, s = .viewUpdate v) ∧ c = controller ∧ k.delivery = .direct
  | .viewError _ => s = .controllerError controller ∧ k.delivery = .direct
  | .viewInfo _ => s = .controllerDone controller ∧ k.delivery = .direct
  | .viewPhase _ => s = .controllerPhase controller ∧ k.delivery = .direct
  | .client (.listen t) => s = t ∧ k.delivery = .direct
  | .client (.followBusy _) => s = Channel.busy ∧ k.delivery = modelDelivery w controller
  | .client .followTheme => s = Channel.theme ∧ k.delivery = .direct
  | .client _ => False

/-- Everybody has a handle, no signal is blocked, and all is connected and posted as the
    application does it. -/
structure Mounted (w : Whole) : Prop where
  held : (w.controller controller).held = true
  views : ∀ v, (w.view v).held = true
  sole : ∀ d, (w.controller controller).dispatcher = some d → d = dispatcher
  blocked : ∀ s, (w.signal s).blocked = false
  fits : ∀ s id k, (w.signal s).registry.get? id = some k → Fits w s k
  chores : ∀ t ∈ queue w, IsChore t

variable {w w' w₁ : Whole}

namespace Steady

theorem refl (w : Whole) : Steady w w :=
  ⟨rfl, fun _ => rfl, rfl, fun _ => rfl, fun _ => rfl, rfl, fun _ => .inl⟩

theorem trans (first : Steady w w₁) (second : Steady w₁ w') : Steady w w' where
  thread := second.thread.trans first.thread
  signals s := (second.signals s).trans (first.signals s)
  stands := second.stands.trans first.stands
  held v := (second.held v).trans (first.held v)
  attachments v := (second.attachments v).trans (first.attachments v)
  config := second.config.trans first.config
  chores t member := (second.chores t member).elim (first.chores t) .inr

/-- What does not look at signals, at pins and at the closing of the controller is the same. -/
theorem of_controller (steady : Steady w w') {α : Type} (f : Controller Code → α)
    (blind : ∀ o, f (standing o) = f o) :
    f (w'.controller controller) = f (w.controller controller) := by
  rw [← blind, steady.stands, blind]

theorem dispatcher (steady : Steady w w') :
    (w'.controller controller).dispatcher = (w.controller controller).dispatcher :=
  steady.of_controller (·.dispatcher) fun _ => rfl

theorem delivery (steady : Steady w w') :
    modelDelivery w' controller = modelDelivery w controller := by
  simp only [modelDelivery, steady.dispatcher]

theorem frame (steady : Steady w w') : frame w' = frame w := by
  have routed := congrArg Option.isSome steady.dispatcher
  simp only [App.frame, steady.signals, steady.config, routed]

/-- The frame and the thread of the gist stay. -/
theorem gist (steady : Steady w w') :
    gist w' = { gist w' with frame := App.frame w, thread := w.thread } := by
  rw [← steady.frame, ← steady.thread]
  rfl

theorem mounted (steady : Steady w w') (mounted : Mounted w) : Mounted w' where
  held := (steady.of_controller (·.held) fun _ => rfl).trans mounted.held
  views v := (steady.held v).trans (mounted.views v)
  sole d same := mounted.sole d (steady.dispatcher ▸ same)
  blocked s := by rw [steady.signals, mounted.blocked]
  fits s id k named := by
    rw [steady.signals] at named
    have fits := mounted.fits s id k named
    unfold Fits at fits ⊢
    rw [steady.delivery]
    exact fits
  chores t member := (steady.chores t member).elim (mounted.chores t) id

end Steady

namespace Onward

theorem refl (w : Whole) : Onward w w := ⟨.refl w, fun _ => rfl⟩

theorem trans (first : Onward w w₁) (second : Onward w₁ w') : Onward w w' where
  toSteady := first.toSteady.trans second.toSteady
  still presentation := by
    rw [second.still (first.thread.trans presentation), first.still presentation]

end Onward

/-! ## Going on -/

/-- The procedure comes to an end and goes onward, and it ends as said. -/
def Goes {α : Type} (p : Proc Whole α) (w : Whole) (post : α → Gist → Prop) : Prop :=
  Reaches p w fun r w' => Onward w w' ∧ post r (gist w')

section Goes

variable {α γ : Type} {p : Proc Whole α} {post : α → Gist → Prop}

theorem goes_of_eq {r : α} (ends : p w = some (r, w')) (onward : Onward w w')
    (holds : post r (gist w')) : Goes p w post :=
  reaches_of_eq ends ⟨onward, holds⟩

theorem goes_pure {r : α} (holds : post r (gist w)) : Goes (pure r) w post :=
  goes_of_eq rfl (.refl w) holds

theorem goes_get {f : Whole → Proc Whole α} (rest : Goes (f w) w post) :
    Goes (get >>= f) w post := rest

theorem goes_after {f : α → Proc Whole γ} {r : α} {post' : γ → Gist → Prop}
    (ends : p w = some (r, w₁)) (onward : Onward w w₁) (rest : Goes (f r) w₁ post') :
    Goes (p >>= f) w post' := by
  obtain ⟨r', w', ends', onward', holds⟩ := rest
  exact ⟨r', w', (bind_eq_of_eq ends).trans ends', onward.trans onward', holds⟩

theorem Goes.bind {f : α → Proc Whole γ} {post' : γ → Gist → Prop} (first : Goes p w post)
    (rest : ∀ r w₁, Onward w w₁ → post r (gist w₁) → Goes (f r) w₁ post') :
    Goes (p >>= f) w post' := by
  refine Reaches.bind first ?_
  rintro r w₁ ⟨onward, holds⟩
  exact (rest r w₁ onward holds).mono fun _ _ later => ⟨onward.trans later.1, later.2⟩

theorem Goes.mono {post' : α → Gist → Prop} (goes : Goes p w post)
    (imp : ∀ r g, post r g → post' r g) : Goes p w post' :=
  Reaches.mono goes fun r _ holds => ⟨holds.1, imp r _ holds.2⟩

end Goes

/-- The procedure comes to an end and nothing is bound by it, and it ends as said. It may post
    chores or do them. -/
def Moves {α : Type} (p : Proc Whole α) (w : Whole) (post : α → Gist → Prop) : Prop :=
  Reaches p w fun r w' => Steady w w' ∧ post r (gist w')

section Moves

variable {α γ : Type} {p : Proc Whole α} {post : α → Gist → Prop}

theorem Goes.moves (goes : Goes p w post) : Moves p w post :=
  Reaches.mono goes fun _ _ holds => ⟨holds.1.toSteady, holds.2⟩

theorem moves_of_eq {r : α} (ends : p w = some (r, w')) (steady : Steady w w')
    (holds : post r (gist w')) : Moves p w post :=
  reaches_of_eq ends ⟨steady, holds⟩

theorem moves_after {f : α → Proc Whole γ} {r : α} {post' : γ → Gist → Prop}
    (ends : p w = some (r, w₁)) (steady : Steady w w₁) (rest : Moves (f r) w₁ post') :
    Moves (p >>= f) w post' := by
  obtain ⟨r', w', ends', steady', holds⟩ := rest
  exact ⟨r', w', (bind_eq_of_eq ends).trans ends', steady.trans steady', holds⟩

theorem moves_get {f : Whole → Proc Whole α} (rest : Moves (f w) w post) :
    Moves (get >>= f) w post := rest

theorem Moves.bind {f : α → Proc Whole γ} {post' : γ → Gist → Prop} (first : Moves p w post)
    (rest : ∀ r w₁, Steady w w₁ → post r (gist w₁) → Moves (f r) w₁ post') :
    Moves (p >>= f) w post' := by
  refine Reaches.bind first ?_
  rintro r w₁ ⟨steady, holds⟩
  exact (rest r w₁ steady holds).mono fun _ _ later => ⟨steady.trans later.1, later.2⟩

theorem Moves.mono {post' : α → Gist → Prop} (moves : Moves p w post)
    (imp : ∀ r g, post r g → post' r g) : Moves p w post' :=
  Reaches.mono moves fun r _ holds => ⟨holds.1, imp r _ holds.2⟩

theorem gist_thread (thread : Thread) :
    gist { w with thread } = { gist w with thread } := by
  simp only [gist, frame, signal_setThread]
  rfl

theorem Mounted.onThread (mounted : Mounted w) (thread : Thread) : Mounted { w with thread } := by
  refine ⟨mounted.held, mounted.views, mounted.sole, fun s => ?_, fun s id k named => ?_,
    mounted.chores⟩
  · rw [signal_setThread, mounted.blocked]
  · rw [signal_setThread] at named
    exact mounted.fits s id k named

/-- What goes onward on a background thread is steady, though it may post. -/
theorem inBackground_moves (inner : Goes p { w with thread := .background } post) :
    Moves (inBackground p) w fun r g =>
      ∃ g', post r g' ∧ g = { g' with thread := (gist w).thread } := by
  obtain ⟨r, w₂, ended, onward, holds⟩ := inner
  have only : Reaches p { w with thread := .background } fun a v => a = r ∧ v = w₂ :=
    reaches_of_eq ended ⟨rfl, rfl⟩
  refine reaches_get (reaches_modify (only.bind ?_))
  rintro _ _ ⟨rfl, rfl⟩
  refine reaches_modify (reaches_pure ⟨⟨rfl, fun s => ?_, onward.stands, onward.held,
    onward.attachments, onward.config, onward.chores⟩, _, holds, gist_thread _⟩)
  rw [signal_setThread, onward.signals, signal_setThread]

end Moves

/-! ## Elementary changes -/

theorem onward_change (f : State → State) (config : (f w.client).config = w.client.config) :
    Onward w { w with client := f w.client } where
  thread := rfl
  signals := signal_setClient w (f w.client)
  stands := rfl
  held _ := rfl
  attachments _ := rfl
  config := config
  chores _ := .inl
  still _ := rfl

theorem onward_updateModel (m : Nat) (store : Store → Store) : Onward w (updateStore m store w) where
  thread := rfl
  signals := signal_updateModel w m fun _ => ⟨rfl, rfl, rfl⟩
  stands := rfl
  held _ := rfl
  attachments _ := rfl
  config := rfl
  chores _ := .inl
  still _ := rfl

theorem onward_updateView (v : Nat) {f : View Code → View Code}
    (signals : ∀ o, (f o).userAction = o.userAction ∧ (f o).viewClosing = o.viewClosing ∧
      (f o).viewUpdate = o.viewUpdate) (held : ∀ o, (f o).held = o.held)
    (attachment : ∀ o, (f o).attachment = o.attachment) : Onward w (updateView v f w) where
  thread := rfl
  signals := signal_updateView w v signals
  stands := rfl
  held := blind_updateView w v f (·.held) held
  attachments := blind_updateView w v f (·.attachment) attachment
  config := rfl
  chores _ := .inl
  still _ := rfl

theorem onward_updateController {f : Controller Code → Controller Code}
    (signals : ∀ o, (f o).phaseChanged = o.phaseChanged ∧ (f o).errorOccurred = o.errorOccurred ∧
      (f o).operationCompleted = o.operationCompleted)
    (stands : ∀ o, standing (f o) = standing o) :
    Onward w (updateController controller f w) where
  thread := rfl
  signals := signal_updateController w controller signals
  stands := by rw [controller_updateController_self, stands]
  held _ := rfl
  attachments _ := rfl
  config := rfl
  chores _ := .inl
  still _ := rfl

theorem queue_post (t : Task Code) :
    queue (updateDispatcher dispatcher (fun q => q.post t) w) = queue w ++ [t] := by
  rw [queue, dispatcher_updateDispatcher, if_pos rfl]
  rfl

theorem steady_post {t : Task Code} (chore : IsChore t) :
    Steady w (updateDispatcher dispatcher (fun q => q.post t) w) where
  thread := rfl
  signals := signal_updateDispatcher w dispatcher _
  stands := rfl
  held _ := rfl
  attachments _ := rfl
  config := rfl
  chores u member := by
    rw [queue_post] at member
    rcases List.mem_append.mp member with old | new
    · exact .inl old
    · exact .inr (List.mem_singleton.mp new ▸ chore)

/-! ## Holding -/

section Holding

variable {run : Runner Code State} {α : Type} {p : Proc Whole α}

theorem onward_holders (f : Controller Code → Nat) (w : Whole) :
    Onward w (holders controller (·.held) f w) :=
  onward_updateController (fun _ => ⟨rfl, rfl, rfl⟩) fun _ => rfl

theorem gist_holders (f : Controller Code → Nat) (w : Whole) :
    gist (holders controller (·.held) f w) = gist w := by
  refine (onward_holders f w).gist.trans ?_
  have phase : ((holders controller (·.held) f w).controller controller).phase =
      (w.controller controller).phase :=
    blind_holders w controller _ f Controller.phase (fun _ _ _ => rfl) controller
  simp only [gist, phase]
  rfl

theorem onward_pins (v : Nat) (f : View Code → Nat) (w : Whole) :
    Onward w (updateView v (fun o => { o with pins := f o }) w) :=
  onward_updateView v (fun _ => ⟨rfl, rfl, rfl⟩) (fun _ => rfl) fun _ => rfl

theorem gist_pins (v : Nat) (f : View Code → Nat) (w : Whole) :
    gist (updateView v (fun o => { o with pins := f o }) w) = gist w := by
  refine (onward_pins v f w).gist.trans ?_
  have enabled : ∀ u, ((updateView v (fun o => { o with pins := f o }) w).view u).enabled =
      (w.view u).enabled := blind_updateView w v _ (·.enabled) fun _ => rfl
  simp only [gist, enabled]
  rfl

/-- A mounted controller has a handle, and so it stays when it is held no more. -/
theorem holdingController_onward {post : α → Whole → Prop} (mounted : Mounted w)
    (inner : Reaches p (holders controller (·.held) (·.pins + 1) w) fun r w₂ =>
      Onward (holders controller (·.held) (·.pins + 1) w) w₂ ∧
        post r (holders controller (·.held) (·.pins - 1) w₂)) :
    Reaches (holdingController run controller p) w fun r w' => Onward w w' ∧ post r w' := by
  refine holdingController_reaches (Reaches.mono inner ?_)
  rintro r w₂ ⟨onward, holds⟩
  have through := (onward_holders _ w).trans onward
  exact ⟨(through.mounted mounted).held, through.trans (onward_holders _ w₂), holds⟩

/-- And so does a view. -/
theorem holdingView_onward {post : α → Whole → Prop} (mounted : Mounted w) (v : Nat)
    (inner : Reaches p (pinView v w) fun r w₂ =>
      Onward (pinView v w) w₂ ∧ post r (unpinView v w₂)) :
    Reaches (holdingView run v p) w fun r w' => Onward w w' ∧ post r w' := by
  refine holdingView_reaches (Reaches.mono inner ?_)
  rintro r w₂ ⟨onward, holds⟩
  have through := (onward_pins v _ w).trans onward
  exact ⟨(through.mounted mounted).views v, through.trans (onward_pins v _ w₂), holds⟩

theorem holdingController_goes {post : α → Gist → Prop} (mounted : Mounted w)
    (inner : ∀ w₁, Onward w w₁ → gist w₁ = gist w → Goes p w₁ post) :
    Goes (holdingController run controller p) w post := by
  have goes := inner _ (onward_holders (·.pins + 1) w) (gist_holders _ w)
  refine holdingController_onward mounted (Reaches.mono goes ?_)
  rintro r w₂ ⟨onward, holds⟩
  exact ⟨onward, (gist_holders _ w₂).symm ▸ holds⟩

theorem holdingView_goes {post : α → Gist → Prop} (mounted : Mounted w) (v : Nat)
    (inner : ∀ w₁, Onward w w₁ → gist w₁ = gist w → Goes p w₁ post) :
    Goes (holdingView run v p) w post := by
  have goes := inner _ (onward_pins v (·.pins + 1) w) (gist_pins v _ w)
  refine holdingView_onward mounted v (Reaches.mono goes ?_)
  rintro r w₂ ⟨onward, holds⟩
  exact ⟨onward, (gist_pins v _ w₂).symm ▸ holds⟩

theorem ifControllerAlive_goes {post : Unit → Gist → Prop} {p : Proc Whole Unit}
    (mounted : Mounted w)
    (inner : ∀ w₁, Onward w w₁ → gist w₁ = gist w → Goes p w₁ post) :
    Goes (ifControllerAlive run controller p) w post := by
  refine goes_get ?_
  rw [if_pos (by simp [isControllerAlive, Controller.isAlive, mounted.held])]
  exact holdingController_goes mounted inner

theorem ifViewAlive_goes {post : Unit → Gist → Prop} {p : Proc Whole Unit}
    (mounted : Mounted w) (v : Nat)
    (inner : ∀ w₁, Onward w w₁ → gist w₁ = gist w → Goes p w₁ post) :
    Goes (ifViewAlive run v p) w post := by
  refine goes_get ?_
  rw [if_pos (by simp [isViewAlive, mounted.views])]
  exact holdingView_goes mounted v inner

end Holding

/-! ## Emission -/

/-- One thing after another is done to a gist. -/
def Chained {α : Type} (step : α → Gist → Gist → Prop) : List α → Gist → Gist → Prop
  | [], g, g' => g' = g
  | a :: rest, g, g' => ∃ g₁, step a g g₁ ∧ Chained step rest g₁ g'

theorem Chained.foldl {α : Type} {f : Gist → α → Gist} {l : List α} {g g' : Gist}
    (chained : Chained (fun a g g' => g' = f g a) l g g') : g' = l.foldl f g := by
  induction l generalizing g with
  | nil => exact chained
  | cons a rest ih =>
      obtain ⟨g₁, rfl, later⟩ := chained
      exact ih later

theorem Chained.mono {α : Type} {step step' : α → Gist → Gist → Prop} {l : List α} {g g' : Gist}
    (chained : Chained step l g g') (imp : ∀ a ∈ l, ∀ g g', step a g g' → step' a g g') :
    Chained step' l g g' := by
  induction l generalizing g with
  | nil => exact chained
  | cons a rest ih =>
      obtain ⟨g₁, here, later⟩ := chained
      exact ⟨g₁, imp a List.mem_cons_self g g₁ here,
        ih later fun b member => imp b (List.mem_cons_of_mem _ member)⟩

section Emission

variable {run : Runner Code State} {s : SignalRef} {notice : Notice}
  (one : ConnectionId × Connection (Slot Code) → Whole → Whole → Prop)
  (all : List (ConnectionId × Connection (Slot Code)) → Whole → Whole → Prop)

/-- Nobody is bound or connected by a visit, so it serves all connections. -/
theorem visit_onward (nil : ∀ w, all [] w w)
    (cons : ∀ e rest w w₁ w', one e w w₁ → all rest w₁ w' → all (e :: rest) w w')
    {connections : List (ConnectionId × Connection (Slot Code))}
    (connected : ∀ e ∈ connections, (w.signal s).isConnected e.1 = true)
    (served : ∀ e ∈ connections, ∀ w₁, Onward w w₁ →
      Reaches (deliver run s notice e.1 e.2) w₁ fun _ w₂ => Onward w₁ w₂ ∧ one e w₁ w₂) :
    Reaches (visit run s notice connections) w fun _ w' => Onward w w' ∧ all connections w w' := by
  induction connections generalizing w with
  | nil => exact reaches_pure ⟨.refl w, nil w⟩
  | cons e rest ih =>
      refine reaches_get ?_
      rw [if_pos (connected e List.mem_cons_self)]
      refine Reaches.bind (served e List.mem_cons_self w (.refl w)) ?_
      rintro _ w₁ ⟨onward, here⟩
      refine (ih (fun e member => ?_) fun e member w₂ later => ?_).mono ?_
      · rw [onward.signals]
        exact connected e (List.mem_cons_of_mem _ member)
      · exact served e (List.mem_cons_of_mem _ member) w₂ (onward.trans later)
      · rintro _ w' ⟨onward', later⟩
        exact ⟨onward.trans onward', cons e rest w w₁ w' here later⟩

/-- So an emission does. -/
theorem emit_onward (mounted : Mounted w) (nil : ∀ w, all [] w w)
    (cons : ∀ e rest w w₁ w', one e w w₁ → all rest w₁ w' → all (e :: rest) w w')
    (served : ∀ id k, Fits w s k → ∀ w₁, Mounted w₁ → Onward w w₁ →
      Reaches (deliver run s notice id k) w₁ fun _ w₂ => Onward w₁ w₂ ∧ one (id, k) w₁ w₂) :
    Reaches (Ensemble.emit run s notice) w fun _ w' =>
      Onward w w' ∧ all (w.signal s).connections w w' := by
  refine reaches_get ?_
  dsimp only
  rw [mounted.blocked s]
  refine visit_onward one all nil cons (fun e member => ?_) fun e member w₁ onward => ?_
  · exact Signal.contains_of_slot? (slotAt_of_mem member)
  · exact served e.1 e.2 (mounted.fits s e.1 e.2 (mem_connections.mp member)) w₁
      (onward.mounted mounted) onward

/-- An emission does what its slots do, one after another. -/
theorem emit_goes {step : ConnectionId × Connection (Slot Code) → Gist → Gist → Prop}
    (mounted : Mounted w)
    (served : ∀ id k, Fits w s k → ∀ w₁, Mounted w₁ → Onward w w₁ →
      Goes (deliver run s notice id k) w₁ fun _ => step (id, k) (gist w₁)) :
    Goes (Ensemble.emit run s notice) w fun _ =>
      Chained step (w.signal s).connections (gist w) :=
  emit_onward (fun e w w' => step e (gist w) (gist w'))
    (fun l w w' => Chained step l (gist w) (gist w')) mounted (fun _ => rfl)
    (fun _ _ _ w₁ _ here later => ⟨gist w₁, here, later⟩) served

end Emission

end Mvc.App
