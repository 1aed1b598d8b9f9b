import Mvc.Proofs.Traffic

/-! # Binding models and views

Binding tears the link to what was bound, ends the bindings, and ties the link to what is
bound now; a view is attached to its new controller and freed from the old one. Only where
bindings end does client code run, with the link torn. All else is a function of the state.
-/

namespace Mvc.Ensemble

open Proc

variable {σ ε : Type}

/-! ## What happens to the state -/

/-- A controller has another model and does not listen to it yet. -/
def rebindModel (m : Option Nat) (o : Controller σ) : Controller σ :=
  { o with model := m, modelSubscriptions := [], bindings := [] }

/-- A controller has another view and does not listen to it yet. -/
def rebindView (v : Option Nat) (o : Controller σ) : Controller σ :=
  { o with closing := false, view := v, viewSubscriptions := [], bindings := [] }

/-- A controller has lines to its model. -/
def lineModel (lines : List (Subscription σ)) (o : Controller σ) : Controller σ :=
  { o with modelSubscriptions := lines }

/-- A controller has lines to its view. -/
def lineView (lines : List (Subscription σ)) (o : Controller σ) : Controller σ :=
  { o with viewSubscriptions := lines }

/-- A controller apart from its lines. -/
def unlined (o : Controller σ) : Controller σ :=
  { o with modelSubscriptions := [], viewSubscriptions := [] }

/-- A controller has another model, and its lines to the old one are cut. -/
def tearModel (c : Nat) (m : Option Nat) (w : Ensemble σ ε) : Ensemble σ ε :=
  cutAll (w.lines (.model c)) (updateController c (rebindModel m) w)

/-- A controller has another view, and its lines to the old one are cut. -/
def tearView (c : Nat) (v : Option Nat) (w : Ensemble σ ε) : Ensemble σ ε :=
  cutAll (w.lines (.view c)) (updateController c (rebindView v) w)

/-- How changes of a model reach a controller. -/
def modelDelivery (w : Ensemble σ ε) (c : Nat) : Delivery :=
  match (w.controller c).dispatcher with
  | some d => .dispatched .auto d
  | none => .direct

/-- A controller listens to its new model. -/
def tieModel (c m : Nat) (w : Ensemble σ ε) : Ensemble σ ε :=
  let plugged := plugAll (modelDelivery w c) (modelPorts c m) w
  updateController c (lineModel plugged.1) plugged.2

/-- A controller listens to its new view. -/
def tieView (c v : Nat) (w : Ensemble σ ε) : Ensemble σ ε :=
  let plugged := plugAll .direct (viewPorts c v) w
  updateController c (lineView plugged.1) plugged.2

/-- A view has another controller and does not listen to it yet. -/
def reattach (attachment : Option (Attachment σ)) (o : View σ) : View σ := { o with attachment }

/-- A view gives up its controller. -/
def detach (v : Nat) (w : Ensemble σ ε) : Ensemble σ ε :=
  cutAll (w.lines (.attachment v)) (updateView v (reattach none) w)

/-- A view listens to a controller. -/
def attachTo (v c : Nat) (w : Ensemble σ ε) : Ensemble σ ε :=
  if (w.view v).attachment.map (·.controller) = some c then w
  else
    let plugged := plugAll .direct (attachmentPorts v c) (detach v w)
    updateView v (reattach (some ⟨c, plugged.1⟩)) plugged.2

/-! ## Single links -/

variable {torn torn' : Option Link} {w w' : Ensemble σ ε}

/-- A link gives up its lines, and these are cut. -/
theorem Intact.cutLink (intact : Intact torn w) {l : Link} {cleared : Ensemble σ ε}
    (signals : ∀ s, cleared.signal s = w.signal s)
    (same : ∀ l', l' ≠ l → SameLink w cleared l' ∧ (torn' = some l' ↔ torn = some l'))
    (bare : cleared.lines l = [] ∧ (torn' ≠ some l → cleared.ports l = []))
    (standing : ∀ s, cleared.Demanded s → (w.signal s).closed = false)
    (own : ∀ c s id, .connection s id ∈ (cleared.controller c).bindings → w.Own s id)
    (idle : ∀ c, cleared.Idle c) : Intact torn' (cutAll (w.lines l) cleared) := by
  have only := onlySignals_cutAll (w.lines l) cleared
  refine ⟨⟨?_, ?_, ?_⟩, fun c => (idle c).of_bonds (only.bonds c)⟩
  · refine intact.wired.cutLinks (· = l) (fun s => .inl (signals s)) same ?_ fun line => ?_
    · rintro l' rfl
      exact bare
    · constructor
      · exact fun member => ⟨l, rfl, member⟩
      · rintro ⟨l', rfl, member⟩
        exact member
  · intro s demanded
    rw [closed_cutAll, signals]
    exact standing s (demanded.of_bonds only.bonds)
  · intro c s id member
    rw [only.of_controller (·.bindings) (fun _ => rfl) c] at member
    refine settled_cutAll _ cleared ?_
    rw [signals]
    exact own c s id member

/-- A link without lines is plugged and given its lines. -/
theorem Intact.plugLink (intact : Intact torn w) {l : Link} {d : Delivery}
    {ports : List (SignalRef × Slot σ)} (vacant : w.lines l = [])
    (link : ∀ port ∈ ports, port.2.link? = some l)
    (signals : ∀ s, w'.signal s = (plugAll d ports w).2.signal s)
    (same : ∀ l', l' ≠ l → SameLink w w' l' ∧ (torn' = some l' ↔ torn = some l'))
    (untorn : torn' ≠ some l) (bound : w'.ports l = ports)
    (lines : w'.lines l = (plugAll d ports w).1)
    (standing : ∀ s, w'.Demanded s → w.Demanded s)
    (bindings : ∀ c, (w'.controller c).bindings = (w.controller c).bindings)
    (idle : ∀ c, w'.Idle c) : Intact torn' w' := by
  refine ⟨⟨?_, ?_, ?_⟩, idle⟩
  · exact intact.wired.plugLink vacant link signals same untorn bound lines
  · intro s demanded
    rw [signals, closed_plugAll]
    exact intact.standing s (standing s demanded)
  · intro c s id member
    rw [Own, signals]
    exact settled_plugAll d ports w intact.wired.sound (intact.own c s id (bindings c ▸ member))

/-- A torn link that has no ports needs no lines. -/
theorem Intact.untear {l : Link} (intact : Intact (some l) w) (bare : w.ports l = []) :
    Intact none w := by
  refine ⟨⟨⟨intact.wired.sound, intact.wired.booked, fun l' _ => ?_, fun _ h => by cases h⟩,
    intact.standing, intact.own⟩, intact.idle⟩
  by_cases here : l' = l
  · rw [here, bare, intact.wired.torn l rfl]
    exact .nil
  · exact intact.wired.plugged l' fun same => here (Option.some.inj same).symm

/-- A living controller gives up a link and its bindings. -/
theorem Intact.tear (intact : Intact none w) {c : Nat} {l : Link}
    (alive : w.isControllerAlive c = true) {f : Controller σ → Controller σ}
    (spared : ∀ o, (f o).phaseChanged = o.phaseChanged ∧ (f o).errorOccurred = o.errorOccurred ∧
      (f o).operationCompleted = o.operationCompleted)
    (lifetime : ∀ o, (f o).isAlive = o.isAlive) (bindings : ∀ o, (f o).bindings = [])
    (others : ∀ l', l' ≠ l → SameLink w (updateController c f w) l')
    (bare : (updateController c f w).lines l = [])
    (standing : ∀ s, (updateController c f w).Demanded s → (w.signal s).closed = false) :
    Intact (some l) (cutAll (w.lines l) (updateController c f w)) := by
  refine intact.cutLink (signal_updateController w c spared) ?_ ⟨bare, fun h => absurd rfl h⟩
    standing ?_ ?_
  · intro l' other
    exact ⟨others l' other, by simp [Ne.symm other]⟩
  · intro b s id member
    rw [controller_updateController] at member
    split at member
    · rw [bindings] at member
      cases member
    · exact intact.own b s id member
  · intro b
    by_cases here : b = c
    · intro dead
      rw [isControllerAlive, blind_updateController w c f Controller.isAlive lifetime, here] at dead
      exact absurd (alive.symm.trans dead) (by simp)
    · exact (intact.idle b).of_bonds (congrArg _ (controller_updateController_ne w c f here))

/-- A living controller plugs a torn link. -/
theorem Intact.tie {c : Nat} {l : Link} (intact : Intact (some l) w)
    (alive : w.isControllerAlive c = true) (d : Delivery) {ports : List (SignalRef × Slot σ)}
    (link : ∀ port ∈ ports, port.2.link? = some l) {f : Controller σ → Controller σ}
    (only : ∀ o, unlined (f o) = unlined o)
    (others : ∀ w : Ensemble σ ε, ∀ l', l' ≠ l → SameLink w (updateController c f w) l')
    (bound : (updateController c f (plugAll d ports w).2).ports l = ports)
    (lines : (updateController c f (plugAll d ports w).2).lines l = (plugAll d ports w).1) :
    Intact none (updateController c f (plugAll d ports w).2) := by
  have quiet := onlySignals_plugAll d ports w
  have same : ∀ {α : Type} (g : Controller σ → α), (∀ o, g o.silent = g o) →
      (∀ o, g (unlined o) = g o) → ∀ b,
      g ((updateController c f (plugAll d ports w).2).controller b) = g (w.controller b) := by
    intro α g deaf blind b
    rw [blind_updateController _ c f g (fun o => by rw [← blind (f o), only, blind])]
    exact quiet.of_controller g deaf b
  refine intact.plugLink (intact.wired.torn l rfl) link ?_ ?_ (by simp) bound lines ?_ ?_ ?_
  · refine signal_updateController _ c fun o => ?_
    have phase := congrArg Controller.phaseChanged (only o)
    have error := congrArg Controller.errorOccurred (only o)
    have done := congrArg Controller.operationCompleted (only o)
    exact ⟨phase, error, done⟩
  · intro l' other
    obtain ⟨ports, lines⟩ := quiet.sameLink l'
    obtain ⟨ports', lines'⟩ := others (plugAll d _ w).2 l' other
    exact ⟨⟨ports'.trans ports, lines'.trans lines⟩, by simp [Ne.symm other]⟩
  · intro s demanded
    cases demanded with
    | model bound => exact .model (same (·.model) (fun _ => rfl) (fun _ => rfl) _ ▸ bound)
    | view bound signal =>
        exact .view (same (·.view) (fun _ => rfl) (fun _ => rfl) _ ▸ bound) signal
    | held isHeld signal =>
        exact .held (same (·.held) (fun _ => rfl) (fun _ => rfl) _ ▸ isHeld) signal
  · exact same (·.bindings) (fun _ => rfl) fun _ => rfl
  · intro b dead
    by_cases here : b = c
    · rw [isControllerAlive, same Controller.isAlive (fun _ => rfl) fun _ => rfl, here] at dead
      exact absurd (alive.symm.trans dead) (by simp)
    · rw [isControllerAlive, controller_updateController_ne _ c f here] at dead
      rw [Bare, controller_updateController_ne _ c f here]
      exact ((intact.idle b).of_bonds (quiet.bonds b)) dead

/-! ## Controllers and their models -/

theorem Intact.tearModel (intact : Intact none w) {c : Nat}
    (alive : w.isControllerAlive c = true) {m : Option Nat}
    (opened : ∀ i, m = some i → (w.signal (.modelData i)).closed = false) :
    Intact (some (.model c)) (tearModel c m w) := by
  refine intact.tear alive (fun _ => ⟨rfl, rfl, rfl⟩) (fun _ => rfl) (fun _ => rfl) ?_
    (by simp [lines, rebindModel]) fun s demanded => ?_
  · intro l other
    exact sameLink_updateController w c (fun h => absurd h other) fun _ _ => ⟨rfl, rfl⟩
  · cases demanded with
    | @model b i bound =>
        rw [controller_updateController] at bound
        split at bound
        · exact opened i bound
        · exact intact.standing _ (.model bound)
    | view bound signal =>
        rw [blind_updateController w c (rebindModel m) (·.view) fun _ => rfl] at bound
        exact intact.standing _ (.view bound signal)
    | held isHeld signal =>
        rw [blind_updateController w c (rebindModel m) (·.held) fun _ => rfl] at isHeld
        exact intact.standing _ (.held isHeld signal)

theorem Intact.tieModel {c : Nat} (intact : Intact (some (.model c)) w)
    (alive : w.isControllerAlive c = true) {m : Nat} (bound : (w.controller c).model = some m) :
    Intact none (tieModel c m w) := by
  refine intact.tie alive (modelDelivery w c) (link_modelPorts c m) (fun _ => rfl) ?_ ?_
    (by simp [lines, lineModel])
  · intro w l other
    exact sameLink_updateController w c (fun h => absurd h other) fun _ _ => ⟨rfl, rfl⟩
  · have same := (onlySignals_plugAll (modelDelivery w c) (modelPorts c m) w).of_controller
      (·.model) (fun _ => rfl) c
    simp [ports, lineModel, same, bound]

/-! ## Controllers and their views -/

theorem Intact.tearView (intact : Intact none w) {c : Nat}
    (alive : w.isControllerAlive c = true) {v : Option Nat}
    (opened : ∀ u, v = some u → ∀ s ∈ viewSignals u, (w.signal s).closed = false) :
    Intact (some (.view c)) (tearView c v w) := by
  refine intact.tear alive (fun _ => ⟨rfl, rfl, rfl⟩) (fun _ => rfl) (fun _ => rfl) ?_
    (by simp [lines, rebindView]) fun s demanded => ?_
  · intro l other
    exact sameLink_updateController w c (fun _ _ => ⟨rfl, rfl⟩) fun h => absurd h other
  · cases demanded with
    | model bound =>
        rw [blind_updateController w c (rebindView v) (·.model) fun _ => rfl] at bound
        exact intact.standing _ (.model bound)
    | @view b u s bound signal =>
        rw [controller_updateController] at bound
        split at bound
        · exact opened u bound s signal
        · exact intact.standing _ (.view bound signal)
    | held isHeld signal =>
        rw [blind_updateController w c (rebindView v) (·.held) fun _ => rfl] at isHeld
        exact intact.standing _ (.held isHeld signal)

theorem Intact.tieView {c : Nat} (intact : Intact (some (.view c)) w)
    (alive : w.isControllerAlive c = true) {v : Nat} (bound : (w.controller c).view = some v) :
    Intact none (tieView c v w) := by
  refine intact.tie alive .direct (link_viewPorts c v) (fun _ => rfl) ?_ ?_
    (by simp [lines, lineView])
  · intro w l other
    exact sameLink_updateController w c (fun _ _ => ⟨rfl, rfl⟩) fun h => absurd h other
  · have same := (onlySignals_plugAll .direct (viewPorts c v) w).of_controller
      (·.view) (fun _ => rfl) c
    simp [ports, lineView, same, bound]

/-! ## Views and their controllers -/

theorem signal_reattach (v : Nat) (attachment : Option (Attachment σ)) (w : Ensemble σ ε)
    (s : SignalRef) : (updateView v (reattach attachment) w).signal s = w.signal s :=
  signal_updateView w v (f := reattach attachment) (fun _ => ⟨rfl, rfl, rfl⟩) s

theorem sameLink_reattach (v : Nat) (attachment : Option (Attachment σ)) (w : Ensemble σ ε)
    {l : Link} (other : l ≠ .attachment v) : SameLink w (updateView v (reattach attachment) w) l :=
  sameLink_updateView w v fun h => absurd h other

theorem Intact.detach (intact : Intact torn w) (v : Nat) : Intact torn (detach v w) := by
  refine intact.cutLink (signal_reattach v none w) ?_ ?_ ?_ intact.own intact.idle
  · exact fun l other => ⟨sameLink_reattach v none w other, Iff.rfl⟩
  · simp [lines, ports, reattach]
  · exact fun s demanded => intact.standing s (demanded.of_bonds fun _ => rfl)

theorem Intact.attachTo (intact : Intact torn w) {v : Nat} (whole : torn ≠ some (.attachment v))
    (c : Nat) : Intact torn (attachTo v c w) := by
  unfold Ensemble.attachTo
  split
  · exact intact
  · have free := intact.detach v
    have vacant : (Ensemble.detach v w).lines (.attachment v) = [] := by
      rw [Ensemble.detach, ((onlySignals_cutAll _ _).sameLink _).2]
      simp [lines, reattach]
    have quiet := onlySignals_plugAll .direct (attachmentPorts v c) (Ensemble.detach v w)
    refine free.plugLink vacant (d := .direct) (link_attachmentPorts v c) (signal_reattach v _ _)
      ?_ whole ?_ ?_ ?_ ?_ ?_
    · intro l other
      obtain ⟨ports, lines⟩ := quiet.sameLink l
      obtain ⟨ports', lines'⟩ := sameLink_reattach v
        (some ⟨c, (plugAll .direct (attachmentPorts v c) (Ensemble.detach v w)).1⟩)
        (plugAll .direct (attachmentPorts v c) (Ensemble.detach v w)).2 other
      exact ⟨⟨ports'.trans ports, lines'.trans lines⟩, Iff.rfl⟩
    · simp [ports, reattach]
    · simp [lines, reattach]
    · exact fun s demanded => demanded.of_bonds quiet.bonds
    · exact quiet.of_controller (·.bindings) fun _ => rfl
    · exact fun b => (free.idle b).of_bonds (quiet.bonds b)

/-! ## What is not touched -/

theorem untouched_cutAll (lines : List (Subscription σ)) (w : Ensemble σ ε) :
    Untouched w (cutAll lines w) :=
  .of_onlySignals (onlySignals_cutAll lines w) fun _ _ _ h => settled_cutAll lines w h

theorem untouched_plugAll (d : Delivery) (ports : List (SignalRef × Slot σ))
    (sound : ∀ s, (w.signal s).Sound) : Untouched w (plugAll d ports w).2 :=
  .of_onlySignals (onlySignals_plugAll d ports w) fun _ _ _ h => settled_plugAll d ports w sound h

theorem untouched_tearModel (c : Nat) (m : Option Nat) (w : Ensemble σ ε) :
    Untouched w (tearModel c m w) :=
  (Untouched.updateController w c (by exact fun _ => ⟨rfl, rfl, rfl⟩) (by exact fun _ => rfl)
    (by exact fun _ => rfl) (by exact fun _ h => h)).trans (untouched_cutAll _ _)

theorem untouched_tieModel (c m : Nat) (sound : ∀ s, (w.signal s).Sound) :
    Untouched w (tieModel c m w) :=
  (untouched_plugAll _ _ sound).trans (.updateController _ c (by exact fun _ => ⟨rfl, rfl, rfl⟩)
    (by exact fun _ => rfl) (by exact fun _ => rfl) (by exact fun _ h => h))

theorem untouched_tieView (c v : Nat) (sound : ∀ s, (w.signal s).Sound) :
    Untouched w (tieView c v w) :=
  (untouched_plugAll _ _ sound).trans (.updateController _ c (by exact fun _ => ⟨rfl, rfl, rfl⟩)
    (by exact fun _ => rfl) (by exact fun _ => rfl) (by exact fun _ h => h))

theorem settled_tearView (c : Nat) (v : Option Nat) (w : Ensemble σ ε) :
    StaySettled w (tearView c v w) := by
  refine fun P s id settled => settled_cutAll _ _ ?_
  rwa [signal_updateController _ c (by exact fun _ => ⟨rfl, rfl, rfl⟩)]

theorem untouched_detach (v : Nat) (w : Ensemble σ ε) : Untouched w (detach v w) :=
  (Untouched.updateView w v (by exact fun _ => ⟨rfl, rfl, rfl⟩)).trans (untouched_cutAll _ _)

theorem untouched_attachTo (v c : Nat) (intact : Intact torn w) :
    Untouched w (attachTo v c w) := by
  unfold attachTo
  split
  · exact .refl w
  · have plugged := untouched_plugAll .direct (attachmentPorts v c) (intact.detach v).wired.sound
    refine ((untouched_detach v w).trans plugged).trans ?_
    exact .updateView _ v (by exact fun _ => ⟨rfl, rfl, rfl⟩)

end Mvc.Ensemble
