import Mvc.Proofs.Binding

/-! # Rebinding controllers

What `setModel` and `setView` do when they bind something else: the link is torn, the
bindings end, the link is tied, and then bindings are made anew and the phase is announced.
An ensemble is intact again before anything is made or announced.
-/

namespace Mvc.Ensemble

open Proc

variable {σ ε : Type} {g : Regime σ ε} {w w' : Ensemble σ ε} {run : Runner σ ε}
  {β : Behaviour σ ε}

/-- Make bindings if everything for them is there, and announce the phase. -/
def announce (run : Runner σ ε) (β : Behaviour σ ε) (c : Nat) : Proc (Ensemble σ ε) Unit := do
  rebindIfReady run β c
  emitPhase run c

/-- A controller that listens to its new model, if there is one. -/
def joinModel (c : Nat) (m : Option Nat) (w : Ensemble σ ε) : Ensemble σ ε :=
  match m with
  | none => w
  | some m => tieModel c m w

/-- A view is held. -/
def pinView (v : Nat) (w : Ensemble σ ε) : Ensemble σ ε :=
  updateView v (fun o => { o with pins := o.pins + 1 }) w

/-- A view is held no more. -/
def unpinView (v : Nat) (w : Ensemble σ ε) : Ensemble σ ε :=
  updateView v (fun o => { o with pins := o.pins - 1 }) w

/-- The view that was bound is held while it is left, if there is one. -/
def holdOld (old : Option Nat) (w : Ensemble σ ε) : Ensemble σ ε :=
  match old with
  | none => w
  | some v => pinView v w

/-- A view gives up a controller, if it has this one. -/
def freeView (c v : Nat) (w : Ensemble σ ε) : Ensemble σ ε :=
  if w.viewController? v = some c then detach v w else w

/-- The view that was bound is freed, if there is one, and goes if nobody holds it. -/
def leaveOld (c : Nat) (old : Option Nat) (w : Ensemble σ ε) : Ensemble σ ε :=
  match old with
  | none => w
  | some v => withoutView v (unpinView v (freeView c v w))

/-- A controller listens to its new view and is listened to, if there is one. -/
def joinView (c : Nat) (v : Option Nat) (w : Ensemble σ ε) : Ensemble σ ε :=
  match v with
  | none => w
  | some v => attachTo v c (tieView c v w)

/-! ## Steps that run no client code -/

theorem subscribeToModel_eq (c m : Nat) (w : Ensemble σ ε) :
    subscribeToModel c m w = some (plugAll (modelDelivery w c) (modelPorts c m) w) := by
  unfold subscribeToModel modelDelivery
  rw [get_bind]
  rfl

theorem subscribeToView_eq (c v : Nat) (w : Ensemble σ ε) :
    subscribeToView c v w = some (plugAll .direct (viewPorts c v) w) := rfl

theorem subscribeToController_eq (v c : Nat) (w : Ensemble σ ε) :
    subscribeToController v c w = some (plugAll .direct (attachmentPorts v c) w) := rfl

theorem attach_some_eq {torn : Option Link} (wired : Wired torn w) (v c : Nat) :
    attach run v (some c) w = some ((), attachTo v c w) := by
  unfold attach attachTo
  rw [get_bind]
  dsimp only
  split
  · rfl
  · rw [modify_bind]
    have cutting := releaseAll_connections _ (updateView v (reattach none) w) run
      (wired.isConnection (.attachment v))
    exact (bind_eq_of_eq cutting).trans (bind_eq_of_eq (subscribeToController_eq v c _))

theorem unbindView_eq {torn : Option Link} (wired : Wired torn w) (c v : Nat) :
    unbindView run c v w = some ((), freeView c v w) := by
  unfold unbindView freeView
  rw [get_bind]
  split
  · next attached =>
      cases linked : (w.view v).attachment with
      | none => simp [viewController?, linked] at attached
      | some a =>
          unfold attach
          rw [get_bind]
          dsimp only
          rw [if_neg (by simp [linked]), modify_bind]
          have cutting := releaseAll_connections _ (updateView v (reattach none) w) run
            (wired.isConnection (.attachment v))
          exact bind_eq_of_eq cutting
  · rfl

/-! ## Binding a model -/

theorem bonds_of_pinned (frame : Frame w w') {c : Nat} (pinned : 0 < (w.controller c).pins) :
    SameBonds w w' c ∧ w'.isControllerAlive c = true := by
  have alive : w'.isControllerAlive c = true := by
    simp [isControllerAlive, Controller.isAlive, frame.pins c, pinned]
  refine ⟨(frame.bonds c).resolve_right ?_, alive⟩
  rintro ⟨dead, -⟩
  rw [alive] at dead
  cases dead

/-- A link is torn and the bindings end, and only there client code runs. -/
theorem tear_steps {c : Nat} {l : Link} {f : Controller σ → Controller σ}
    {rest : Proc (Ensemble σ ε) Unit} {r : Unit}
    (ending : ∀ code, Keeps (Calm g.framed (some l)) (run (.subscription code)))
    (intact : Intact none w)
    (torn : Intact (some l) (cutAll (w.lines l) (updateController c f w)))
    (lawful : g.law (cutAll (w.lines l) (updateController c f w)))
    (spared : ∀ o, (f o).phaseChanged = o.phaseChanged ∧ (f o).errorOccurred = o.errorOccurred ∧
      (f o).operationCompleted = o.operationCompleted)
    (pins : ∀ o, (f o).pins = o.pins) (pinned : 0 < (w.controller c).pins)
    (h : (do
      modify (updateController c f)
      releaseAll run (w.lines l)
      releaseAll run (w.controller c).bindings
      rest : Proc (Ensemble σ ε) Unit) w = some (r, w')) :
    ∃ w₂, Intact (some l) w₂ ∧ Frame (cutAll (w.lines l) (updateController c f w)) w₂ ∧
      SameBonds (cutAll (w.lines l) (updateController c f w)) w₂ c ∧
      w₂.isControllerAlive c = true ∧ g.law w₂ ∧ rest w₂ = some (r, w') := by
  rw [modify_bind, bind_eq_of_eq
    (releaseAll_connections _ (updateController c f w) run (intact.wired.isConnection l))] at h
  obtain ⟨_, w₂, released, h⟩ := bind_eq_some.mp h
  have own : ∀ s id, .connection s id ∈ (w.controller c).bindings →
      (cutAll (w.lines l) (updateController c f w)).Own s id := by
    intro s id member
    refine settled_cutAll _ _ ?_
    rw [signal_updateController w c spared]
    exact intact.own c s id member
  obtain ⟨intact₂, frame, lawful₂⟩ := releaseAll_own ending torn lawful own _ w₂ released
  have pinned₁ : 0 < ((cutAll (w.lines l) (updateController c f w)).controller c).pins := by
    rw [(onlySignals_cutAll _ _).of_controller (·.pins) (fun _ => rfl),
      blind_updateController w c f (·.pins) pins]
    exact pinned
  obtain ⟨same, alive⟩ := bonds_of_pinned frame pinned₁
  exact ⟨w₂, intact₂, frame, same, alive, lawful₂, h⟩

/-- Client code runs where the bindings end, with the link torn, and when all is tied. -/
theorem setModel_steps {c : Nat} {m : Option Nat} {r : Unit}
    (ending : ∀ code, Keeps (Calm g.framed (some (.model c))) (run (.subscription code)))
    (intact : Intact none w) (lawful : g.law w) (pinned : 0 < (w.controller c).pins)
    (opened : ∀ i, m = some i → (w.signal (.modelData i)).closed = false)
    (other : (w.controller c).model ≠ m) (h : setModel run β c m w = some (r, w')) :
    ∃ w₂, Intact (some (.model c)) w₂ ∧ Frame (tearModel c m w) w₂ ∧
      (w₂.controller c).model = m ∧ g.law w₂ ∧ Intact none (joinModel c m w₂) ∧
      Untouched w₂ (joinModel c m w₂) ∧
      announce run β c (joinModel c m w₂) = some (r, w') := by
  have alive : w.isControllerAlive c = true := by
    simp [isControllerAlive, Controller.isAlive, pinned]
  unfold setModel at h
  rw [get_bind] at h
  dsimp only at h
  rw [if_neg other] at h
  obtain ⟨w₂, intact₂, frame, same, alive₂, lawful₂, h⟩ := tear_steps ending intact
    (intact.tearModel alive opened) (g.lasts (untouched_tearModel c m w) lawful)
    (fun _ => ⟨rfl, rfl, rfl⟩) (fun _ => rfl) pinned h
  have bound₂ : (w₂.controller c).model = m := by
    rw [same.1, (onlySignals_cutAll _ _).of_controller (·.model) fun _ => rfl]
    simp [rebindModel]
  refine ⟨w₂, intact₂, frame, bound₂, lawful₂, ?_⟩
  cases m with
  | none => exact ⟨intact₂.untear (by simp [ports, bound₂]), .refl w₂, h⟩
  | some i =>
      obtain ⟨lines, w₃, subscribed, h⟩ := bind_eq_some.mp h
      have plugged := Option.some.inj ((subscribeToModel_eq c i w₂).symm.trans subscribed)
      have previous : (w₃.controller c).modelSubscriptions = [] := by
        have only := onlySignals_plugAll (modelDelivery w₂ c) (modelPorts c i) w₂
        rw [plugged] at only
        rw [only.of_controller (·.modelSubscriptions) fun _ => rfl]
        exact intact₂.wired.torn _ rfl
      rw [get_bind, previous, modify_bind] at h
      refine ⟨intact₂.tieModel alive₂ bound₂,
        untouched_tieModel c i intact₂.wired.sound, ?_⟩
      simp only [joinModel, tieModel, plugged]
      exact h

/-! ## Binding a view -/

theorem Intact.viewPins {torn : Option Link} (intact : Intact torn w) (v : Nat)
    (pins : View σ → Nat) :
    let w' := Ensemble.updateView v (fun o => { o with pins := pins o }) w
    Intact torn w' ∧ Routine w w' :=
  intact.updateView v (by exact fun _ => ⟨rfl, rfl, rfl⟩) (by exact fun _ => rfl)

theorem Intact.holdOld {torn : Option Link} (intact : Intact torn w) (old : Option Nat) :
    Intact torn (holdOld old w) := by
  cases old with
  | none => exact intact
  | some v => exact (intact.viewPins v (·.pins + 1)).1

theorem Intact.freeView {torn : Option Link} (intact : Intact torn w) (c v : Nat) :
    Intact torn (freeView c v w) := by
  unfold Ensemble.freeView
  split
  · exact intact.detach v
  · exact intact

theorem Intact.leaveOld {torn : Option Link} (intact : Intact torn w) (c : Nat)
    (old : Option Nat) : Intact torn (leaveOld c old w) := by
  cases old with
  | none => exact intact
  | some v => exact (((intact.freeView c v).viewPins v (·.pins - 1)).1.withoutView v).1

theorem untouched_holdOld (old : Option Nat) (w : Ensemble σ ε) : Untouched w (holdOld old w) := by
  cases old with
  | none => exact .refl w
  | some v =>
      exact Untouched.updateView w v (f := fun o => { o with pins := o.pins + 1 })
        fun _ => ⟨rfl, rfl, rfl⟩

theorem untouched_leaveOld {torn : Option Link} (intact : Intact torn w) (c : Nat)
    (old : Option Nat) : Untouched w (leaveOld c old w) := by
  cases old with
  | none => exact .refl w
  | some v =>
      have freed : Untouched w (freeView c v w) := by
        unfold freeView
        split
        · exact untouched_detach v w
        · exact .refl w
      obtain ⟨unpinned, routine⟩ := (intact.freeView c v).viewPins v (·.pins - 1)
      exact freed.trans (routine.untouched.trans (unpinned.withoutView v).2.untouched)

theorem controller_holdOld (old : Option Nat) (w : Ensemble σ ε) (c : Nat) :
    (holdOld old w).controller c = w.controller c := by
  cases old <;> rfl

theorem signal_holdOld (old : Option Nat) (w : Ensemble σ ε) (s : SignalRef) :
    (holdOld old w).signal s = w.signal s := by
  cases old with
  | none => rfl
  | some v => exact signal_updateView w v (by exact fun _ => ⟨rfl, rfl, rfl⟩) s

/-- Leaving and joining a view changes lines and signals of a controller only. -/
theorem silent_freeView (c v : Nat) (w : Ensemble σ ε) (b : Nat) :
    ((freeView c v w).controller b).silent = (w.controller b).silent := by
  unfold freeView
  split
  · exact (onlySignals_cutAll _ _).controller b
  · rfl

theorem silent_leaveOld (c : Nat) (old : Option Nat) (w : Ensemble σ ε) (b : Nat) :
    ((leaveOld c old w).controller b).silent = (w.controller b).silent := by
  cases old with
  | none => rfl
  | some v =>
      simp only [leaveOld, withoutView]
      split
      · exact silent_freeView c v w b
      · exact ((onlySignals_cutAll _ _).controller b).trans (silent_freeView c v w b)

theorem silent_attachTo (v c : Nat) (w : Ensemble σ ε) (b : Nat) :
    ((attachTo v c w).controller b).silent = (w.controller b).silent := by
  unfold attachTo
  split
  · rfl
  · exact ((onlySignals_plugAll _ _ _).controller b).trans ((onlySignals_cutAll _ _).controller b)

theorem bonds_freeView (c v : Nat) (w : Ensemble σ ε) (b : Nat) :
    ((freeView c v w).controller b).bonds = (w.controller b).bonds := by
  simp only [Controller.bonds, silent_freeView]

theorem bonds_leaveOld (c : Nat) (old : Option Nat) (w : Ensemble σ ε) (b : Nat) :
    ((leaveOld c old w).controller b).bonds = (w.controller b).bonds := by
  simp only [Controller.bonds, silent_leaveOld]

theorem bonds_attachTo (v c : Nat) (w : Ensemble σ ε) (b : Nat) :
    ((attachTo v c w).controller b).bonds = (w.controller b).bonds := by
  simp only [Controller.bonds, silent_attachTo]

/-- The old view is held while it is left. -/
theorem leaveView_steps {c : Nat} {v : Option Nat} (old : Option Nat) {r : Unit}
    (ending : ∀ code, Keeps (Calm g.framed (some (.view c))) (run (.subscription code)))
    (intact : Intact none w) (lawful : g.law (tearView c v (holdOld old w)))
    (pinned : 0 < (w.controller c).pins)
    (opened : ∀ u, v = some u → ∀ s ∈ viewSignals u, (w.signal s).closed = false)
    (h : holdingView? run old (do
      modify (updateController c (rebindView v))
      releaseAll run (w.controller c).viewSubscriptions
      releaseAll run (w.controller c).bindings
      match old with
      | none => pure ()
      | some u => unbindView run c u) w = some (r, w')) :
    ∃ w₂, Intact (some (.view c)) w₂ ∧ Frame (tearView c v (holdOld old w)) w₂ ∧
      (w₂.controller c).view = v ∧ w₂.isControllerAlive c = true ∧ g.law w₂ ∧
      w' = leaveOld c old w₂ := by
  have held := intact.holdOld old
  have same₀ : (holdOld old w).controller c = w.controller c := controller_holdOld old w c
  have alive : (holdOld old w).isControllerAlive c = true := by
    simp [isControllerAlive, Controller.isAlive, same₀, pinned]
  have torn : Intact (some (.view c)) (tearView c v (holdOld old w)) := by
    refine held.tearView alive fun u bound s member => ?_
    rw [signal_holdOld]
    exact opened u bound s member
  have tearing : ∀ {rest : Proc (Ensemble σ ε) Unit} {x : Unit × Ensemble σ ε}, (do
      modify (updateController c (rebindView v))
      releaseAll run (w.controller c).viewSubscriptions
      releaseAll run (w.controller c).bindings
      rest : Proc (Ensemble σ ε) Unit) (holdOld old w) = some x →
      ∃ w₂, Intact (some (.view c)) w₂ ∧ Frame (tearView c v (holdOld old w)) w₂ ∧
        (w₂.controller c).view = v ∧ w₂.isControllerAlive c = true ∧ g.law w₂ ∧
        rest w₂ = some x := by
    intro rest x h
    rw [← same₀] at h
    obtain ⟨w₂, intact₂, frame, same, alive₂, lawful₂, h⟩ := tear_steps ending held torn lawful
      (fun _ => ⟨rfl, rfl, rfl⟩) (fun _ => rfl) (same₀ ▸ pinned) h
    refine ⟨w₂, intact₂, frame, ?_, alive₂, lawful₂, h⟩
    rw [same.2.1, (onlySignals_cutAll _ _).of_controller (·.view) fun _ => rfl]
    simp [rebindView]
  cases old with
  | none =>
      obtain ⟨w₂, intact₂, frame, bound₂, alive₂, lawful₂, done⟩ := tearing h
      cases done
      exact ⟨_, intact₂, frame, bound₂, alive₂, lawful₂, rfl⟩
  | some u =>
      obtain ⟨_, w₁, inner, h⟩ := bind_eq_some.mp h
      cases inner
      obtain ⟨_, w₃, inner, h⟩ := bind_eq_some.mp h
      obtain ⟨w₂, intact₂, frame, bound₂, alive₂, lawful₂, freed⟩ := tearing inner
      have left := Option.some.inj ((unbindView_eq intact₂.wired c u).symm.trans freed)
      cases left
      have unpinned := ((intact₂.freeView c u).viewPins u (·.pins - 1)).1
      rw [modify_bind, bind_eq_of_eq (collectView_eq run (unpinned.wired.isConnection _))] at h
      cases h
      exact ⟨w₂, intact₂, frame, bound₂, alive₂, lawful₂, rfl⟩

/-- Client code runs where the bindings end, with the link torn, and when all is tied. -/
theorem setView_steps {c : Nat} {v : Option Nat} {r : Unit}
    (ending : ∀ code, Keeps (Calm g.framed (some (.view c))) (run (.subscription code)))
    (intact : Intact none w) (lawful : g.law (tearView c v (holdOld (w.controller c).view w)))
    (pinned : 0 < (w.controller c).pins)
    (opened : ∀ u, v = some u → ∀ s ∈ viewSignals u, (w.signal s).closed = false)
    (other : (w.controller c).view ≠ v) (h : setView run β c v w = some (r, w')) :
    let old := (w.controller c).view
    ∃ w₂, Intact (some (.view c)) w₂ ∧ Frame (tearView c v (holdOld old w)) w₂ ∧
      (w₂.controller c).view = v ∧ g.law w₂ ∧ Intact none (joinView c v (leaveOld c old w₂)) ∧
      Untouched w₂ (joinView c v (leaveOld c old w₂)) ∧
      announce run β c (joinView c v (leaveOld c old w₂)) = some (r, w') := by
  intro old
  unfold setView at h
  rw [get_bind] at h
  dsimp only at h
  rw [if_neg other] at h
  obtain ⟨_, w₃, leaving, h⟩ := bind_eq_some.mp h
  obtain ⟨w₂, intact₂, frame, bound₂, alive₂, lawful₂, left⟩ :=
    leaveView_steps old ending intact lawful pinned opened leaving
  subst left
  have bound₃ : ((leaveOld c old w₂).controller c).view = v :=
    ((Controller.bonds_eq.mp (bonds_leaveOld c old w₂ c)).2.2.2.2.1).trans bound₂
  have alive₃ : (leaveOld c old w₂).isControllerAlive c = true := by
    obtain ⟨held, pins, -⟩ := Controller.bonds_eq.mp (bonds_leaveOld c old w₂ c)
    rw [← alive₂]
    simp only [isControllerAlive, Controller.isAlive, held, pins]
  have intact₃ := intact₂.leaveOld c old
  have left := untouched_leaveOld intact₂ c old
  refine ⟨w₂, intact₂, frame, bound₂, lawful₂, ?_⟩
  cases v with
  | none => exact ⟨intact₃.untear (by simp [ports, bound₃]), left, h⟩
  | some x =>
      have tied := intact₃.tieView alive₃ bound₃
      have joining :=
        (untouched_tieView c x intact₃.wired.sound).trans (untouched_attachTo x c tied)
      refine ⟨tied.attachTo (by simp) c, left.trans joining, ?_⟩
      obtain ⟨lines, w₄, subscribed, h⟩ := bind_eq_some.mp h
      have plugged := Option.some.inj ((subscribeToView_eq c x _).symm.trans subscribed)
      have previous : (w₄.controller c).viewSubscriptions = [] := by
        have only := onlySignals_plugAll .direct (viewPorts c x) (leaveOld c old w₂)
        rw [plugged] at only
        rw [only.of_controller (·.viewSubscriptions) fun _ => rfl]
        exact intact₃.wired.torn _ rfl
      rw [get_bind, previous, modify_bind] at h
      have joined : tieView c x (leaveOld c old w₂) = updateController c (lineView lines) w₄ := by
        simp only [tieView, plugged]
      rw [joined] at tied
      replace h : (attach run x (some c) >>= fun _ => announce run β c)
        (updateController c (lineView lines) w₄) = some (r, w') := h
      rw [bind_eq_of_eq (attach_some_eq tied.wired x c)] at h
      simp only [joinView, joined]
      exact h

/-! ## Bindings that are connections -/

section Connections

variable {torn : Option Link} {c : Nat}

/-- A controller leaves its model, and its bindings are cut. -/
def quitModel (c : Nat) (m : Option Nat) (w : Ensemble σ ε) : Ensemble σ ε :=
  cutAll (w.controller c).bindings (tearModel c m w)

/-- A controller leaves its view, which is held meanwhile, and its bindings are cut. -/
def quitView (c : Nat) (v : Option Nat) (w : Ensemble σ ε) : Ensemble σ ε :=
  cutAll (w.controller c).bindings (tearView c v (holdOld (w.controller c).view w))

/-- Cutting connections that are the client's own. -/
theorem Intact.cutOwn (intact : Intact torn w) {lines : List (Subscription σ)}
    (own : ∀ s id, .connection s id ∈ lines → w.Own s id) : Intact torn (cutAll lines w) := by
  induction lines generalizing w with
  | nil => exact intact
  | cons line rest ih =>
      have cut : Intact torn (Ensemble.cut line w) := by
        cases line with
        | connection s id =>
            exact (intact.cut fun k named =>
              (own s id List.mem_cons_self).property (intact.wired.sound s) named).1
        | client code => exact intact
      exact ih cut fun s id member => settled_cut line w (own s id (List.mem_cons_of_mem _ member))

theorem Intact.quitModel (intact : Intact none w) (alive : w.isControllerAlive c = true)
    {m : Option Nat} (opened : ∀ i, m = some i → (w.signal (.modelData i)).closed = false) :
    Intact (some (.model c)) (quitModel c m w) :=
  (intact.tearModel alive opened).cutOwn fun s id member =>
    (untouched_tearModel c m w).settled _ s id (intact.own c s id member)

theorem Intact.quitView (intact : Intact none w) (alive : w.isControllerAlive c = true)
    {v : Option Nat} (opened : ∀ u, v = some u → ∀ s ∈ viewSignals u, (w.signal s).closed = false) :
    Intact (some (.view c)) (quitView c v w) := by
  have torn : Intact (some (.view c)) (Ensemble.tearView c v
      (Ensemble.holdOld (w.controller c).view w)) := by
    refine (intact.holdOld _).tearView ?_ fun u bound s member => ?_
    · rw [isControllerAlive, controller_holdOld]
      exact alive
    · rw [signal_holdOld]
      exact opened u bound s member
  refine torn.cutOwn fun s id member => settled_tearView c v _ _ s id ?_
  exact (untouched_holdOld _ w).settled _ s id (intact.own c s id member)

/-- A controller that has quit its view has the next one, and all else as it had. -/
theorem silent_quitView (v : Option Nat) (b : Nat) : ((quitView c v w).controller b).silent =
    ((updateController c (rebindView v) w).controller b).silent := by
  rw [quitView, (onlySignals_cutAll _ _).controller, tearView, (onlySignals_cutAll _ _).controller]
  cases (w.controller c).view <;> rfl

/-- Once it has joined that view, too, apart from lines. -/
theorem silent_joinView (v : Option Nat) (b : Nat) :
    unlined ((joinView c v (leaveOld c (w.controller c).view (quitView c v w))).controller b).silent =
      unlined ((updateController c (rebindView v) w).controller b).silent := by
  have left := congrArg unlined
    ((silent_leaveOld c (w.controller c).view (quitView c v w) b).trans (silent_quitView v b))
  cases v with
  | none => exact left
  | some v =>
      refine Eq.trans ?_ left
      refine (congrArg unlined (silent_attachTo v c _ b)).trans ?_
      refine (blind_updateController _ c (lineView _) (fun o => unlined o.silent)
        (fun _ => rfl) b).trans ?_
      exact congrArg unlined ((onlySignals_plugAll _ _ _).controller b)

/-- A controller that has quit its model has the next one, and all else as it had. -/
theorem silent_quitModel (m : Option Nat) (b : Nat) : ((quitModel c m w).controller b).silent =
    ((updateController c (rebindModel m) w).controller b).silent := by
  rw [quitModel, (onlySignals_cutAll _ _).controller, tearModel, (onlySignals_cutAll _ _).controller]

/-- Once it has joined that model, too, apart from lines. -/
theorem silent_joinModel (m : Option Nat) (b : Nat) :
    unlined ((joinModel c m (quitModel c m w)).controller b).silent =
      unlined ((updateController c (rebindModel m) w).controller b).silent := by
  have quit := congrArg unlined (silent_quitModel (c := c) (w := w) m b)
  cases m with
  | none => exact quit
  | some m =>
      refine Eq.trans ?_ quit
      refine (blind_updateController _ c (lineModel _) (fun o => unlined o.silent)
        (fun _ => rfl) b).trans ?_
      exact congrArg unlined ((onlySignals_plugAll _ _ _).controller b)

/-- No view is attached or freed when a model is bound. -/
theorem attachment_joinModel (m : Option Nat) (v : Nat) :
    ((joinModel c m (quitModel c m w)).view v).attachment = (w.view v).attachment := by
  have quit : ((quitModel c m w).view v).attachment = (w.view v).attachment := by
    rw [quitModel, (onlySignals_cutAll _ _).of_view (·.attachment) fun _ => rfl, tearModel,
      (onlySignals_cutAll _ _).of_view (·.attachment) fun _ => rfl]
    rfl
  cases m with
  | none => exact quit
  | some m =>
      exact ((onlySignals_plugAll _ _ _).of_view (·.attachment) (fun _ => rfl) v).trans quit

variable (intact : Intact none w)
  (connections : ∀ line ∈ (w.controller c).bindings, line.isConnection = true)
include intact connections

/-- A controller binds another model, and no client code runs before all is tied. -/
theorem setModel_eq_announce {m : Option Nat} (other : (w.controller c).model ≠ m) :
    setModel run β c m w = announce run β c (joinModel c m (quitModel c m w)) := by
  unfold setModel
  rw [get_bind]
  dsimp only
  rw [if_neg other, modify_bind]
  refine (bind_eq_of_eq (releaseAll_connections _ _ run
    (intact.wired.isConnection (.model c)))).trans ?_
  refine (bind_eq_of_eq (releaseAll_connections _ _ run connections)).trans ?_
  cases m with
  | none => rfl
  | some m =>
      have bare : ((quitModel c (some m) w).controller c).modelSubscriptions = [] := by
        have same := silent_quitModel (c := c) (w := w) (some m) c
        rw [controller_updateController_self] at same
        exact (congrArg Controller.modelSubscriptions same : _)
      have subscribed := subscribeToModel_eq c m (quitModel c (some m) w)
      have only := onlySignals_plugAll (modelDelivery (quitModel c (some m) w) c)
        (modelPorts c m) (quitModel c (some m) w)
      simp only [joinModel, tieModel]
      rcases made : plugAll (modelDelivery (quitModel c (some m) w) c) (modelPorts c m)
        (quitModel c (some m) w) with ⟨lines, w₂⟩
      rw [made] at subscribed only
      have previous : (w₂.controller c).modelSubscriptions = [] :=
        (only.of_controller (·.modelSubscriptions) (fun _ => rfl) c).trans bare
      refine (bind_eq_of_eq subscribed).trans ?_
      rw [get_bind, previous]
      rfl

variable (alive : w.isControllerAlive c = true) {v : Option Nat}
  (opened : ∀ u, v = some u → ∀ s ∈ viewSignals u, (w.signal s).closed = false)
include alive opened

/-- A controller leaves its view, and no client code runs. -/
theorem leaveView_eq : holdingView? run (w.controller c).view (do
      modify (updateController c (rebindView v))
      releaseAll run (w.controller c).viewSubscriptions
      releaseAll run (w.controller c).bindings
      match (w.controller c).view with
      | none => pure ()
      | some u => unbindView run c u) w =
      some ((), leaveOld c (w.controller c).view (quitView c v w)) := by
  have lines := intact.wired.isConnection (.view c)
  have quit := intact.quitView alive opened
  unfold quitView at quit ⊢
  cases old : (w.controller c).view with
  | none =>
      refine (modify_bind _ _ _).trans ?_
      refine (bind_eq_of_eq (releaseAll_connections _ _ run lines)).trans ?_
      exact bind_eq_of_eq (releaseAll_connections _ _ run connections)
  | some u =>
      rw [old] at quit
      have released :=
        releaseAll_connections _ (updateController c (rebindView v) (pinView u w)) run lines
      have unbound := releaseAll_connections _ (tearView c v (pinView u w)) run connections
      have leaving := (bind_eq_of_eq (f := fun _ => unbindView run c u) unbound).trans
        (unbindView_eq quit.wired c u)
      have inner := (bind_eq_of_eq (f := fun _ => do
        releaseAll run (w.controller c).bindings
        unbindView run c u) released).trans leaving
      refine (modify_bind _ _ _).trans ?_
      refine (bind_eq_of_eq ((modify_bind _ _ _).trans inner)).trans ?_
      have freed := (quit.freeView c u).viewPins u (·.pins - 1)
      refine (modify_bind _ _ _).trans ?_
      exact bind_eq_of_eq (collectView_eq run (freed.1.wired.isConnection _))

/-- A controller binds another view, and no client code runs before all is tied. -/
theorem setView_eq_announce (other : (w.controller c).view ≠ v) : setView run β c v w =
    announce run β c (joinView c v (leaveOld c (w.controller c).view (quitView c v w))) := by
  unfold setView
  rw [get_bind]
  dsimp only
  rw [if_neg other]
  refine (bind_eq_of_eq (leaveView_eq intact connections alive opened)).trans ?_
  have left := (intact.quitView alive opened).leaveOld c (w.controller c).view
  have same := (silent_leaveOld c (w.controller c).view (quitView c v w) c).trans
    (silent_quitView v c)
  cases v with
  | none => rfl
  | some v =>
      simp only [joinView]
      generalize leaveOld c _ (quitView c (some v) w) = w₁ at left same ⊢
      rw [controller_updateController_self] at same
      have alive₁ : w₁.isControllerAlive c = true :=
        (congrArg Controller.isAlive same : _).trans alive
      have bound : (w₁.controller c).view = some v := (congrArg Controller.view same : _)
      have lined : (w₁.controller c).viewSubscriptions = [] :=
        (congrArg Controller.viewSubscriptions same : _)
      have tied := left.tieView alive₁ bound
      have subscribed := subscribeToView_eq c v w₁
      have only := onlySignals_plugAll .direct (viewPorts c v) w₁
      simp only [tieView] at tied ⊢
      rcases made : plugAll .direct (viewPorts c v) w₁ with ⟨lines, w₂⟩
      rw [made] at subscribed only tied
      have previous : (w₂.controller c).viewSubscriptions = [] :=
        (only.of_controller (·.viewSubscriptions) (fun _ => rfl) c).trans lined
      refine (bind_eq_of_eq subscribed).trans ?_
      rw [get_bind, previous, modify_bind]
      refine (bind_eq_of_eq (a := ()) rfl).trans ?_
      exact bind_eq_of_eq (attach_some_eq tied.wired v c)

end Connections

/-! ## Holding what has a handle -/

section Handles

variable {α : Type} {p : Proc (Ensemble σ ε) α}

/-- A controller that has a handle is only held, and stays. -/
theorem holdingController_reaches {post : α → Ensemble σ ε → Prop} {c : Nat}
    (inner : Reaches p (holders c (·.held) (·.pins + 1) w) fun r w₂ =>
      (w₂.controller c).held = true ∧ post r (holders c (·.held) (·.pins - 1) w₂)) :
    Reaches (holdingController run c p) w post := by
  refine reaches_modify (inner.bind fun r w₂ => ?_)
  rintro ⟨held, holds⟩
  have stays : collectController run c (holders c (·.held) (·.pins - 1) w₂) =
      some ((), holders c (·.held) (·.pins - 1) w₂) := by
    unfold collectController
    rw [get_bind]
    exact congrFun (if_pos (by simp [Controller.isAlive, holders, held])) _
  have done : Reaches (collectController run c) _ fun _ w₃ => post r w₃ :=
    reaches_of_eq stays holds
  exact reaches_modify (done.bind fun _ w₃ holds => reaches_pure holds)

/-- A view that has a handle is only held, and stays. -/
theorem holdingView_reaches {post : α → Ensemble σ ε → Prop} {v : Nat}
    (inner : Reaches p (pinView v w) fun r w₂ =>
      (w₂.view v).held = true ∧ post r (unpinView v w₂)) :
    Reaches (holdingView run v p) w post := by
  refine reaches_modify (inner.bind fun r w₂ => ?_)
  rintro ⟨held, holds⟩
  have stays : collectView run v (unpinView v w₂) = some ((), unpinView v w₂) := by
    unfold collectView
    rw [get_bind]
    exact congrFun (if_pos (by simp [isViewAlive, unpinView, held])) _
  have done : Reaches (collectView run v) _ fun _ w₃ => post r w₃ := reaches_of_eq stays holds
  exact reaches_modify (done.bind fun _ w₃ holds => reaches_pure holds)

end Handles

end Mvc.Ensemble
