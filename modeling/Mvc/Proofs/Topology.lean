import Mvc.Proofs.Rebinding
import Mvc.Proofs.Slots

/-! # The topology of subscriptions

A session is a run of any length from new objects on: models and views are bound, objects
are dropped, and traffic goes on in between and inside, but nothing is bound from inside.
After every step the signals of models and views carry one connection for each living
controller that is bound to them, the signals of controllers carry one for each view that
is attached, and a view is attached to whoever bound it last.
-/

namespace Mvc.Ensemble

open Proc

variable {σ ε : Type}

/-- What may be done from outside: traffic, and binding what is still there. -/
def permits (w : Ensemble σ ε) : Action σ ε → Bool
  | .setModel c m => (w.controller c).held && m.all fun i => !(w.signal (.modelData i)).closed
  | .setView c v => (w.controller c).held &&
      v.all fun u => (viewSignals u).all fun s => !(w.signal s).closed
  | .inBackground a => w.permits a
  | a => w.traffic a

/-- Who bound each view last and has not unbound it since. Binding what is bound already
    does not count. -/
def bindersAfter (w : Ensemble σ ε) (binder : Nat → Option Nat) : Action σ ε → Nat → Option Nat
  | .setView c v, u =>
    if (w.controller c).view = v then binder u
    else if v = some u then some c
    else if binder u = some c then none
    else binder u
  | .inBackground a, u => bindersAfter w binder a u
  | _, u => binder u

/-- Runs from new objects on, with who bound each view last. -/
inductive Session (β : Behaviour σ ε) : (Nat → Option Nat) → Ensemble σ ε → Prop where
  | start {w} (fresh : Fresh w) : Session β (fun _ => none) w
  | step {binder w w'} {a : Action σ ε} {r : a.Result} (depth : Nat) (session : Session β binder w)
      (permitted : w.permits a = true) (done : act β depth trafficOnly a w = some (r, w')) :
      Session β (w.bindersAfter binder a) w'

/-- One connection for each bound object, none for any other, and views attached to who
    bound them last. -/
structure Topology (binder : Nat → Option Nat) (w : Ensemble σ ε) : Prop where
  models : ∀ c m, w.controllerSlots (.modelData m) c =
    if w.isControllerAlive c ∧ (w.controller c).model = some m then [.controllerData c] else []
  views : ∀ c v, ∀ port ∈ viewPorts c v, w.controllerSlots port.1 c =
    if w.isControllerAlive c ∧ (w.controller c).view = some v then [port.2] else []
  attached : ∀ v, w.viewController? v = (binder v).filter w.isControllerAlive
  controllers : ∀ c v, ∀ port ∈ attachmentPorts v c, w.viewSlots port.1 v =
    if w.viewController? v = some c then [port.2] else []

/-! ## Views and who bound them -/

/-- A view's controller is the one that bound it last, which is still bound to it. -/
def Agrees (w : Ensemble σ ε) (v : Nat) (binder : Option Nat) : Prop :=
  w.viewController? v = binder.filter w.isControllerAlive ∧
    ∀ c, binder = some c → w.isControllerAlive c = true → (w.controller c).view = some v

variable {w w' : Ensemble σ ε} {β : Behaviour σ ε}

theorem viewController?_eq (w : Ensemble σ ε) (v : Nat) : w.viewController? v =
    ((w.view v).attachment.map (·.controller)).filter w.isControllerAlive := by
  unfold viewController?
  cases (w.view v).attachment with
  | none => rfl
  | some a => by_cases h : w.isControllerAlive a.controller <;> simp [Option.filter_some, h]

theorem filter_filter_of_imp {p q : Nat → Bool} (imp : ∀ c, q c = true → p c = true)
    (o : Option Nat) : (o.filter p).filter q = o.filter q := by
  rw [Option.filter_filter]
  congr 1
  funext c
  cases h : q c with
  | true => simp [imp c h]
  | false => simp

/-- The view stays attached, nobody comes to life, and its controller stays bound. -/
theorem Agrees.lower {v : Nat} {binder : Option Nat} (agrees : w.Agrees v binder)
    (attachment : ((w'.view v).attachment.map (·.controller)) =
      (w.view v).attachment.map (·.controller))
    (alive : ∀ c, w'.isControllerAlive c = true → w.isControllerAlive c = true)
    (bound : ∀ c, binder = some c → w'.isControllerAlive c = true →
      (w.controller c).view = some v → (w'.controller c).view = some v) :
    w'.Agrees v binder := by
  refine ⟨?_, fun c same living => bound c same living (agrees.2 c same (alive c living))⟩
  rw [viewController?_eq, attachment, ← filter_filter_of_imp alive, ← viewController?_eq,
    agrees.1, filter_filter_of_imp alive]

theorem Agrees.frame {v : Nat} {binder : Option Nat} {torn : Option Link}
    (agrees : w.Agrees v binder) (frame : Frame w w') (intact : Intact torn w') :
    w'.Agrees v binder := by
  have alive : ∀ c, w'.isControllerAlive c = true → w.isControllerAlive c = true := by
    intro c living
    cases before : w.isControllerAlive c with
    | true => rfl
    | false =>
        rw [frame.dead before] at living
        cases living
  have bound : ∀ c, w'.isControllerAlive c = true → (w.controller c).view = some v →
      (w'.controller c).view = some v := by
    intro c living before
    rcases frame.bonds c with same | ⟨dead, -⟩
    · exact same.2.1.trans before
    · rw [dead] at living
      cases living
  rcases frame.attachment v with same | ⟨free, closed⟩
  · exact agrees.lower (by rw [same]) alive fun c _ => bound c
  · -- A view that was taken apart is bound to no living controller.
    have unbound : ∀ c, binder = some c → w'.isControllerAlive c = false := by
      intro c same
      cases living : w'.isControllerAlive c with
      | false => rfl
      | true =>
          have held := bound c living (agrees.2 c same (alive c living))
          have opened := intact.standing _ (.view held (List.mem_cons_self))
          rw [closed] at opened
          cases opened
    refine ⟨?_, fun c same living => absurd living (by simp [unbound c same])⟩
    rw [viewController?_eq, free]
    cases binder with
    | none => rfl
    | some c => simp [Option.filter_some, unbound c rfl]

/-! ## Between actions and inside -/

/-- Controllers are held by so many calls, and those that nobody holds have no signals. -/
structure Counted (pins : Nat → Nat) (w : Ensemble σ ε) : Prop where
  pins : ∀ c, (w.controller c).pins = pins c
  shut : ∀ c, w.isControllerAlive c = false → ∀ s ∈ controllerSignals c,
    (w.signal s).closed = true

theorem Counted.frame {pins : Nat → Nat} (counted : Counted pins w) (frame : Frame w w') :
    Counted pins w' where
  pins c := (frame.pins c).trans (counted.pins c)
  shut c dead s member := by
    cases before : w.isControllerAlive c with
    | true => exact frame.ended c before dead s member
    | false => exact frame.closed s (counted.shut c before s member)

/-- Nobody is held or freed. -/
theorem Counted.same {pins : Nat → Nat} (counted : Counted pins w)
    (holders : ∀ c, (w'.controller c).held = (w.controller c).held ∧
      (w'.controller c).pins = (w.controller c).pins)
    (closed : ∀ s, (w.signal s).closed = true → (w'.signal s).closed = true) :
    Counted pins w' where
  pins c := (holders c).2.trans (counted.pins c)
  shut c dead s member := by
    refine closed s (counted.shut c ?_ s member)
    rw [← dead]
    simp only [isControllerAlive, Controller.isAlive, holders c]

/-- And views agree with who bound them last. -/
structure Resting (pins : Nat → Nat) (binder : Nat → Option Nat) (w : Ensemble σ ε) : Prop
    extends Counted pins w where
  agrees : ∀ v, w.Agrees v (binder v)

theorem Resting.frame {pins : Nat → Nat} {binder : Nat → Option Nat} {torn : Option Link}
    (resting : Resting pins binder w) (frame : Frame w w') (intact : Intact torn w') :
    Resting pins binder w' :=
  ⟨resting.toCounted.frame frame, fun v => (resting.agrees v).frame frame intact⟩

/-! ## Steps that run no client code -/

/-- A controller changes, lines are cut, and nobody comes to life or changes its view. -/
theorem holders_of_bonds (bonds : ∀ c, (w'.controller c).bonds = (w.controller c).bonds) (c : Nat) :
    (w'.controller c).held = (w.controller c).held ∧
      (w'.controller c).pins = (w.controller c).pins := by
  obtain ⟨held, pins, -⟩ := Controller.bonds_eq.mp (bonds c)
  exact ⟨held, pins⟩

theorem alive_of_holders (holders : ∀ c, (w'.controller c).held = (w.controller c).held ∧
    (w'.controller c).pins = (w.controller c).pins) (c : Nat) :
    w'.isControllerAlive c = w.isControllerAlive c := by
  simp only [isControllerAlive, Controller.isAlive, holders c]

section Pure

variable (w) (c : Nat)

theorem holders_cut (lines : List (Subscription σ)) {f : Controller σ → Controller σ}
    (holders : ∀ o, (f o).held = o.held ∧ (f o).pins = o.pins) (b : Nat) :
    ((cutAll lines (updateController c f w)).controller b).held = (w.controller b).held ∧
      ((cutAll lines (updateController c f w)).controller b).pins = (w.controller b).pins := by
  have only := onlySignals_cutAll lines (updateController c f w)
  constructor
  · exact (only.of_controller (·.held) (fun _ => rfl) b).trans
      (blind_updateController w c f (·.held) (fun o => (holders o).1) b)
  · exact (only.of_controller (·.pins) (fun _ => rfl) b).trans
      (blind_updateController w c f (·.pins) (fun o => (holders o).2) b)

theorem holders_plug (d : Delivery) (ports : List (SignalRef × Slot σ))
    {f : Controller σ → Controller σ}
    (holders : ∀ o, (f o).held = o.held ∧ (f o).pins = o.pins) (b : Nat) :
    ((updateController c f (plugAll d ports w).2).controller b).held = (w.controller b).held ∧
      ((updateController c f (plugAll d ports w).2).controller b).pins = (w.controller b).pins := by
  have only := onlySignals_plugAll d ports w
  constructor
  · exact (blind_updateController _ c f (·.held) (fun o => (holders o).1) b).trans
      (only.of_controller (·.held) (fun _ => rfl) b)
  · exact (blind_updateController _ c f (·.pins) (fun o => (holders o).2) b).trans
      (only.of_controller (·.pins) (fun _ => rfl) b)

end Pure

theorem Resting.tearModel {pins : Nat → Nat} {binder : Nat → Option Nat}
    (resting : Resting pins binder w) (c : Nat) (m : Option Nat) :
    Resting pins binder (tearModel c m w) := by
  have holders := holders_cut w c (w.lines (.model c)) (f := rebindModel m) fun _ => ⟨rfl, rfl⟩
  have only := onlySignals_cutAll (w.lines (.model c)) (updateController c (rebindModel m) w)
  refine ⟨resting.toCounted.same holders fun s h => ?_, fun v => ?_⟩
  · rw [Ensemble.tearModel, closed_cutAll,
      signal_updateController w c (f := rebindModel m) fun _ => ⟨rfl, rfl, rfl⟩, h]
  · refine (resting.agrees v).lower ?_ (fun b h => (alive_of_holders holders b) ▸ h) ?_
    · exact congrArg _ (only.of_view (·.attachment) (fun _ => rfl) v)
    · intro b _ _ bound
      rw [← bound]
      exact (only.of_controller (·.view) (fun _ => rfl) b).trans
        (blind_updateController w c (rebindModel m) (·.view) (fun _ => rfl) b)

theorem Resting.joinModel {pins : Nat → Nat} {binder : Nat → Option Nat}
    (resting : Resting pins binder w) (c : Nat) (m : Option Nat) :
    Resting pins binder (joinModel c m w) := by
  cases m with
  | none => exact resting
  | some m =>
      have holders := holders_plug w c (modelDelivery w c) (modelPorts c m)
        (f := lineModel (plugAll (modelDelivery w c) (modelPorts c m) w).1) fun _ => ⟨rfl, rfl⟩
      have only := onlySignals_plugAll (modelDelivery w c) (modelPorts c m) w
      refine ⟨resting.toCounted.same holders fun s h => ?_, fun v => ?_⟩
      · rw [Ensemble.joinModel, tieModel,
          signal_updateController _ c (by exact fun _ => ⟨rfl, rfl, rfl⟩), closed_plugAll, h]
      · refine (resting.agrees v).lower ?_ (fun b h => (alive_of_holders holders b) ▸ h) ?_
        · exact congrArg _ (only.of_view (·.attachment) (fun _ => rfl) v)
        · intro b _ _ bound
          rw [← bound]
          exact (blind_updateController _ c (lineModel _) (·.view) (fun _ => rfl) b).trans
            (only.of_controller (·.view) (fun _ => rfl) b)

/-! ## Views that are left and joined -/

theorem attachment_detach (v : Nat) (w : Ensemble σ ε) (u : Nat) :
    ((detach v w).view u).attachment = if u = v then none else (w.view u).attachment := by
  rw [detach, (onlySignals_cutAll _ _).of_view (·.attachment) fun _ => rfl, view_updateView]
  split <;> rfl

theorem attached_attachTo (v c : Nat) (w : Ensemble σ ε) (u : Nat) :
    ((attachTo v c w).view u).attachment.map (·.controller) =
      if u = v then some c else (w.view u).attachment.map (·.controller) := by
  unfold attachTo
  split
  · next attached =>
      split
      · next same => rw [same, attached]
      · rfl
  · simp only [view_updateView]
    split
    · rfl
    · next other =>
        rw [(onlySignals_plugAll _ _ _).of_view (·.attachment) (fun _ => rfl), attachment_detach,
          if_neg other]

theorem closed_detach (v : Nat) (w : Ensemble σ ε) (s : SignalRef) :
    ((detach v w).signal s).closed = (w.signal s).closed := by
  rw [detach, closed_cutAll, signal_reattach]

theorem closed_attachTo (v c : Nat) (w : Ensemble σ ε) (s : SignalRef) :
    ((attachTo v c w).signal s).closed = (w.signal s).closed := by
  unfold attachTo
  split
  · rfl
  · rw [signal_reattach, closed_plugAll, closed_detach]

/-- A view that another controller bound last keeps it. -/
theorem Agrees.freeView {u c : Nat} {binder : Option Nat} (agrees : w.Agrees u binder)
    (other : binder ≠ some c) (v : Nat) : (freeView c v w).Agrees u binder := by
  unfold Ensemble.freeView
  split
  · next attached =>
      have elsewhere : u ≠ v := by
        rintro rfl
        rw [agrees.1] at attached
        exact other (Option.filter_eq_some_iff.mp attached).1
      have bonds : ∀ b, ((detach v w).controller b).bonds = (w.controller b).bonds :=
        fun b => (onlySignals_cutAll _ _).bonds b
      have holders := holders_of_bonds bonds
      refine agrees.lower ?_ (fun b h => (alive_of_holders holders b) ▸ h) fun b _ _ bound => ?_
      · rw [attachment_detach, if_neg elsewhere]
      · exact ((onlySignals_cutAll _ _).of_controller (·.view) (fun _ => rfl) b).trans bound
  · exact agrees

/-- A view that is attached to the controller, or to none, is attached to none. -/
theorem agrees_freeView {u c : Nat} (alive : w.isControllerAlive c = true)
    (attached : (w.view u).attachment.map (·.controller) = some c ∨ (w.view u).attachment = none) :
    (freeView c u w).Agrees u none := by
  refine ⟨?_, fun _ h => by cases h⟩
  rw [viewController?_eq]
  unfold freeView
  rcases attached with attached | free
  · rw [if_pos (by rw [viewController?_eq, attached]; simp [Option.filter_some, alive]),
      attachment_detach, if_pos rfl]
    rfl
  · rw [if_neg (by rw [viewController?_eq, free]; simp), free]
    rfl

/-- Who bound each view last, after a controller has unbound its view. -/
def withoutBinder (binder : Nat → Option Nat) (c u : Nat) : Option Nat :=
  if binder u = some c then none else binder u

/-- A controller leaves its view, and client code runs where its bindings end. -/
theorem Resting.leaveView {pins : Nat → Nat} {binder : Nat → Option Nat} {c : Nat}
    {v : Option Nat} {w₂ : Ensemble σ ε} (resting : Resting pins binder w) (intact : Intact none w)
    (pinned : 0 < (w.controller c).pins)
    (intact₂ : Intact (some (.view c)) w₂)
    (frame : Frame (tearView c v (holdOld (w.controller c).view w)) w₂) :
    Resting pins (withoutBinder binder c) (leaveOld c (w.controller c).view w₂) := by
  have alive : w.isControllerAlive c = true := by
    simp [isControllerAlive, Controller.isAlive, pinned]
  -- The view that was bound is held: views agree as before.
  have held : Resting pins binder (holdOld (w.controller c).view w) := by
    cases (w.controller c).view with
    | none => exact resting
    | some u =>
        obtain ⟨intact', pinned'⟩ := intact.viewPins u (·.pins + 1)
        exact resting.frame pinned'.toFrame intact'
  have same₀ := controller_holdOld (w.controller c).view w c
  -- The link is torn: only views that the controller did not bind last agree as before.
  have holders := holders_cut (holdOld (w.controller c).view w) c
    ((holdOld (w.controller c).view w).lines (.view c)) (f := rebindView v) fun _ => ⟨rfl, rfl⟩
  have only := onlySignals_cutAll ((holdOld (w.controller c).view w).lines (.view c))
    (updateController c (rebindView v) (holdOld (w.controller c).view w))
  have counted : Counted pins (tearView c v (holdOld (w.controller c).view w)) := by
    refine held.toCounted.same holders fun s h => ?_
    rw [tearView, closed_cutAll,
      signal_updateController _ c (f := rebindView v) fun _ => ⟨rfl, rfl, rfl⟩, h]
  have others : ∀ u, binder u ≠ some c →
      (tearView c v (holdOld (w.controller c).view w)).Agrees u (binder u) := by
    intro u other
    refine (held.agrees u).lower (congrArg _ (only.of_view (·.attachment) (fun _ => rfl) u))
      (fun b h => (alive_of_holders holders b) ▸ h) fun b same _ bound => ?_
    have elsewhere : b ≠ c := by
      rintro rfl
      exact other same
    rw [tearView, only.of_controller (·.view) (fun _ => rfl),
      controller_updateController_ne _ c _ elsewhere]
    exact bound
  have mine : ∀ u, binder u = some c → (w.controller c).view = some u ∧
      ((w₂.view u).attachment.map (·.controller) = some c ∨ (w₂.view u).attachment = none) := by
    intro u same
    obtain ⟨attached, bound⟩ := held.agrees u
    have alive₀ : (holdOld (w.controller c).view w).isControllerAlive c = true := by
      rw [isControllerAlive, same₀]
      exact alive
    refine ⟨same₀ ▸ bound c same alive₀, ?_⟩
    rcases frame.attachment u with kept | ⟨free, -⟩
    · rw [kept, tearView, only.of_view (·.attachment) fun _ => rfl]
      rw [viewController?_eq, same] at attached
      simp only [Option.filter_some, alive₀, if_true] at attached
      exact .inl (Option.filter_eq_some_iff.mp attached).1
    · exact .inr free
  have counted₂ := counted.frame frame
  have pinned₂ : 0 < (w₂.controller c).pins := by
    rw [counted₂.pins, ← resting.pins]
    exact pinned
  have alive₂ : w₂.isControllerAlive c = true := by
    simp [isControllerAlive, Controller.isAlive, pinned₂]
  have kept : ∀ u, binder u ≠ some c → w₂.Agrees u (withoutBinder binder c u) := by
    intro u other
    rw [withoutBinder, if_neg other]
    exact (others u other).frame frame intact₂
  cases old : (w.controller c).view with
  | none =>
      refine ⟨counted₂, fun u => kept u fun same => ?_⟩
      rw [(mine u same).1] at old
      cases old
  | some x =>
      have freed : Resting pins (withoutBinder binder c) (freeView c x w₂) := by
        refine ⟨counted₂.same (holders_of_bonds (bonds_freeView c x w₂)) fun s h => ?_, fun u => ?_⟩
        · unfold freeView
          split
          · rw [closed_detach, h]
          · exact h
        · by_cases same : binder u = some c
          · obtain ⟨bound, attached⟩ := mine u same
            rw [old] at bound
            cases bound
            rw [withoutBinder, if_pos same]
            exact agrees_freeView alive₂ attached
          · refine (kept u same).freeView ?_ x
            rw [withoutBinder, if_neg same]
            exact same
      have intact₃ := intact₂.freeView c x
      obtain ⟨intact₄, unpin⟩ := intact₃.viewPins x (·.pins - 1)
      obtain ⟨intact₅, gone⟩ := intact₄.withoutView x
      exact (freed.frame unpin.toFrame intact₄).frame gone.toFrame intact₅

/-- A controller joins a view that it did not bind last. -/
theorem Resting.joinView {pins : Nat → Nat} {binder : Nat → Option Nat} {c : Nat}
    {v : Option Nat} (resting : Resting pins (withoutBinder binder c) w)
    (bound : (w.controller c).view = v) :
    Resting pins (fun u => if v = some u then some c else withoutBinder binder c u)
      (joinView c v w) := by
  cases v with
  | none => simpa [Ensemble.joinView] using resting
  | some x =>
      have only := onlySignals_plugAll .direct (viewPorts c x) w
      have tied := holders_plug w c .direct (viewPorts c x)
        (f := lineView (plugAll .direct (viewPorts c x) w).1) fun _ => ⟨rfl, rfl⟩
      have holders : ∀ b, ((attachTo x c (tieView c x w)).controller b).held =
          (w.controller b).held ∧ ((attachTo x c (tieView c x w)).controller b).pins =
          (w.controller b).pins := by
        intro b
        obtain ⟨held, pins⟩ := holders_of_bonds (bonds_attachTo x c (tieView c x w)) b
        exact ⟨held.trans (tied b).1, pins.trans (tied b).2⟩
      have view : ∀ b, ((attachTo x c (tieView c x w)).controller b).view =
          (w.controller b).view := by
        intro b
        obtain ⟨-, -, -, -, same, -⟩ :=
          Controller.bonds_eq.mp (bonds_attachTo x c (tieView c x w) b)
        exact same.trans ((blind_updateController _ c (lineView _) (·.view) (fun _ => rfl) b).trans
          (only.of_controller (·.view) (fun _ => rfl) b))
      refine ⟨resting.toCounted.same holders fun s h => ?_, fun u => ?_⟩
      · rw [Ensemble.joinView, closed_attachTo, tieView, signal_updateController _ c
          (f := lineView _) fun _ => ⟨rfl, rfl, rfl⟩, closed_plugAll, h]
      · have attached := attached_attachTo x c (tieView c x w) u
        by_cases here : u = x
        · subst here
          simp only [if_true] at attached ⊢
          refine ⟨?_, fun b same _ => ?_⟩
          · rw [Ensemble.joinView, viewController?_eq, attached]
          · cases same
            exact (view c).trans bound
        · have other : (some x = some u) = False := by simpa using Ne.symm here
          simp only [other, if_false]
          rw [if_neg here] at attached
          refine (resting.agrees u).lower ?_ (fun b h => (alive_of_holders holders b) ▸ h) ?_
          · rw [Ensemble.joinView, attached, tieView]
            exact congrArg _ (only.of_view (·.attachment) (fun _ => rfl) u)
          · exact fun b _ _ before => (view b).trans before

/-! ## Actions -/

/-- A controller with one more holder. -/
def onceMore (pins : Nat → Nat) (c b : Nat) : Nat := if b = c then pins b + 1 else pins b

/-- A living controller is held during a call that binds. -/
theorem Resting.holding {pins : Nat → Nat} {binder binder' : Nat → Option Nat} {run : Runner σ ε}
    (ending : ∀ torn code, Keeps (Calm lawless torn) (run (.subscription code)))
    {p : Proc (Ensemble σ ε) Unit} {c : Nat} {r : Unit} (intact : Intact none w)
    (resting : Resting pins binder w) (alive : w.isControllerAlive c = true)
    (inner : ∀ w₁ w₂, Intact none w₁ → Resting (onceMore pins c) binder w₁ →
      0 < (w₁.controller c).pins → (∀ s, w₁.signal s = w.signal s) →
      (w₁.controller c).view = (w.controller c).view →
      p w₁ = some (r, w₂) → Intact none w₂ ∧ Resting (onceMore pins c) binder' w₂)
    (h : holdingController run c p w = some (r, w')) :
    Intact none w' ∧ Resting pins binder' w' := by
  obtain ⟨w₂, called, collecting⟩ := holdingController_steps h
  have bonds := sameBonds_holders w c (·.held) (·.pins + 1)
  have alive₁ : ∀ b, (holders c (·.held) (·.pins + 1) w).isControllerAlive b = true →
      w.isControllerAlive b = true := by
    intro b living
    by_cases here : b = c
    · rwa [here]
    · rwa [isControllerAlive, controller_holders_ne w _ _ here] at living
  have held : Resting (onceMore pins c) binder (holders c (·.held) (·.pins + 1) w) := by
    refine ⟨⟨fun b => ?_, fun b dead s member => ?_⟩, fun v => ?_⟩
    · by_cases here : b = c
      · subst here
        simp [holders, onceMore, resting.pins b]
      · rw [controller_holders_ne w _ _ here, onceMore, if_neg here, resting.pins]
    · rw [signal_holders]
      refine resting.shut b ?_ s member
      by_cases here : b = c
      · subst here
        simp [isControllerAlive, holders, Controller.isAlive] at dead
      · rwa [isControllerAlive, controller_holders_ne w _ _ here] at dead
    · exact (resting.agrees v).lower rfl alive₁ fun b _ _ bound => (bonds b).2.1.trans bound
  have pinned : 0 < ((holders c (·.held) (·.pins + 1) w).controller c).pins := by simp [holders]
  obtain ⟨intact₂, resting₂⟩ := inner _ w₂ (intact.hold c) held pinned
    (signal_holders w c _ _) (bonds c).2.1 called
  have idle : ∀ b, b ≠ c → (holders c (·.held) (·.pins - 1) w₂).Idle b := fun b other =>
    (intact₂.idle b).of_bonds (congrArg _ (controller_holders_ne w₂ _ _ other))
  obtain ⟨intact', frame, -, shut⟩ := collectController_calm (g := lawless) (ending none)
    (intact₂.toSturdy.holders c (·.held) (·.pins - 1) fun _ h => h) idle trivial _ w' collecting
  have bonds₂ := sameBonds_holders w₂ c (·.held) (·.pins - 1)
  have alive₂ : ∀ b, (holders c (·.held) (·.pins - 1) w₂).isControllerAlive b = true →
      w₂.isControllerAlive b = true := by
    intro b living
    by_cases here : b = c
    · subst here
      simp only [isControllerAlive, holders, Controller.isAlive, controller_updateController_self,
        Bool.or_eq_true, decide_eq_true_eq] at living ⊢
      exact living.imp_right fun h => by omega
    · rwa [isControllerAlive, controller_holders_ne w₂ _ _ here] at living
  refine ⟨intact', ⟨fun b => ?_, fun b dead s member => ?_⟩, fun v => ?_⟩
  · rw [frame.pins]
    have pins₂ := resting₂.pins b
    by_cases here : b = c
    · subst here
      simp only [onceMore, if_true] at pins₂
      simp [holders, pins₂]
    · rw [controller_holders_ne w₂ _ _ here, pins₂, onceMore, if_neg here]
  · cases before : (holders c (·.held) (·.pins - 1) w₂).isControllerAlive b with
    | true => exact frame.ended b before dead s member
    | false =>
        by_cases here : b = c
        · subst here
          exact shut before s member
        · rw [isControllerAlive, controller_holders_ne w₂ _ _ here] at before
          refine frame.closed s ?_
          rw [signal_holders]
          exact resting₂.shut b before s member
  · have agrees : (holders c (·.held) (·.pins - 1) w₂).Agrees v (binder' v) :=
      (resting₂.agrees v).lower rfl alive₂ fun b _ _ bound => (bonds₂ b).2.1.trans bound
    exact agrees.frame frame intact'

section Acts

variable {depth : Nat}

theorem announce_calm (own : BindsOwn β) (c : Nat) :
    Keeps (Calm lawless none) (announce (runUnder β depth trafficOnly) β c) := by
  have calls : ∀ call, Keeps (Calm lawless none) (runUnder β depth trafficOnly call) :=
    traffic_calm own depth
  have k := keeper_lawless (fun _ => trivial) calls (fun code => calls (.subscription code))
    (own.runUnder depth trafficOnly)
  exact (tracks_self _).mp (.bind k.order (k.rebindIfReady c) fun _ => k.emitPhase c)

/-- Binding a model keeps the views with those that bound them. -/
theorem setModel_resting (own : BindsOwn β) {pins : Nat → Nat} {binder : Nat → Option Nat}
    {c : Nat} {m : Option Nat} {r : Unit} (intact : Intact none w)
    (resting : Resting pins binder w) (pinned : 0 < (w.controller c).pins)
    (opened : ∀ i, m = some i → (w.signal (.modelData i)).closed = false)
    (h : setModel (runUnder β depth trafficOnly) β c m w = some (r, w')) :
    Intact none w' ∧ Resting pins binder w' := by
  by_cases same : (w.controller c).model = m
  · unfold setModel at h
    rw [get_bind] at h
    dsimp only at h
    rw [if_pos same] at h
    cases h
    exact ⟨intact, resting⟩
  · obtain ⟨w₂, intact₂, frame, -, -, tied, -, announced⟩ := setModel_steps (g := lawless)
      (fun code => traffic_calm own depth (.subscription code)) intact trivial pinned opened same h
    obtain ⟨intact', frame'⟩ := keeps_lawless.mp (announce_calm own c) _ tied r w' announced
    have between := ((resting.tearModel c m).frame frame intact₂).joinModel c m
    exact ⟨intact', between.frame frame' intact'⟩

/-- Binding a view makes the controller the one that bound it last. -/
theorem setView_resting (own : BindsOwn β) {pins : Nat → Nat} {binder : Nat → Option Nat}
    {c : Nat} {v : Option Nat} {r : Unit} (intact : Intact none w)
    (resting : Resting pins binder w) (pinned : 0 < (w.controller c).pins)
    (opened : ∀ u, v = some u → ∀ s ∈ viewSignals u, (w.signal s).closed = false)
    (h : setView (runUnder β depth trafficOnly) β c v w = some (r, w')) :
    Intact none w' ∧ Resting pins (w.bindersAfter binder (.setView c v : Action σ ε)) w' := by
  by_cases unchanged : (w.controller c).view = v
  · unfold setView at h
    rw [get_bind] at h
    dsimp only at h
    rw [if_pos unchanged] at h
    cases h
    refine ⟨intact, resting.toCounted, fun u => ?_⟩
    rw [bindersAfter, if_pos unchanged]
    exact resting.agrees u
  · obtain ⟨w₂, intact₂, frame, bound, -, tied, -, announced⟩ := setView_steps (g := lawless)
      (fun code => traffic_calm own depth (.subscription code)) intact trivial pinned opened
      unchanged h
    obtain ⟨intact', frame'⟩ := keeps_lawless.mp (announce_calm own c) _ tied r w' announced
    have left := resting.leaveView intact pinned intact₂ frame
    have view₃ := (Controller.bonds_eq.mp
      (bonds_leaveOld c (w.controller c).view w₂ c)).2.2.2.2.1.trans bound
    have joined := (left.joinView view₃).frame frame' intact'
    refine ⟨intact', joined.toCounted, fun u => ?_⟩
    rw [bindersAfter, if_neg unchanged]
    exact joined.agrees u

/-- And so it does while the view is held. -/
theorem holdingView?_setView_resting (own : BindsOwn β) {pins : Nat → Nat}
    {binder : Nat → Option Nat} {c : Nat} {v : Option Nat} {r : Unit} (intact : Intact none w)
    (resting : Resting pins binder w) (pinned : 0 < (w.controller c).pins)
    (opened : ∀ u, v = some u → ∀ s ∈ viewSignals u, (w.signal s).closed = false)
    (h : holdingView? (runUnder β depth trafficOnly) v
      (setView (runUnder β depth trafficOnly) β c v) w = some (r, w')) :
    Intact none w' ∧ Resting pins (w.bindersAfter binder (.setView c v : Action σ ε)) w' := by
  cases v with
  | none => exact setView_resting own intact resting pinned opened h
  | some x =>
      obtain ⟨_, w₁, pin, h⟩ := bind_eq_some.mp h
      cases pin
      obtain ⟨_, w₂, called, h⟩ := bind_eq_some.mp h
      obtain ⟨intact₁, pinning⟩ := intact.viewPins x (·.pins + 1)
      have opened₁ : ∀ u, some x = some u → ∀ s ∈ viewSignals u,
          ((pinView x w).signal s).closed = false := by
        intro u same s member
        rw [pinView, signal_updateView w x (by exact fun _ => ⟨rfl, rfl, rfl⟩)]
        exact opened u same s member
      obtain ⟨intact₂, resting₂⟩ :=
        setView_resting own intact₁ (resting.frame pinning.toFrame intact₁) pinned opened₁ called
      obtain ⟨intact₃, frame₃⟩ := intact₂.viewPins x (·.pins - 1)
      rw [modify_bind] at h
      obtain ⟨_, w₄, collected, h⟩ := bind_eq_some.mp h
      cases h
      obtain ⟨intact₄, frame₄⟩ := keeps_lawless.mp (collectView_calm _ x) _ intact₃ _ _ collected
      exact ⟨intact₄, (resting₂.frame frame₃.toFrame intact₃).frame frame₄ intact₄⟩

theorem permits_thread (w : Ensemble σ ε) (thread : Thread) (a : Action σ ε) :
    permits { w with thread } a = w.permits a := by
  induction a with
  | inBackground a ih => exact ih
  | setModel | setView => rfl
  | _ => exact traffic_thread w thread _

theorem bindersAfter_thread (w : Ensemble σ ε) (thread : Thread) (binder : Nat → Option Nat)
    (a : Action σ ε) : bindersAfter { w with thread } binder a = w.bindersAfter binder a := by
  induction a with
  | inBackground a ih => exact ih
  | _ => rfl

/-- What may be done from outside keeps an ensemble intact and at rest. -/
theorem act_resting (own : BindsOwn β) {binder : Nat → Option Nat} {a : Action σ ε} {r : a.Result}
    (intact : Intact none w) (resting : Resting (fun _ => 0) binder w)
    (permitted : w.permits a = true) (h : act β depth trafficOnly a w = some (r, w')) :
    Intact none w' ∧ Resting (fun _ => 0) (w.bindersAfter binder a) w' := by
  have ending : ∀ torn code,
      Keeps (Calm lawless torn) (runUnder β depth trafficOnly (.subscription code)) :=
    fun _ code => traffic_calm own depth (.subscription code)
  induction a generalizing w w' with
  | inBackground a ih =>
      obtain ⟨intact₁, started₁⟩ := intact.thread .background
      obtain ⟨_, w₁, started, h⟩ := bind_eq_some.mp h
      cases started
      rw [modify_bind] at h
      obtain ⟨r₂, w₂, called, h⟩ := bind_eq_some.mp h
      cases h
      obtain ⟨intact₂, resting₂⟩ := ih intact₁ (resting.frame started₁.toFrame intact₁)
        ((permits_thread w .background a).trans permitted) called
      rw [bindersAfter_thread] at resting₂
      obtain ⟨intact₃, back⟩ := intact₂.thread w.thread
      exact ⟨intact₃, resting₂.frame back.toFrame intact₃⟩
  | setModel c m =>
      simp only [permits, Bool.and_eq_true] at permitted
      have alive : w.isControllerAlive c = true := by
        simp [isControllerAlive, Controller.isAlive, permitted.1]
      refine resting.holding ending intact alive ?_ h
      intro w₁ w₂ intact₁ resting₁ pinned signals view called
      refine setModel_resting own intact₁ resting₁ pinned (fun i bound => ?_) called
      rw [signals]
      simpa [bound] using permitted.2
  | setView c v =>
      simp only [permits, Bool.and_eq_true] at permitted
      have alive : w.isControllerAlive c = true := by
        simp [isControllerAlive, Controller.isAlive, permitted.1]
      refine resting.holding ending intact alive ?_ h
      intro w₁ w₂ intact₁ resting₁ pinned signals view called
      have same : w.bindersAfter binder (.setView c v : Action σ ε) =
          w₁.bindersAfter binder (.setView c v : Action σ ε) := by
        funext u
        simp only [bindersAfter, view]
      rw [same]
      refine holdingView?_setView_resting own intact₁ resting₁ pinned (fun u bound s member => ?_)
        called
      rw [signals]
      have opened := permitted.2
      rw [bound] at opened
      simpa using List.all_eq_true.mp opened s member
  | _ =>
      obtain ⟨intact', frame, -⟩ := (performAction_lawless (fun _ => trivial)
        (traffic_calm own depth) (ending none) (own.runUnder depth trafficOnly) depth permitted
        r w' h).2 intact trivial
      exact ⟨intact', resting.frame frame intact'⟩

end Acts

/-! ## Sessions -/

theorem Fresh.resting (fresh : Fresh w) : Resting (fun _ => 0) (fun _ => none) w where
  pins c := (fresh.controllers c).2.1
  shut c dead := by
    simp [isControllerAlive, Controller.isAlive, (fresh.controllers c).1] at dead
  agrees v := ⟨by simp [viewController?, fresh.views v], fun _ h => by cases h⟩

/-- Every state of a session is intact and at rest. -/
theorem Session.resting (own : BindsOwn β) {binder : Nat → Option Nat}
    (session : Session β binder w) : Intact none w ∧ Resting (fun _ => 0) binder w := by
  induction session with
  | start fresh => exact ⟨fresh.intact, fresh.resting⟩
  | step depth _ permitted done ih => exact act_resting own ih.1 ih.2 permitted done

theorem controllers_of_intact {binder : Nat → Option Nat} (intact : Intact none w)
    (resting : Resting (fun _ => 0) binder w) (c v : Nat) (port : SignalRef × Slot σ)
    (at_controller : port ∈ attachmentPorts v c) : w.viewSlots port.1 v =
      if w.viewController? v = some c then [port.2] else [] := by
  have signal : port.1 ∈ controllerSignals c := by
    simp only [attachmentPorts, List.mem_cons, List.not_mem_nil, or_false] at at_controller
    rcases at_controller with rfl | rfl | rfl <;> simp [controllerSignals]
  have slot : port.2.view? = some v := by
    simp only [attachmentPorts, List.mem_cons, List.not_mem_nil, or_false] at at_controller
    rcases at_controller with rfl | rfl | rfl <;> rfl
  have belong : ∀ id k, w.slotAt port.1 id = some k →
      (decide (k.view? = some v)) = true → k.link? = some (.attachment v) :=
    fun id k _ holds => Slot.view?_eq_some.mp (of_decide_eq_true holds)
  rw [viewController?_eq]
  split
  · next attached =>
      obtain ⟨bound, alive⟩ := Option.filter_eq_some_iff.mp attached
      have held : (w.controller c).held = true := by
        simpa [isControllerAlive, Controller.isAlive, resting.pins c] using alive
      refine intact.wired.slots_port belong ?_ (by simp [slot])
        (intact.standing _ (.held held signal))
      obtain ⟨a, linked, rfl⟩ := Option.map_eq_some_iff.mp bound
      simpa [ports, linked] using at_controller
  · next fails =>
      refine intact.wired.slots_none belong fun id k named there => ?_
      cases linked : (w.view v).attachment with
      | none => simp [ports, linked] at there
      | some a =>
          have same : a.controller = c := by
            simp only [ports, linked, Option.map_some, Option.getD_some, attachmentPorts,
              List.mem_cons, List.not_mem_nil, or_false, Prod.mk.injEq] at there
            simp only [controllerSignals, List.mem_cons, List.not_mem_nil, or_false] at signal
            rcases there with there | there | there <;> rw [there.1] at signal <;>
              simpa using signal
          cases alive : w.isControllerAlive c with
          | true => exact fails (by simp [linked, same, Option.filter_some, alive])
          | false =>
              have closed := resting.shut c alive port.1 signal
              rw [slotAt_of_closed (intact.wired.sound _) closed] at named
              cases named

/-- After every step of a session, the subscriptions are those that the bindings call for. -/
theorem topology_of_session (own : BindsOwn β) {binder : Nat → Option Nat}
    (session : Session β binder w) : Topology binder w := by
  obtain ⟨intact, resting⟩ := session.resting own
  exact ⟨models_of_intact intact, views_of_intact intact, fun v => (resting.agrees v).1,
    controllers_of_intact intact resting⟩

/-! ## A session with a shared view -/

theorem Session.next {binder : Nat → Option Nat}
    (session : Session β binder w) (depth : Nat) (a : Action σ ε) (permitted : w.permits a = true)
    (ends : (act β depth trafficOnly a w).isSome = true) :
    Session β (w.bindersAfter binder a) ((act β depth trafficOnly a w).get ends).2 :=
  session.step depth permitted (Option.some_get ends).symm

/-- Two controllers share a view, and the second one bound it last. -/
theorem topology_of_shared_view : ∃ binder, ∃ w : Ensemble Unit Unit,
    Session Behaviour.plain binder w ∧ binder 0 = some 1 ∧ Topology binder w := by
  have start : Session (Behaviour.plain : Behaviour Unit Unit) _ (new ()) := .start (fresh_new ())
  have model := start.next 2 (.setModel 0 (some 0)) (by decide +kernel)
    (by decide +kernel)
  have first := model.next 2 (.setView 0 (some 0)) (by decide +kernel)
    (by decide +kernel)
  have second := first.next 2 (.setView 1 (some 0)) (by decide +kernel)
    (by decide +kernel)
  exact ⟨_, _, second, by decide +kernel, topology_of_session bindsOwn_plain second⟩

end Mvc.Ensemble
