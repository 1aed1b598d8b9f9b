import Mvc.Proofs.Discipline
import Mvc.Proofs.Teardown

/-! # Ending bindings and holding objects

Bindings are the client's own connections and client code. If the code at their ends leaves
an ensemble intact, ending them does, taking a controller apart does, and so does holding a
controller or view during something that does.

What is kept beside is a regime: a law that holds before and after, and a bond between the
two. A law lasts through every routine change, so that only closing, binding and waiting need
to be looked at. At the ends of bindings the bond has to be a frame.
-/

namespace Mvc.Ensemble

open Proc

variable {σ ε : Type} {torn : Option Link} {w : Ensemble σ ε}

/-- Cutting a line that leads to no slot of a link. -/
theorem Intact.cut (intact : Intact torn w) {s : SignalRef} {id : ConnectionId}
    (spare : ∀ k, w.slotAt s id = some k → k.isClient = true) :
    Intact torn (cut (.connection s id) w) ∧ Routine w (cut (.connection s id) w) := by
  refine intact.onlySignals (onlySignals_cut _ w) (sound_cut _ w intact.wired.sound) ?_ ?_ ?_ ?_ ?_
  · exact fun t h => by rw [closed_cut, h]
  · exact fun t demanded => by rw [closed_cut, intact.standing t demanded]
  · exact fun P t i settled => settled_cut _ w settled
  · intro t i k l named link
    refine .inr ((slotAt_cut _ w).mpr ⟨?_, named⟩)
    intro same
    cases same
    simpa [Slot.not_isClient_of_link link] using spare k named
  · exact fun t i k l named _ => ((slotAt_cut _ w).mp named).2

/-! ## Holders of a controller -/

/-- A controller with other holders. -/
def holders (c : Nat) (held : Controller σ → Bool) (pins : Controller σ → Nat)
    (w : Ensemble σ ε) : Ensemble σ ε :=
  updateController c (fun o => { o with held := held o, pins := pins o }) w

theorem controller_holders_ne (w : Ensemble σ ε) {b c : Nat} (held : Controller σ → Bool)
    (pins : Controller σ → Nat) (other : b ≠ c) :
    (holders c held pins w).controller b = w.controller b :=
  controller_updateController_ne w c _ other

theorem signal_holders (w : Ensemble σ ε) (c : Nat) (held : Controller σ → Bool)
    (pins : Controller σ → Nat) (s : SignalRef) :
    (holders c held pins w).signal s = w.signal s :=
  signal_updateController w c (by exact fun _ => ⟨rfl, rfl, rfl⟩) s

/-- What does not look at holders sees no change. -/
theorem blind_holders (w : Ensemble σ ε) (c : Nat) (held : Controller σ → Bool)
    (pins : Controller σ → Nat) {α : Type} (g : Controller σ → α)
    (blind : ∀ o held pins, g { o with held, pins } = g o) (b : Nat) :
    g ((holders c held pins w).controller b) = g (w.controller b) :=
  blind_updateController w c _ g (fun o => blind o _ _) b

theorem sameBonds_holders (w : Ensemble σ ε) (c : Nat) (held : Controller σ → Bool)
    (pins : Controller σ → Nat) (b : Nat) : SameBonds w (holders c held pins w) b :=
  ⟨blind_holders w c held pins (·.model) (fun _ _ _ => rfl) b,
    blind_holders w c held pins (·.view) (fun _ _ _ => rfl) b,
    blind_holders w c held pins (·.modelSubscriptions) (fun _ _ _ => rfl) b,
    blind_holders w c held pins (·.viewSubscriptions) (fun _ _ _ => rfl) b⟩

/-- Nobody has a handle who had none. -/
theorem held_of_held_holders {c : Nat} {held : Controller σ → Bool} {pins : Controller σ → Nat}
    (less : ∀ o, held o = true → o.held = true) {b : Nat}
    (h : ((holders c held pins w).controller b).held = true) : (w.controller b).held = true := by
  rw [holders, controller_updateController] at h
  split at h
  · next here => exact here ▸ less _ h
  · exact h

theorem Sturdy.holders (sturdy : Sturdy torn w) (c : Nat) (held : Controller σ → Bool)
    (pins : Controller σ → Nat) (less : ∀ o, held o = true → o.held = true) :
    Sturdy torn (holders c held pins w) :=
  sturdy.of_lifetime (signal_holders w c held pins) (sameBonds_holders w c held pins)
    (fun _ => rfl) (fun _ h => held_of_held_holders less h)
    (blind_holders w c held pins (·.bindings) fun _ _ _ => rfl)

theorem untouched_holders (w : Ensemble σ ε) (c : Nat) {held : Controller σ → Bool}
    (pins : Controller σ → Nat) (less : ∀ o, held o = true → o.held = true) :
    Untouched w (holders c held pins w) :=
  .updateController w c (by exact fun _ => ⟨rfl, rfl, rfl⟩) (by exact fun _ => rfl)
    (by exact fun _ => rfl) less

/-- A handle is given up. -/
theorem Stay.holders (c : Nat) (held : Controller σ → Bool)
    (less : ∀ o, held o = true → o.held = true) : Stay w (holders c held (·.pins) w) where
  pins := blind_updateController w c _ (·.pins) fun _ => rfl
  held _ h := held_of_held_holders less h
  dispatcher := blind_holders w c held _ (·.dispatcher) fun _ _ _ => rfl
  closing b h := by rwa [blind_holders w c held _ (·.closing) fun _ _ _ => rfl]
  bonds b := .inl (sameBonds_holders w c held _ b)
  attachment _ := .inl rfl
  closed s h := by rw [signal_holders, h]
  settled P s id h := by rw [signal_holders]; exact h

/-- A controller is held and then no more, and what stays in between stays. -/
theorem Stay.around {c : Nat} {w₂ : Ensemble σ ε}
    (stay : Stay (Ensemble.holders c (·.held) (·.pins + 1) w) w₂) :
    Stay w (Ensemble.holders c (·.held) (·.pins - 1) w₂) := by
  refine ⟨fun b => ?_, fun b h => ?_, fun b => ?_, fun b h => ?_, fun b => ?_, ?_, ?_, ?_⟩
  · have pins := stay.pins b
    by_cases here : b = c
    · subst here
      simp only [Ensemble.holders, controller_updateController_self] at pins ⊢
      omega
    · rw [controller_holders_ne w _ _ here] at pins
      rw [controller_holders_ne w₂ _ _ here, pins]
  · exact held_of_held_holders (fun _ h => h) (stay.held b (held_of_held_holders (fun _ h => h) h))
  · rw [blind_holders w₂ c _ _ (·.dispatcher) fun _ _ _ => rfl, stay.dispatcher b]
    exact blind_holders w c _ _ (·.dispatcher) (fun _ _ _ => rfl) b
  · rw [blind_holders w₂ c _ _ (·.closing) fun _ _ _ => rfl]
    refine stay.closing b ?_
    rw [blind_holders w c _ _ (·.closing) (fun _ _ _ => rfl), h]
  · rcases stay.bonds b with ⟨model, view, modelLines, viewLines⟩ | ⟨dead, bare⟩
    · obtain ⟨model₀, view₀, modelLines₀, viewLines₀⟩ := sameBonds_holders w c _ _ b
      obtain ⟨model₁, view₁, modelLines₁, viewLines₁⟩ :=
        sameBonds_holders w₂ c (·.held) (·.pins - 1) b
      exact .inl ⟨model₁.trans (model.trans model₀), view₁.trans (view.trans view₀),
        modelLines₁.trans (modelLines.trans modelLines₀),
        viewLines₁.trans (viewLines.trans viewLines₀)⟩
    · by_cases here : b = c
      · subst here
        have pins := stay.pins b
        simp only [Ensemble.holders, controller_updateController_self] at pins
        simp [isControllerAlive, Controller.isAlive, pins] at dead
      · have same := controller_holders_ne w₂ (·.held) (·.pins - 1) here
        exact .inr (by rw [isControllerAlive, Bare, same]; exact ⟨dead, bare⟩)
  · intro v
    rw [signal_holders]
    exact stay.attachment v
  · intro s h
    rw [signal_holders]
    exact stay.closed s (by rw [signal_holders, h])
  · intro P s id settled
    rw [signal_holders]
    exact stay.settled P s id (by rw [signal_holders]; exact settled)

theorem Intact.hold (intact : Intact torn w) (c : Nat) :
    Intact torn (Ensemble.holders c (·.held) (·.pins + 1) w) := by
  refine ⟨intact.toSturdy.holders c _ _ (fun _ h => h), fun b => ?_⟩
  by_cases here : b = c
  · intro dead
    subst here
    simp [isControllerAlive, Ensemble.holders, Controller.isAlive] at dead
  · exact (intact.idle b).of_bonds (congrArg _ (controller_holders_ne w _ _ here))

/-- Holding a controller, what is held in between, and looking whether it goes. -/
theorem holdingController_steps {run : Runner σ ε} {α : Type} {p : Proc (Ensemble σ ε) α} {c : Nat}
    {r : α} {w' : Ensemble σ ε} (h : holdingController run c p w = some (r, w')) :
    ∃ w₂, p (holders c (·.held) (·.pins + 1) w) = some (r, w₂) ∧
      collectController run c (holders c (·.held) (·.pins - 1) w₂) = some ((), w') := by
  unfold holdingController at h
  rw [modify_bind] at h
  obtain ⟨r', w₂, inner, h⟩ := bind_eq_some.mp h
  rw [modify_bind] at h
  obtain ⟨_, w₃, collected, h⟩ := bind_eq_some.mp h
  cases h
  exact ⟨w₂, inner, collected⟩

/-- A controller that is held stays when it is let go. -/
theorem eq_of_collected {run : Runner σ ε} {c : Nat} {w' : Ensemble σ ε}
    (held : (w.controller c).held = true)
    (collected : collectController run c (holders c (·.held) (·.pins - 1) w) = some ((), w')) :
    w' = holders c (·.held) (·.pins - 1) w := by
  have alive : (holders c (·.held) (·.pins - 1) w).isControllerAlive c = true := by
    rw [isControllerAlive, holders, controller_updateController_self, Controller.isAlive, held]
    rfl
  rw [collectController_of_alive run alive] at collected
  cases collected
  rfl

/-! ## Regimes -/

/-- What is kept beside being intact. -/
structure Regime (σ ε : Type) where
  /-- Holds before and after. -/
  law : Ensemble σ ε → Prop
  /-- Relates before and after. -/
  bond : Ensemble σ ε → Ensemble σ ε → Prop
  lasts : ∀ {w w'}, Untouched w w' → law w → law w'
  of_frame : ∀ {w w'}, Frame w w' → bond w w'
  trans : ∀ {a b c}, bond a b → bond b c → bond a c
  settled : ∀ {w w'}, bond w w' → StaySettled w w'
  /-- A controller may be held in between. -/
  around : ∀ {c w w₂ w'}, bond (Ensemble.holders c (·.held) (·.pins + 1) w) w₂ →
    Frame (Ensemble.holders c (·.held) (·.pins - 1) w₂) w' →
    ((Ensemble.holders c (·.held) (·.pins - 1) w₂).isControllerAlive c = false →
      ∀ s ∈ controllerSignals c, (w'.signal s).closed = true) → bond w w'

theorem Frame.around {c : Nat} {w w₂ w' : Ensemble σ ε}
    (frame : Frame (Ensemble.holders c (·.held) (·.pins + 1) w) w₂)
    (collected : Frame (Ensemble.holders c (·.held) (·.pins - 1) w₂) w')
    (shut : (Ensemble.holders c (·.held) (·.pins - 1) w₂).isControllerAlive c = false →
      ∀ s ∈ controllerSignals c, (w'.signal s).closed = true) : Frame w w' := by
  refine Frame.collected (Stay.around frame.toStay) (fun b other => ?_) collected shut
  have before : Ended w (Ensemble.holders c (·.held) (·.pins + 1) w) b := by
    refine .of_same ?_
    rw [isControllerAlive, controller_holders_ne w _ _ other]
    rfl
  refine (before.trans (frame.ended b) frame.closed).trans (.of_same ?_) ?_
  · rw [isControllerAlive, controller_holders_ne w₂ _ _ other]
    rfl
  · exact fun s h => by rw [signal_holders, h]

/-- The same law, within a frame. -/
def Regime.framed (g : Regime σ ε) : Regime σ ε where
  law := g.law
  bond := Frame
  lasts := g.lasts
  of_frame frame := frame
  trans := Frame.trans
  settled frame := frame.staySettled
  around := Frame.around

/-- What is there afterwards. -/
abbrev Kept (g : Regime σ ε) (torn : Option Link) (w w' : Ensemble σ ε) : Prop :=
  Intact torn w' ∧ g.bond w w' ∧ g.law w'

/-- An intact ensemble stays intact, under a regime. -/
def Calm (g : Regime σ ε) (torn : Option Link) (w w' : Ensemble σ ε) : Prop :=
  Intact torn w → g.law w → Kept g torn w w'

section Calm

variable {g : Regime σ ε} {w' : Ensemble σ ε}

theorem calm_composes (g : Regime σ ε) (torn : Option Link) : Composes (Calm g torn) where
  refl w intact lawful := ⟨intact, g.of_frame (.refl w), lawful⟩
  trans first second intact lawful := by
    obtain ⟨between, before, lawful⟩ := first intact lawful
    obtain ⟨after, rest, lawful⟩ := second between lawful
    exact ⟨after, g.trans before rest, lawful⟩

theorem Kept.refl (intact : Intact torn w) (lawful : g.law w) : Kept g torn w w :=
  ⟨intact, g.of_frame (.refl w), lawful⟩

theorem Kept.of_routine (lawful : g.law w) (stays : Intact torn w' ∧ Routine w w') :
    Kept g torn w w' :=
  ⟨stays.1, g.of_frame stays.2.toFrame, g.lasts stays.2.untouched lawful⟩

theorem calm_of_routine (stays : Intact torn w → Intact torn w' ∧ Routine w w') :
    Calm g torn w w' :=
  fun intact lawful => .of_routine lawful (stays intact)

theorem Calm.of_framed (calm : Calm g.framed torn w w') : Calm g torn w w' := by
  intro intact lawful
  obtain ⟨intact', frame, lawful'⟩ := calm intact lawful
  exact ⟨intact', g.of_frame frame, lawful'⟩

theorem keeps_calm {α : Type} {p : Proc (Ensemble σ ε) α} : Keeps (Calm g torn) p ↔
    ∀ w, Intact torn w → g.law w → Ends p w fun _ w' => Kept g torn w w' := by
  constructor
  · exact fun keeps w intact lawful r w' h => keeps w r w' h intact lawful
  · exact fun ends w r w' h intact lawful => ends w intact lawful r w' h

/-- What comes next sees what is kept so far. -/
theorem Kept.trans {w₁ : Ensemble σ ε} (first : Kept g torn w w₁) (second : Kept g torn w₁ w') :
    Kept g torn w w' :=
  ⟨second.1, g.trans first.2.1 second.2.1, second.2.2⟩

theorem Kept.bind {α γ : Type} {p : Proc (Ensemble σ ε) α} {f : α → Proc (Ensemble σ ε) γ}
    (first : Ends p w fun a w₁ => Kept g torn w w₁ ∧
      Ends (f a) w₁ fun _ w' => Kept g torn w₁ w') :
    Ends (p >>= f) w fun _ w' => Kept g torn w w' :=
  .bind (first.mono fun _ _ h => h.2.mono fun _ _ rest => h.1.trans rest)

end Calm

/-! ## Ending bindings -/

section Ending

variable {g : Regime σ ε} {run : Runner σ ε}
  (ending : ∀ code, Keeps (Calm g.framed torn) (run (.subscription code)))
include ending

/-- Ending the client's own subscriptions. -/
theorem releaseAll_own {subscriptions : List (Subscription σ)} (intact : Intact torn w)
    (lawful : g.law w) (own : ∀ s id, .connection s id ∈ subscriptions → w.Own s id) :
    Ends (releaseAll run subscriptions) w fun _ w' => Intact torn w' ∧ Frame w w' ∧ g.law w' := by
  induction subscriptions generalizing w with
  | nil => exact (ends_pure () w _).mpr ⟨intact, .refl w, lawful⟩
  | cons first rest ih =>
      have onward : ∀ {w₁}, Intact torn w₁ ∧ Frame w w₁ ∧ g.law w₁ →
          Ends (releaseAll run rest) w₁ fun _ w' => Intact torn w' ∧ Frame w w' ∧ g.law w' := by
        rintro w₁ ⟨intact₁, frame, lawful₁⟩
        refine (ih intact₁ lawful₁ fun s id member => ?_).mono fun _ w' h =>
          ⟨h.1, frame.trans h.2.1, h.2.2⟩
        exact frame.settled _ s id (own s id (List.mem_cons_of_mem _ member))
      refine .bind ?_
      cases first with
      | connection s id =>
          obtain ⟨intact₁, routine⟩ := intact.cut fun k named =>
            (own s id List.mem_cons_self).property (intact.wired.sound s) named
          exact (ends_of_eq (p := release run (.connection s id)) rfl).mpr
            (onward ⟨intact₁, routine.toFrame, g.lasts routine.untouched lawful⟩)
      | client code =>
          exact Ends.mono (keeps_calm.mp (ending code) w intact lawful) fun _ w₁ h => onward h

/-- A controller that may have lost its last holder. -/
theorem collectController_calm {c : Nat} (sturdy : Sturdy torn w)
    (idle : ∀ b, b ≠ c → w.Idle b) (lawful : g.law w) :
    Ends (collectController run c) w fun _ w' => Intact torn w' ∧ Frame w w' ∧ g.law w' ∧
      (w.isControllerAlive c = false →
        ∀ s ∈ controllerSignals c, (w'.signal s).closed = true) := by
  cases dead : w.isControllerAlive c with
  | true =>
      have intact : Intact torn w := by
        refine ⟨sturdy, fun b => ?_⟩
        by_cases here : b = c
        · subst here
          intro gone
          rw [dead] at gone
          cases gone
        · exact idle b here
      exact (ends_of_eq (collectController_of_alive run dead)).mpr
        ⟨intact, .refl w, lawful, by simp⟩
  | false =>
      obtain ⟨left, leaving⟩ := leave_calm sturdy idle dead
      have own : ∀ s id, .connection s id ∈ (w.controller c).bindings → (leave c w).Own s id :=
        fun s id member => leaving.settled _ s id (sturdy.own c s id member)
      have bindings := releaseAll_own ending left (g.lasts leaving.untouched lawful) own
      intro r w' h
      rw [collectController_eq run sturdy.wired dead] at h
      obtain ⟨_, w₁, released, shut⟩ := bind_eq_some.mp h
      obtain ⟨intact, frame, lawful₁⟩ := bindings _ w₁ released
      cases shut
      have dropped : (w₁.controller c).held = false := by
        have gone := (leaving.toFrame.trans frame).dead dead
        simp only [isControllerAlive, Controller.isAlive, Bool.or_eq_false_iff] at gone
        exact gone.1
      obtain ⟨intact', shutting⟩ := intact.shutController dropped
      refine ⟨intact', (leaving.toFrame.trans frame).trans shutting.toFrame,
        g.lasts shutting.untouched lawful₁, fun _ s member => ?_⟩
      rw [signal_shutController, if_pos member]
      rfl

/-- A controller is held during something calm. -/
theorem holdingController_kept {α : Type} {p : Proc (Ensemble σ ε) α} (intact : Intact torn w)
    (lawful : g.law w) (c : Nat)
    (calm : let held := holders c (·.held) (·.pins + 1) w
      Intact torn held → g.law held → Ends p held fun _ w₂ => Kept g torn held w₂) :
    Ends (holdingController run c p) w fun _ w' => Kept g torn w w' := by
  intro r w₄ h
  obtain ⟨w₂, inner, collecting⟩ := holdingController_steps h
  have lawful₁ := g.lasts (untouched_holders w c (·.pins + 1) fun _ h => h) lawful
  obtain ⟨intact₂, bond, lawful₂⟩ := calm (intact.hold c) lawful₁ r w₂ inner
  have idle : ∀ b, b ≠ c → (holders c (·.held) (·.pins - 1) w₂).Idle b := fun b other =>
    (intact₂.idle b).of_bonds (congrArg _ (controller_holders_ne w₂ _ _ other))
  have sturdy := intact₂.toSturdy.holders c (·.held) (·.pins - 1) fun _ h => h
  have lawful₃ := g.lasts (untouched_holders w₂ c (·.pins - 1) fun _ h => h) lawful₂
  obtain ⟨intact₄, frame₄, lawful₄, shut⟩ :=
    collectController_calm ending sturdy idle lawful₃ _ w₄ collecting
  exact ⟨intact₄, g.around bond frame₄ shut, lawful₄⟩

theorem holdingController_calm {α : Type} {p : Proc (Ensemble σ ε) α}
    (calm : Keeps (Calm g torn) p) (c : Nat) :
    Keeps (Calm g torn) (holdingController run c p) :=
  keeps_calm.mpr fun _ intact lawful =>
    holdingController_kept ending intact lawful c (keeps_calm.mp calm _)

/-- The client gives up its handle of a controller. -/
theorem dropController_calm (c : Nat) : Keeps (Calm g torn) (dropController run c) := by
  refine keeps_calm.mpr fun w intact lawful => ?_
  refine .get_bind ?_
  split
  · next had =>
      refine .modify_bind ?_
      have sturdy := intact.toSturdy.holders c (fun _ => false) (·.pins) fun _ h => by cases h
      have idle : ∀ b, b ≠ c → (holders c (fun _ => false) (·.pins) w).Idle b := fun b other =>
        (intact.idle b).of_bonds (congrArg _ (controller_holders_ne w _ _ other))
      have lawful₁ : g.law (holders c (fun _ => false) (·.pins) w) :=
        g.lasts (untouched_holders w c (·.pins) fun _ h => by cases h) lawful
      refine (collectController_calm ending sturdy idle lawful₁).mono fun _ w' h => ?_
      obtain ⟨intact', frame, lawful', shut⟩ := h
      refine ⟨intact', g.of_frame (Frame.collected ?_ (fun b other => ?_) frame shut), lawful'⟩
      · exact Stay.holders c _ fun _ h => by cases h
      · refine .of_same ?_
        rw [isControllerAlive, controller_holders_ne w _ _ other]
        rfl
  · exact (ends_pure () w _).mpr ⟨intact, g.of_frame (.refl w), lawful⟩

end Ending

/-! ## Views -/

/-- A view changes, but neither its signals nor its link. -/
theorem Intact.updateView (intact : Intact torn w) (v : Nat) {f : View σ → View σ}
    (signals : ∀ o, (f o).userAction = o.userAction ∧ (f o).viewClosing = o.viewClosing ∧
      (f o).viewUpdate = o.viewUpdate)
    (attachment : ∀ o, (f o).attachment = o.attachment) :
    Intact torn (Ensemble.updateView v f w) ∧ Routine w (Ensemble.updateView v f w) :=
  intact.routine (signal_updateView w v signals) (fun _ => rfl) (fun _ => rfl)
    (blind_updateView w v f (·.attachment) attachment) fun _ _ waits => .inl waits

section Views

variable {g : Regime σ ε}

theorem calm_updateView (v : Nat) {f : View σ → View σ}
    (signals : ∀ o, (f o).userAction = o.userAction ∧ (f o).viewClosing = o.viewClosing ∧
      (f o).viewUpdate = o.viewUpdate)
    (attachment : ∀ o, (f o).attachment = o.attachment) (w : Ensemble σ ε) :
    Calm g torn w (updateView v f w) :=
  calm_of_routine fun intact => intact.updateView v signals attachment

theorem collectView_calm (run : Runner σ ε) (v : Nat) :
    Keeps (Calm g torn) (collectView run v) := by
  refine keeps_calm.mpr fun w intact lawful => ?_
  obtain ⟨intact', routine⟩ := intact.withoutView v
  exact (ends_of_eq (collectView_eq run (intact.wired.isConnection _))).mpr
    ⟨intact', g.of_frame routine.toFrame, g.lasts routine.untouched lawful⟩

/-- A view is held during something calm. -/
theorem holdingView_kept {run : Runner σ ε} {α : Type} {p : Proc (Ensemble σ ε) α}
    (intact : Intact torn w) (lawful : g.law w) (v : Nat)
    (calm : let held := updateView v (fun o => { o with pins := o.pins + 1 }) w
      Intact torn held → g.law held → Ends p held fun _ w₂ => Kept g torn held w₂) :
    Ends (holdingView run v p) w fun _ w' => Kept g torn w w' := by
  have pins : ∀ (f : View σ → Nat) (w : Ensemble σ ε),
      Calm g torn w (updateView v (fun o => { o with pins := f o }) w) := fun f w =>
    calm_updateView v (by exact fun _ => ⟨rfl, rfl, rfl⟩) (by exact fun _ => rfl) w
  have pinned := pins (·.pins + 1) w intact lawful
  refine Kept.bind ((ends_modify _ _ _).mpr ⟨pinned, ?_⟩)
  refine Kept.bind ((calm pinned.1 pinned.2.2).mono fun r w₂ kept => ⟨kept, ?_⟩)
  have unpinned := pins (·.pins - 1) w₂ kept.1 kept.2.2
  refine Kept.bind ((ends_modify _ _ _).mpr ⟨unpinned, ?_⟩)
  have collected := keeps_calm.mp (collectView_calm run v) _ unpinned.1 unpinned.2.2
  refine Kept.bind (collected.mono fun _ w₃ kept => ⟨kept, (ends_pure r w₃ _).mpr ?_⟩)
  exact ⟨kept.1, g.of_frame (.refl w₃), kept.2.2⟩

theorem holdingView_calm {run : Runner σ ε} {α : Type} {p : Proc (Ensemble σ ε) α}
    (calm : Keeps (Calm g torn) p) (v : Nat) : Keeps (Calm g torn) (holdingView run v p) :=
  keeps_calm.mpr fun _ intact lawful => holdingView_kept intact lawful v (keeps_calm.mp calm _)

theorem dropView_calm (run : Runner σ ε) (v : Nat) : Keeps (Calm g torn) (dropView run v) := by
  have order := calm_composes g torn
  refine (tracks_self _).mp (.bind order (.get order) fun w => .ite ?_ (.pure order ()))
  refine .bind order (.modify ?_) fun _ => (tracks_self _).mpr (collectView_calm run v)
  exact calm_updateView v (fun _ => ⟨rfl, rfl, rfl⟩) fun _ => rfl

end Views

end Mvc.Ensemble
