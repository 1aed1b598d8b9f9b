import Mvc.Proofs.Closing

/-! # Closed sessions

A controller whose view has announced closing takes no actions: each is answered by one error.
If nothing is bound from inside, this ends only where the controller is bound otherwise. As
long as no other view is bound to it, it ends exactly where its view is taken away from it, for
that ends the closing phase as well as another view does.
-/

namespace Mvc

variable {σ ε : Type}

/-- The view that an action binds to a controller, if it binds one or none to it. -/
def Action.viewFor (c : Nat) : Action σ ε → Option (Option Nat)
  | .setView b v => if b = c then some v else none
  | .inBackground a => a.viewFor c
  | _ => none

namespace Ensemble

open Proc

/-- Every announcement counts. -/
abbrev anyone : Nat → Nat → Bool := fun _ _ => true

/-- What may be done from outside: binding what is still there, and traffic in which only views
    announce that they close. -/
def allows (w : Ensemble σ ε) : Action σ ε → Bool
  | .inBackground a => w.allows a
  | a => w.rebinds anyone a

/-- A step from outside that binds nothing from inside. -/
def Step (β : Behaviour σ ε) (w : Ensemble σ ε) (a : Action σ ε) (w' : Ensemble σ ε) : Prop :=
  w.allows a = true ∧ ∃ depth r, act β depth (quietly anyone) a w = some (r, w')

/-- What steps lead to from new objects on. -/
inductive Reached (β : Behaviour σ ε) : Ensemble σ ε → Prop where
  | start {w} (fresh : Fresh w) : Reached β w
  | step {w w'} {a : Action σ ε} (reached : Reached β w) (step : Step β w a w') : Reached β w'

/-- One step after the other, each with the state that it leads to. -/
def Trail (β : Behaviour σ ε) (w : Ensemble σ ε) : List (Action σ ε × Ensemble σ ε) → Prop
  | [] => True
  | (a, w') :: rest => Step β w a w' ∧ Trail β w' rest

/-- A controller is closing, and is answered by an error whatever it is asked. -/
structure Shut (β : Behaviour σ ε) (w : Ensemble σ ε) (c : Nat) : Prop where
  phase : (w.controller c).phase = .viewClosing
  invalid : isControllerValid β w c = false
  /-- When it is asked directly. -/
  asked : ∀ run fuel name data, performAction run β fuel (.handleAction c name data) w =
    holdingController run c (emit run (.controllerError c) (.text notInitialized)) w
  /-- When it hears of an action by its view. -/
  served : ∀ run name data, serve run β (.controllerAction c) (.action name data) w =
    ifControllerAlive run c (emit run (.controllerError c) (.text notInitialized)) w

variable {β : Behaviour σ ε} {run : Runner σ ε} {w w' w'' : Ensemble σ ε} {c : Nat}

/-! ## Actions that are not taken -/

theorem handleAction_of_closing (closing : (w.controller c).closing = true) (name : String)
    (data : Value) : handleAction run β c name data w =
      emit run (.controllerError c) (.text notInitialized) w := by
  have phase := Controller.phase_eq_viewClosing.mpr closing
  unfold handleAction
  rw [get_bind, if_pos (by rw [phase]; decide)]
  rfl

theorem holdingController_congr {α : Type} {p q : Proc (Ensemble σ ε) α}
    (same : p (holders c (·.held) (·.pins + 1) w) = q (holders c (·.held) (·.pins + 1) w)) :
    holdingController run c p w = holdingController run c q w := by
  unfold holdingController
  rw [modify_bind, modify_bind]
  show (p (holders c (·.held) (·.pins + 1) w)).bind _ = (q _).bind _
  rw [same]
  rfl

theorem shut_iff : Shut β w c ↔ (w.controller c).closing = true := by
  constructor
  · exact fun shut => Controller.phase_eq_viewClosing.mp shut.phase
  · intro closing
    have phase := Controller.phase_eq_viewClosing.mpr closing
    have held : ((holders c (·.held) (·.pins + 1) w).controller c).closing = true := by
      rw [blind_holders w c _ _ (·.closing) fun _ _ _ => rfl, closing]
    refine ⟨phase, by simp [isControllerValid, phase], fun run fuel name data => ?_,
      fun run name data => ?_⟩
    · exact holdingController_congr (handleAction_of_closing held name data)
    · show ifControllerAlive run c (handleAction run β c name data) w = _
      unfold ifControllerAlive
      rw [get_bind, get_bind]
      split
      · exact holdingController_congr (handleAction_of_closing held name data)
      · rfl

/-! ## Who keeps a view -/

/-- A controller does not stop closing, and keeps its view if it is still held. -/
structure Persists (c : Nat) (w w' : Ensemble σ ε) : Prop where
  closing : (w.controller c).closing = true → (w'.controller c).closing = true
  view : (w'.controller c).held = true →
    (w.controller c).held = true ∧ (w'.controller c).view = (w.controller c).view
  settled : StaySettled w w'

theorem Persists.trans (first : Persists c w w') (second : Persists c w' w'') :
    Persists c w w'' where
  closing h := second.closing (first.closing h)
  view h := by
    obtain ⟨held, view⟩ := second.view h
    obtain ⟨held', view'⟩ := first.view held
    exact ⟨held', view.trans view'⟩
  settled P s id h := second.settled P s id (first.settled P s id h)

theorem Persists.of_untouched (untouched : Untouched w w') : Persists c w w' :=
  ⟨fun h => (untouched.phases c).trans h, untouched.views c, untouched.settled⟩

theorem Persists.of_frame (frame : Frame w w') : Persists c w w' := by
  refine ⟨frame.closing c, fun h => ⟨frame.held c h, ?_⟩, frame.settled⟩
  refine ((frame.bonds c).resolve_right fun taken => ?_).2.1
  simp [isControllerAlive, Controller.isAlive, h] at taken

/-- The law, where a controller keeps its view. -/
def lasting (c : Nat) : Regime σ ε where
  law := Heeded anyone
  bond := Persists c
  lasts untouched heeded := heeded.untouched untouched
  of_frame := Persists.of_frame
  trans := Persists.trans
  settled persists := persists.settled
  around := by
    intro b w w₂ w' bond frame _
    have held := untouched_holders w b (·.pins + 1) fun _ h => h
    have left := untouched_holders w₂ b (·.pins - 1) fun _ h => h
    exact ((Persists.of_untouched held).trans bond).trans
      ((Persists.of_untouched left).trans (.of_frame frame))

theorem persists_tearView {b : Nat} (other : c ≠ b) (v : Option Nat) (w : Ensemble σ ε) :
    Persists c w (tearView b v w) := by
  have same := controller_updateController_ne w b (rebindView v) other
  refine Persists.trans ⟨fun h => ?_, fun h => ?_, fun P s id h => ?_⟩
    (.of_untouched (untouched_cutAll _ _))
  · rwa [same]
  · rw [same] at h ⊢
    exact ⟨h, rfl⟩
  · rwa [signal_updateController w b (by exact fun _ => ⟨rfl, rfl, rfl⟩)]

/-! ## Steps -/

theorem allows_thread (w : Ensemble σ ε) (thread : Thread) (a : Action σ ε) :
    allows { w with thread } a = w.allows a := by
  induction a with
  | inBackground a ih => exact ih
  | setModel | setView => rfl
  | emit s notice => cases s <;> rfl
  | handleClosing | announceClosing => rfl
  | _ =>
      simp only [allows, rebinds, heeds]
      exact traffic_thread w thread _

section Steps

variable {depth : Nat}

/-- What may be done from outside is done under every regime with this law, if leaving a view
    does not break the bond. -/
theorem act_kept {g : Regime σ ε} (law : ∀ w, g.law w ↔ Heeded anyone w)
    (loose : ∀ {w w'}, Untouched w w' → g.bond w w') (own : BindsOwn β) {a : Action σ ε}
    {r : a.Result} (intact : Intact none w) (lawful : g.law w) (allowed : w.allows a = true)
    (tears : ∀ b v, a.viewFor b = some v → (w.controller b).view ≠ v → ∀ w₁ : Ensemble σ ε,
      (∀ b, (w₁.controller b).view = (w.controller b).view) → g.bond w₁ (tearView b v w₁))
    (h : act β depth (quietly anyone) a w = some (r, w')) : Kept g none w w' := by
  have calls : ∀ call w, Due anyone w call →
      Ends (runUnder β depth (quietly anyone) call) w fun _ w' => Calm g none w w' :=
    calm_of_quietly law own depth
  have ending : ∀ torn code, Keeps (Calm g.framed torn)
      (runUnder β depth (quietly anyone) (.subscription code)) :=
    fun torn code w => calm_of_quietly (g := g.framed) law own depth (.subscription code) w trivial
  have k := keeper_heeded law calls (ending none) (own.runUnder depth (quietly anyone))
  have leaving := fun {w} => leaving_of_heeded (w := w) law
  induction a generalizing w w' with
  | inBackground a ih =>
      obtain ⟨_, w₁, started, h⟩ := bind_eq_some.mp h
      cases started
      rw [modify_bind] at h
      obtain ⟨r₂, w₂, called, h⟩ := bind_eq_some.mp h
      cases h
      have first := Kept.of_routine lawful (intact.thread .background)
      have allowed' := (allows_thread w .background a).trans allowed
      have inner := ih first.1 first.2.2 allowed' tears called
      exact (first.trans inner).trans (.of_routine inner.2.2 (inner.1.thread w.thread))
  | setModel b m =>
      exact bind_kept leaving loose ending k intact lawful allowed rfl (fun _ _ same => by cases same)
        r w' h
  | setView b v =>
      refine bind_kept leaving loose ending k intact lawful allowed rfl
        (fun b' v' same other => ?_) r w' h
      cases same
      exact tears b v (by simp [Action.viewFor]) other
  | _ =>
      refine performAction_kept law calls (ending none) k intact lawful ?_ r w' h
      exact allowed

/-- What binds no other view to a controller lets it keep the view that it has. -/
theorem act_persists (own : BindsOwn β) {a : Action σ ε} {r : a.Result} (intact : Intact none w)
    (heeded : Heeded anyone w) (allowed : w.allows a = true)
    (spared : ∀ v, a.viewFor c = some v → (w.controller c).view = v)
    (h : act β depth (quietly anyone) a w = some (r, w')) : Persists c w w' := by
  refine (act_kept (g := lasting c) (fun _ => .rfl) Persists.of_untouched own intact heeded allowed
    (fun b v binds other w₁ _ => persists_tearView ?_ v w₁) h).2.1
  rintro rfl
  exact other (spared v binds)

/-- What takes a controller's view away leaves it without one. -/
theorem act_leaves (own : BindsOwn β) {a : Action σ ε} {r : a.Result} (intact : Intact none w)
    (heeded : Heeded anyone w) (leaves : a.viewFor c = some none)
    (bound : (w.controller c).view ≠ none)
    (h : act β depth (quietly anyone) a w = some (r, w')) : (w'.controller c).view = none := by
  have ending : ∀ torn code, Keeps (Calm (heeding anyone).framed torn)
      (runUnder β depth (quietly anyone) (.subscription code)) :=
    fun torn code w => quietly_calm own depth (.subscription code) w trivial
  have k := keeper_heeded (fun _ => .rfl) (quietly_calm own depth) (ending none)
    (own.runUnder depth (quietly anyone))
  induction a generalizing w w' with
  | inBackground a ih =>
      obtain ⟨_, w₁, started, h⟩ := bind_eq_some.mp h
      cases started
      rw [modify_bind] at h
      obtain ⟨r₂, w₂, called, h⟩ := bind_eq_some.mp h
      cases h
      obtain ⟨intact₁, routine⟩ := intact.thread .background
      have gone := ih intact₁ (heeded.untouched routine.untouched) leaves bound called
      exact gone
  | setView b v =>
      simp only [Action.viewFor] at leaves
      split at leaves
      · next same =>
          cases leaves
          subst same
          obtain ⟨w₂, called, collecting⟩ := holdingController_steps h
          have view : ((holders b (·.held) (·.pins + 1) w).controller b).view =
              (w.controller b).view := blind_holders w b _ _ (·.view) (fun _ _ _ => rfl) b
          have held := untouched_holders w b (·.pins + 1) fun _ h => h
          have freed := (heeded.untouched (held.trans (untouched_holdOld
            ((holders b (·.held) (·.pins + 1) w).controller b).view _))).tearView b none
          obtain ⟨w₁, intact₁, -, gone, lawful₁, tied, joined, announced⟩ := setView_steps
            (g := (heeding anyone).framed) (ending (some (.view b))) (intact.hold b) freed
            (by simp [holders]) (fun _ same => by cases same) (view ▸ bound) called
          have still : ((joinView b none (leaveOld b ((holders b (·.held) (·.pins + 1) w).controller
              b).view w₁)).controller b).view = none :=
            (Controller.bonds_eq.mp (bonds_leaveOld b _ w₁ b)).2.2.2.2.1.trans gone
          have calm := (Tracks.bind k.order (k.rebindIfReady b) fun _ => k.emitPhase b).keeps
          obtain ⟨intact₂, frame, heeded₂⟩ := calm _ r w₂ announced tied
            (Heeded.untouched lawful₁ joined)
          have left : ((holders b (·.held) (·.pins - 1) w₂).controller b).view = none :=
            (blind_holders w₂ b _ _ (·.view) (fun _ _ _ => rfl) b).trans (frame.viewless still)
          have idle : ∀ i, i ≠ b → (holders b (·.held) (·.pins - 1) w₂).Idle i := fun i other =>
            (intact₂.idle i).of_bonds (congrArg _ (controller_holders_ne w₂ _ _ other))
          obtain ⟨-, collected, -⟩ := collectController_calm (ending none)
            (intact₂.toSturdy.holders b (·.held) (·.pins - 1) fun _ h => h) idle
            (Heeded.untouched heeded₂ (untouched_holders w₂ b (·.pins - 1) fun _ h => h)) _ w'
            collecting
          exact collected.viewless left
      · cases leaves
  | _ => cases leaves

end Steps

/-! ## Runs -/

theorem Step.heeded {a : Action σ ε} (own : BindsOwn β) (step : Step β w a w')
    (intact : Intact none w) (heeded : Heeded anyone w) : Intact none w' ∧ Heeded anyone w' := by
  obtain ⟨allowed, depth, r, done⟩ := step
  obtain ⟨intact', -, heeded'⟩ := act_kept (g := heeding anyone) (fun _ => .rfl)
    (fun untouched => untouched.settled) own intact heeded allowed
    (fun b v _ _ w₁ _ => settled_tearView b v w₁) done
  exact ⟨intact', heeded'⟩

theorem Reached.heeded (own : BindsOwn β) (reached : Reached β w) :
    Intact none w ∧ Heeded anyone w := by
  induction reached with
  | start fresh => exact ⟨fresh.intact, fresh.heeded⟩
  | step _ step ih => exact step.heeded own ih.1 ih.2

/-- As long as no other view is bound to it, a controller that closes and is held stays closed
    after every step if and only if no step takes its view away. -/
theorem shut_iff_not_left (own : BindsOwn β) {v : Nat} (reached : Reached β w)
    (closing : (w.controller c).phase = .viewClosing) (bound : (w.controller c).view = some v)
    {steps : List (Action σ ε × Ensemble σ ε)} (trail : Trail β w steps)
    (held : ∀ step ∈ steps, (step.2.controller c).held = true)
    (same : ∀ step ∈ steps, ∀ u, step.1.viewFor c = some (some u) → u = v) :
    (∀ step ∈ steps, Shut β step.2 c) ↔ ∀ step ∈ steps, step.1.viewFor c ≠ some none := by
  obtain ⟨intact, heeded⟩ := reached.heeded own
  replace closing := Controller.phase_eq_viewClosing.mp closing
  clear reached
  induction steps generalizing w with
  | nil => simp
  | cons step rest ih =>
      obtain ⟨a, w₁⟩ := step
      obtain ⟨step, trail⟩ := trail
      rw [List.forall_mem_cons] at held same
      obtain ⟨intact₁, heeded₁⟩ := step.heeded own intact heeded
      obtain ⟨allowed, depth, r, done⟩ := step
      rw [List.forall_mem_cons, List.forall_mem_cons]
      by_cases leaves : a.viewFor c = some none
      · -- Without a view, the controller cannot have been warned of any.
        have gone := act_leaves own intact heeded leaves (by simp [bound]) done
        refine ⟨fun shut => ?_, fun stays => absurd leaves stays.1⟩
        obtain ⟨u, warned, -⟩ := heeded₁.phases c held.1 (shut_iff.mp shut.1)
        rw [gone] at warned
        cases warned
      · have spared : ∀ x, a.viewFor c = some x → (w.controller c).view = x := by
          intro x binds
          cases x with
          | none => exact absurd binds leaves
          | some u => rw [bound, same.1 u binds]
        have persists := act_persists own intact heeded allowed spared done
        have closing₁ := persists.closing closing
        have bound₁ := (persists.view held.1).2.trans bound
        have onward := ih bound₁ trail held.2 same.2 intact₁ heeded₁ closing₁
        exact ⟨fun shut => ⟨leaves, onward.mp shut.2⟩,
          fun stays => ⟨shut_iff.mpr closing₁, onward.mpr stays.2⟩⟩

/-! ## A closed session -/

theorem Reached.next (reached : Reached β w) (depth : Nat) (a : Action σ ε)
    (allowed : w.allows a = true)
    (ends : (act β depth (quietly anyone) a w).isSome = true) :
    Reached β ((act β depth (quietly anyone) a w).get ends).2 :=
  reached.step ⟨allowed, depth, _, (Option.some_get ends).symm⟩

theorem step_next (depth : Nat) (a : Action σ ε) (allowed : w.allows a = true)
    (ends : (act β depth (quietly anyone) a w).isSome = true) :
    Step β w a ((act β depth (quietly anyone) a w).get ends).2 :=
  ⟨allowed, depth, _, (Option.some_get ends).symm⟩

/-- The view 0 of an initialized controller closes, and is then bound again, or taken away and
    bound again. -/
theorem exists_closed_session : ∃ w kept left back : Ensemble Unit Unit,
    Reached Behaviour.plain w ∧ (w.controller 0).phase = .viewClosing ∧
      (w.controller 0).view = some 0 ∧
      (Step Behaviour.plain w (.setView 0 (some 0)) kept ∧ (kept.controller 0).held = true) ∧
      (Step Behaviour.plain w (.setView 0 none) left ∧ (left.controller 0).phase = .initialized) ∧
      Step Behaviour.plain left (.setView 0 (some 0)) back ∧
      isControllerValid Behaviour.plain back 0 = true := by
  have start : Reached (Behaviour.plain : Behaviour Unit Unit) (new ()) := .start (fresh_new ())
  have model := start.next 2 (.setModel 0 (some 0)) (by decide +kernel)
    (by decide +kernel)
  have view := model.next 2 (.setView 0 (some 0)) (by decide +kernel)
    (by decide +kernel)
  have ready := view.next 3 (.initializeController 0) (by decide +kernel)
    (by decide +kernel)
  have closed := ready.next 4 (.announceClosing 0) (by decide +kernel)
    (by decide +kernel)
  refine ⟨_, _, _, _, closed, by decide +kernel, by decide +kernel,
    ⟨step_next 2 (.setView 0 (some 0)) (by decide +kernel) (by decide +kernel), by decide +kernel⟩,
    ⟨step_next 2 (.setView 0 none) (by decide +kernel) (by decide +kernel), by decide +kernel⟩,
    step_next 2 (.setView 0 (some 0)) (by decide +kernel) (by decide +kernel), by decide +kernel⟩

/-- Binding the closed view again changes nothing. -/
theorem shut_of_same_view : ∃ w kept : Ensemble Unit Unit, Reached Behaviour.plain w ∧
    Step Behaviour.plain w (.setView 0 (some 0)) kept ∧ Shut Behaviour.plain kept 0 := by
  obtain ⟨w, kept, -, -, reached, closing, bound, ⟨step, held⟩, -⟩ := exists_closed_session
  have trail : Trail Behaviour.plain w [(.setView 0 (some 0), kept)] := ⟨step, trivial⟩
  have shut := (shut_iff_not_left bindsOwn_plain reached closing bound trail (by simp [held])
    (by simp [Action.viewFor])).mpr (by simp [Action.viewFor])
  exact ⟨w, kept, reached, step, shut _ List.mem_cons_self⟩

/-- Without its view the controller takes actions again, and so it does with the closed view
    bound once more. -/
theorem open_of_left_view : ∃ w left back : Ensemble Unit Unit, Reached Behaviour.plain w ∧
    (w.controller 0).phase = .viewClosing ∧ (w.controller 0).view = some 0 ∧
      Step Behaviour.plain w (.setView 0 none) left ∧ (left.controller 0).phase = .initialized ∧
      Step Behaviour.plain left (.setView 0 (some 0)) back ∧
      isControllerValid Behaviour.plain back 0 = true := by
  obtain ⟨w, -, left, back, reached, closing, bound, -, ⟨taken, reopened⟩, again, valid⟩ :=
    exists_closed_session
  exact ⟨w, left, back, reached, closing, bound, taken, reopened, again, valid⟩

end Ensemble

end Mvc
