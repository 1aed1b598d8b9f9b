import Mvc.Proofs.Ledgers
import Mvc.Proofs.Showing

/-! # What is spared

While views close and the worker works, only the indicators are written, and neither the user nor
the theme. So what depends on no more than the service, on whether the application is started, and
on other properties, goes on to hold, if stopping leaves it (`Sparing.client`). This is known of
programs that hand on no user action; a task in the queue of the dispatcher may be one that does.
-/

namespace Mvc.App

open Ensemble Proc

variable {spared : List String} {I : Whole → Prop} {w w₁ w' : Whole} {depth : Nat}

/-- Rules for programs that spare some properties, the service, and whether the application is
    started. -/
def sparing (spared : List String) : Rules where
  writes name := name ∉ spared
  changes f := ∀ s, (f s).service = s.service ∧ (f s).started = s.started
  acts := False

/-- What holds goes on to hold, and nobody loses a handle. -/
def Minds (I : Whole → Prop) (w w' : Whole) : Prop := Held w → Held w' ∧ (I w → I w')

theorem minds_composes (I : Whole → Prop) : Composes (Minds I) where
  refl _ held := ⟨held, id⟩
  trans := by
    intro a b c first second held
    obtain ⟨held, on⟩ := first held
    obtain ⟨held, on'⟩ := second held
    exact ⟨held, on' ∘ on⟩

/-- Something depends on what is spared and on no more, and stopping leaves it. -/
structure Sparing (spared : List String) (I : Whole → Prop) : Prop where
  only : ∀ name ∈ spared, name ∉ indicators
  same : ∀ {w w' : Whole}, w'.client.service = w.client.service →
    w'.client.started = w.client.started →
    (∀ name ∈ spared, (properties w').get name = (properties w).get name) → I w → I w'
  stop : ∀ depth {w : Whole}, Held w → I w → Ends ((runs depth).client App.stop) w fun _ w' => I w'

/-- What spares the properties: what the rules allow, and closing. -/
def IsSparing (spared : List String) : Action Code State → Prop
  | .announceClosing _ => True
  | a => (sparing spared).Allow a

theorem isSparing_of_allow {a : Action Code State} (allowed : (sparing spared).Allow a) :
    IsSparing spared a := by
  cases a <;> first | exact allowed | exact allowed.elim

/-- What has to be known of calls before they can be nested deeper. -/
structure Careful (spared : List String) (I : Whole → Prop) (run : Runner Code State) : Prop where
  slot : ∀ slot notice, notice.isAction = false → Keeps (Minds I) (run (.slot slot notice))
  action : ∀ a, IsSparing spared a → Keeps (Minds I) (run (.action a))

namespace Sparing

variable (spares : Sparing spared I)
include spares

theorem lax : (sparing spared).Lax where
  writes name indicates member := spares.only name member indicates
  changes _ alike s := ⟨(alike s).service, (alike s).started⟩

theorem stop_minds (depth : Nat) : Keeps (Minds I) ((runs depth).client App.stop) :=
  fun w r w' ran held => ⟨(held_ledger.deals depth).stop w r w' ran held, fun holds =>
    spares.stop depth held holds r w' ran⟩

theorem minds (held : Held w → Held w') (client : w'.client.service = w.client.service ∧
      w'.client.started = w.client.started)
    (texts : ∀ name ∈ spared, (properties w').get name = (properties w).get name) :
    Minds I w w' := fun before =>
  ⟨held before, spares.same client.1 client.2 texts⟩

theorem minds_of_still (still : Still w w') (client : w'.client = w.client)
    (store : properties w' = properties w) : Minds I w w' :=
  spares.minds still.keepsHeld (client ▸ ⟨rfl, rfl⟩) fun _ _ => by rw [store]

section Calls

variable (careful : Careful spared I (runs depth))
include careful

omit spares in
theorem program {ρ : Type} {code : Program ρ} (all : code.All (sparing spared).Allow) :
    Keeps (Minds I) ((runs depth).client code) :=
  .program (minds_composes I) (fun a allowed => careful.action a (isSparing_of_allow allowed)) all

theorem onlooker : Onlooker (Minds I) False (runs depth) where
  order := minds_composes I
  slot slot notice quiet := careful.slot slot notice (eq_false_of_ne_true quiet)
  post w d t := spares.minds_of_still (.updateDispatcher d _) rfl rfl
  pins w c _ := spares.minds_of_still
    (.updateController c (fun _ => ⟨rfl, rfl, rfl⟩) (fun _ => rfl) fun _ => id) rfl rfl
  closing w c := spares.minds_of_still
    (.updateController c (fun _ => ⟨rfl, rfl, rfl⟩) (fun _ => rfl) fun _ _ => rfl) rfl rfl
  view w v _ _ := spares.minds_of_still
    (.updateView v (fun _ => ⟨rfl, rfl, rfl⟩) fun _ => ⟨rfl, rfl, rfl⟩) rfl rfl
  collectController c w r w' ran held := by
    rw [collectController_held held] at ran
    cases ran
    exact ⟨held, id⟩
  collectView v w r w' ran held := by
    rw [collectView_held held] at ran
    cases ran
    exact ⟨held, id⟩

theorem answers : Answers (Minds I) False behaviour (runs depth) where
  handles acts := acts.elim
  derive _ := program careful (deriveTitle_allowed spares.lax)
  dataChanged c := program careful (dataChanged_allowed c)
  updateRequested _ := .pure (minds_composes I) _
  closing _ := spares.stop_minds depth
  display v := program careful (display_allowed (fun _ _ _ => ⟨rfl, rfl⟩) v)
  showError v _ := program careful (print_allowed spares.lax v rfl)
  showInfo v _ := program careful (print_allowed spares.lax v rfl)
  slot code notice := program careful (slot_allowed spares.lax code notice)

/-- What follows the write of a property. -/
theorem announce (name : String) (value : Value) : Keeps (Minds I) (do
    (runs depth).client (App.afterSet name value)
    Ensemble.emit (runs depth) (.modelProperty model) (.property name value)
    Ensemble.emit (runs depth) (.modelData model) .dataChanged
    return SetOutcome.changed) := by
  have o := spares.onlooker careful
  refine .bind o.order (program careful (afterSet_allowed name value)) fun _ => ?_
  refine .bind o.order (o.emit _ _ nofun) fun _ => .bind o.order (o.emit _ _ nofun) fun _ => ?_
  exact .pure o.order _

theorem emitValidity : Keeps (Minds I) (emitValidity (runs depth) behaviour model) :=
  .look fun _ => (spares.onlooker careful).emit _ _ nofun

omit careful in
theorem updateStore_minds {name : String} (other : name ∉ spared) (value : Value) (w : Whole) :
    Minds I w (updateStore model (·.write name value) w) := by
  have still : Still w (updateStore model (·.write name value) w) :=
    .updateModel model fun _ => ⟨rfl, rfl, rfl⟩
  refine spares.minds still.keepsHeld ⟨rfl, rfl⟩ fun n member => ?_
  have apart : n ≠ name := fun same => other (same ▸ member)
  rw [properties, updateStore, model_updateModel, if_pos rfl, Store.get_write, if_neg apart]
  rfl

theorem setProperty {name : String} (other : name ∉ spared) (value : Value) :
    Keeps (Minds I) (setProperty (runs depth) behaviour model name value) := by
  have o := spares.onlooker careful
  have written : Keeps (Minds I) (write (runs depth) behaviour model true name value) := by
    refine .bind o.order (.pure o.order _) fun accepted => .ite (.pure o.order _) ?_
    refine .look fun w => .ite (.pure o.order _) ?_
    refine .bind o.order (.modify fun w => spares.updateStore_minds other value w) fun _ => ?_
    exact spares.announce careful name value
  refine .bind o.order written fun outcome => ?_
  cases outcome with
  | changed => exact .bind o.order (spares.emitValidity careful) fun _ => .pure o.order _
  | unchanged | rejected => exact .pure o.order _

theorem performAction (fuel : Nat) {a : Action Code State} (allowed : IsSparing spared a) :
    Keeps (Minds I) (performAction (runs depth) behaviour fuel a) := by
  have o := spares.onlooker careful
  have passing := o.performAction (spares.answers careful) fuel (a := a)
  cases a with
  | emit s notice => exact passing rfl allowed
  | refresh | reportError | reportDone | announceClosing | finishUpdate => exact passing rfl nofun
  | setProperty m name value =>
      obtain ⟨rfl, other⟩ := allowed
      exact spares.setProperty careful other value
  | change f =>
      exact .modify fun w =>
        spares.minds (fun held => ⟨held.controllers, held.views⟩) (allowed w.client) fun _ _ => rfl
  | post d code => exact .modify fun w => o.post w d _
  | enable v enabled =>
      exact .modify fun w => spares.minds_of_still
        (.updateView v (fun _ => ⟨rfl, rfl, rfl⟩) fun _ => ⟨rfl, rfl, rfl⟩) rfl rfl
  | report | perform => exact (allowed : False).elim
  | inBackground a => exact allowed.1.elim
  | _ => exact allowed.elim

end Calls

/-- However deep calls nest, what is spared is left alone. -/
theorem careful (depth : Nat) : Careful spared I (runs depth) := by
  induction depth with
  | zero =>
      -- No call has a result.
      exact {
        slot := fun _ _ _ _ _ _ ran => nomatch ran
        action := fun _ _ _ _ _ ran => nomatch ran }
  | succ depth ih =>
      have o := spares.onlooker ih
      refine ⟨fun slot notice quiet => ?_, fun a allowed => spares.performAction ih depth allowed⟩
      exact o.serve (spares.answers ih) slot notice fun act => by simp [quiet] at act

theorem client {ρ : Type} (depth : Nat) {code : Program ρ}
    (all : code.All (sparing spared).Allow) : Keeps (Minds I) ((runs depth).client code) :=
  program (spares.careful depth) all

/-- What a write brings about and nobody minds holds when the write is over. -/
theorem set_ends {name : String} {value : Value} (held : Held w)
    (accepted : accepts name value = true) (same : (properties w).get name = value → I w)
    (written : I (updateStore model (·.write name value) w)) (depth : Nat) :
    Ends ((runs depth).client (set name value)) w fun r w' => r ≠ .rejected ∧ Held w' ∧ I w' := by
  refine ends_perform ?_
  cases depth with
  | zero => exact fun _ _ ran => nomatch ran
  | succ depth =>
      have careful := spares.careful depth
      have stored : Ends (write (runs depth) behaviour model true name value) w
          fun r w' => r ≠ .rejected ∧ Held w' ∧ I w' := by
        refine .bind_of_eq (show _ = some (accepts name value, w) from rfl) ?_
        rw [accepted]
        refine .get_bind ?_
        dsimp only
        split
        · next old => exact (ends_pure _ _ _).mpr ⟨nofun, held, same (eq_of_beq old)⟩
        · have still : Still w (updateStore model (·.write name value) w) :=
            .updateModel model fun _ => ⟨rfl, rfl, rfl⟩
          have changed : Ends (do
              (runs depth).client (App.afterSet name value)
              Ensemble.emit (runs depth) (.modelProperty model) (.property name value)
              Ensemble.emit (runs depth) (.modelData model) .dataChanged
              return SetOutcome.changed) (updateStore model (·.write name value) w)
              fun r _ => r = .changed :=
            .bind fun _ _ _ => .bind fun _ _ _ => .bind fun _ _ _ => (ends_pure _ _ _).mpr rfl
          have kept := spares.announce careful name value (updateStore model (·.write name value) w)
          refine .modify_bind ((changed.and kept).mono ?_)
          rintro _ w' ⟨rfl, minds⟩
          obtain ⟨held', on⟩ := minds (still.keepsHeld held)
          exact ⟨nofun, held', on written⟩
      refine .bind (stored.mono fun outcome w₁ holds => ?_)
      cases outcome with
      | changed =>
          refine .bind ((spares.emitValidity careful w₁).mono fun _ w' minds => ?_)
          obtain ⟨held', on⟩ := minds holds.2.1
          exact (ends_pure _ _ _).mpr ⟨nofun, held', on holds.2.2⟩
      | unchanged | rejected => exact (ends_pure _ _ _).mpr holds

/-- So what holds goes on to hold while views close, the application stops and the worker
    works. -/
theorem tends (depth : Nat) : Tends (sparing spared) (Minds I) (runs depth) where
  order := minds_composes I
  program := spares.client depth
  stop := spares.stop_minds depth
  close v := (spares.careful depth).action (.announceClosing v) trivial
  thread _ thread := spares.minds_of_still (.setThread thread) rfl rfl

end Sparing

end Mvc.App
