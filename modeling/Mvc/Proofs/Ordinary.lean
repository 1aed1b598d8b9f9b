import Mvc.Proofs.Discipline

/-! # Runs under a discipline are ordinary runs

A runner covers another if every result of the other is a result of its own. Operations that
are given a covering runner have every result that they had. So a run under a discipline is a
run, and what is shown for the runs that keep a discipline is shown for runs.
-/

namespace Mvc.Ensemble

open Proc

variable {σ ε : Type}

/-- Nothing is asked of the states before and after. -/
abbrev Anyhow : Ensemble σ ε → Ensemble σ ε → Prop := fun _ _ => True

theorem anyhow_composes : Composes (Anyhow (σ := σ) (ε := ε)) :=
  ⟨fun _ => trivial, fun _ _ => trivial⟩

/-- The second runner has every result of the first. -/
def Covers (run run' : Runner σ ε) : Prop := ∀ call, Tracks Anyhow (run call) (run' call)

theorem covers_self (run : Runner σ ε) : Covers run run :=
  fun _ => (tracks_self _).mpr fun _ _ _ _ => trivial

namespace Covers

variable {run run' : Runner σ ε} (covers : Covers run run')
include covers

theorem releaseAll (subscriptions : List (Subscription σ)) :
    Tracks Anyhow (releaseAll run subscriptions) (releaseAll run' subscriptions) := by
  induction subscriptions with
  | nil => exact .pure anyhow_composes ()
  | cons first rest ih =>
      refine .bind anyhow_composes ?_ fun _ => ih
      cases first with
      | connection s id => exact (tracks_self _).mpr fun _ _ _ _ => trivial
      | client code => exact covers _

theorem emit (s : SignalRef) (notice : Notice) :
    Tracks Anyhow (emit run s notice) (emit run' s notice) :=
  emit_tracks anyhow_composes s notice (fun _ => covers _) fun _ _ _ => trivial

theorem client {ρ : Type} (code : Client σ ε ρ) :
    Tracks Anyhow (run.client code) (run'.client code) :=
  .program anyhow_composes (fun a => covers (.action a)) code

/-! ## Lifetimes -/

theorem collectView (v : Nat) : Tracks Anyhow (collectView run v) (collectView run' v) := by
  refine .bind anyhow_composes (.get anyhow_composes) fun w => ?_
  refine .ite (.pure anyhow_composes ()) ?_
  exact .bind anyhow_composes (.modify fun _ => trivial) fun _ => covers.releaseAll _

theorem collectController (c : Nat) :
    Tracks Anyhow (collectController run c) (collectController run' c) := by
  refine .bind anyhow_composes (.get anyhow_composes) fun w => ?_
  refine .ite (.pure anyhow_composes ()) ?_
  refine .bind anyhow_composes (.modify fun _ => trivial) fun _ => ?_
  cases (w.controller c).view with
  | some v =>
      refine .bind anyhow_composes (covers.collectView v) fun _ => ?_
      exact .bind anyhow_composes (covers.releaseAll _) fun _ => .modify fun _ => trivial
  | none => exact .bind anyhow_composes (covers.releaseAll _) fun _ => .modify fun _ => trivial

theorem holdingController {α : Type} (c : Nat) {p q : Proc (Ensemble σ ε) α}
    (tracks : Tracks Anyhow p q) :
    Tracks Anyhow (holdingController run c p) (holdingController run' c q) := by
  refine .bind anyhow_composes (.modify fun _ => trivial) fun _ => ?_
  refine .bind anyhow_composes tracks fun r => ?_
  refine .bind anyhow_composes (.modify fun _ => trivial) fun _ => ?_
  exact .bind anyhow_composes (covers.collectController c) fun _ => .pure anyhow_composes r

theorem holdingView {α : Type} (v : Nat) {p q : Proc (Ensemble σ ε) α}
    (tracks : Tracks Anyhow p q) :
    Tracks Anyhow (holdingView run v p) (holdingView run' v q) := by
  refine .bind anyhow_composes (.modify fun _ => trivial) fun _ => ?_
  refine .bind anyhow_composes tracks fun r => ?_
  refine .bind anyhow_composes (.modify fun _ => trivial) fun _ => ?_
  exact .bind anyhow_composes (covers.collectView v) fun _ => .pure anyhow_composes r

theorem holdingView? {α : Type} (v : Option Nat) {p q : Proc (Ensemble σ ε) α}
    (tracks : Tracks Anyhow p q) :
    Tracks Anyhow (holdingView? run v p) (holdingView? run' v q) := by
  cases v with
  | some v => exact covers.holdingView v tracks
  | none => exact tracks

theorem dropController (c : Nat) :
    Tracks Anyhow (dropController run c) (dropController run' c) := by
  refine .bind anyhow_composes (.get anyhow_composes) fun w => ?_
  refine .ite ?_ (.pure anyhow_composes ())
  exact .bind anyhow_composes (.modify fun _ => trivial) fun _ => covers.collectController c

theorem dropView (v : Nat) : Tracks Anyhow (dropView run v) (dropView run' v) := by
  refine .bind anyhow_composes (.get anyhow_composes) fun w => ?_
  refine .ite ?_ (.pure anyhow_composes ())
  exact .bind anyhow_composes (.modify fun _ => trivial) fun _ => covers.collectView v

/-! ## Binding -/

theorem bindings (β : Behaviour σ ε) (c : Nat) :
    Tracks Anyhow (establishBindings run β c) (establishBindings run' β c) := by
  refine .bind anyhow_composes (covers.client _) fun _ => ?_
  refine .bind anyhow_composes (.get anyhow_composes) fun w => ?_
  exact .bind anyhow_composes (.modify fun _ => trivial) fun _ => covers.releaseAll _

theorem keeper (β : Behaviour σ ε) : Keeper Anyhow β run run' where
  order := anyhow_composes
  action a := covers (.action a)
  drain d fuel :=
    drain_tracks anyhow_composes (fun t => covers (.task t)) (fun _ _ _ => trivial) d fuel
  emit s notice _ := covers.emit s notice
  thread _ _ := trivial
  post _ _ _ := trivial
  model _ _ _ _ := trivial
  view _ _ _ _ := trivial
  initialized _ _ := trivial
  bindings c := covers.bindings β c
  holdingController c _ _ tracks := covers.holdingController c tracks
  holdingView v _ _ tracks := covers.holdingView v tracks

theorem attach (v : Nat) (c : Option Nat) :
    Tracks Anyhow (attach run v c) (attach run' v c) := by
  refine .bind anyhow_composes (.get anyhow_composes) fun w => ?_
  refine .ite (.pure anyhow_composes ()) ?_
  refine .bind anyhow_composes (.modify fun _ => trivial) fun _ => ?_
  refine .bind anyhow_composes (covers.releaseAll _) fun _ => ?_
  exact (tracks_self _).mpr fun _ _ _ _ => trivial

theorem setModel (β : Behaviour σ ε) (c : Nat) (m : Option Nat) :
    Tracks Anyhow (setModel run β c m) (setModel run' β c m) := by
  refine .bind anyhow_composes (.get anyhow_composes) fun w => ?_
  refine .ite (.pure anyhow_composes ()) ?_
  refine .bind anyhow_composes (.modify fun _ => trivial) fun _ => ?_
  refine .bind anyhow_composes (covers.releaseAll _) fun _ => ?_
  refine .bind anyhow_composes (covers.releaseAll _) fun _ => ?_
  have announced : Tracks Anyhow
      (do rebindIfReady run β c; emitPhase run c) (do rebindIfReady run' β c; emitPhase run' c) :=
    .bind anyhow_composes ((covers.keeper β).rebindIfReady c) fun _ =>
      (covers.keeper β).emitPhase c
  cases m with
  | none => exact announced
  | some m =>
      refine .bind anyhow_composes ((tracks_self _).mpr fun _ _ _ _ => trivial) fun _ => ?_
      refine .bind anyhow_composes (.get anyhow_composes) fun w => ?_
      refine .bind anyhow_composes (.modify fun _ => trivial) fun _ => ?_
      exact .bind anyhow_composes (covers.releaseAll _) fun _ => announced

theorem setView (β : Behaviour σ ε) (c : Nat) (v : Option Nat) :
    Tracks Anyhow (setView run β c v) (setView run' β c v) := by
  refine .bind anyhow_composes (.get anyhow_composes) fun w => ?_
  refine .ite (.pure anyhow_composes ()) ?_
  refine .bind anyhow_composes (covers.holdingView? _ ?_) fun _ => ?_
  · refine .bind anyhow_composes (.modify fun _ => trivial) fun _ => ?_
    refine .bind anyhow_composes (covers.releaseAll _) fun _ => ?_
    refine .bind anyhow_composes (covers.releaseAll _) fun _ => ?_
    cases (w.controller c).view with
    | none => exact .pure anyhow_composes ()
    | some old =>
        exact .bind anyhow_composes (.get anyhow_composes) fun w =>
          .ite (covers.attach old none) (.pure anyhow_composes ())
  have announced : Tracks Anyhow
      (do rebindIfReady run β c; emitPhase run c) (do rebindIfReady run' β c; emitPhase run' c) :=
    .bind anyhow_composes ((covers.keeper β).rebindIfReady c) fun _ =>
      (covers.keeper β).emitPhase c
  cases v with
  | none => exact announced
  | some v =>
      refine .bind anyhow_composes ((tracks_self _).mpr fun _ _ _ _ => trivial) fun _ => ?_
      refine .bind anyhow_composes (.get anyhow_composes) fun w => ?_
      refine .bind anyhow_composes (.modify fun _ => trivial) fun _ => ?_
      refine .bind anyhow_composes (covers.releaseAll _) fun _ => ?_
      exact .bind anyhow_composes (covers.attach v (some c)) fun _ => announced

/-! ## Calls -/

theorem performAction (β : Behaviour σ ε) (fuel : Nat) (a : Action σ ε) :
    Tracks Anyhow (performAction run β fuel a) (performAction run' β fuel a) := by
  have k := covers.keeper β
  intro w
  refine k.performAction fuel a w fun elementary => ?_
  cases a with
  | connect | disconnect | disconnectAll | block | close | change =>
      exact (tracks_self _).mpr (fun _ _ _ _ => trivial) w
  | emit s notice => exact covers.emit s notice w
  | release subscription =>
      cases subscription with
      | connection s id => exact (tracks_self _).mpr (fun _ _ _ _ => trivial) w
      | client code => exact covers (.subscription code) w
  | setModel c m => exact covers.holdingController c (covers.setModel β c m) w
  | setView c v =>
      exact covers.holdingController c (covers.holdingView? v (covers.setView β c v)) w
  | attach v c => exact covers.holdingView v (covers.attach v c) w
  | handleClosing c =>
      exact covers.holdingController c (k.handleClosing c fun _ => trivial) w
  | announceClosing v =>
      refine covers.holdingView v (.bind anyhow_composes (.get anyhow_composes) fun w => ?_) w
      refine .ite (.pure anyhow_composes ()) ?_
      exact .bind anyhow_composes (.modify fun _ => trivial) fun _ => covers.emit _ _
  | dropController c => exact covers.dropController c w
  | dropView v => exact covers.dropView v w
  | post | drain | perform | inBackground | write | setProperty | setSilently | replaceAll
  | clear | initializeModel | resetModel | initializeController | handleAction | refresh
  | reportError | reportDone | initializeView | enable | report | displayView | finishUpdate
  | showError | showInfo => cases elementary

theorem body (β : Behaviour σ ε) (fuel : Nat) : Covers (body run β fuel) (body run' β fuel) := by
  intro call
  cases call with
  | slot slot notice =>
      have k := covers.keeper β
      exact k.serve slot notice fun c _ _ => k.handleClosing c fun _ => trivial
  | task t => exact runTask_tracks anyhow_composes β covers t
  | subscription code => exact covers.client _
  | action a => exact covers.performAction β fuel a

end Covers

theorem covers_runUnder (β : Behaviour σ ε) (depth : Nat) (d : Discipline σ ε) :
    Covers (runUnder β depth d) (run β depth) := by
  induction depth generalizing d with
  | zero => exact fun _ => .tooDeep _
  | succ depth ih =>
      intro call w r w' h
      simp only [runUnder] at h
      split at h
      · exact (ih (d.inside call)).body β depth call w r w' h
      · cases h

/-- A run under a discipline is a run. -/
theorem run_of_runUnder {β : Behaviour σ ε} {depth : Nat} {d : Discipline σ ε}
    {call : Call σ ε} {w : Ensemble σ ε} {x : call.Result × Ensemble σ ε}
    (h : runUnder β depth d call w = some x) : run β depth call w = some x :=
  (covers_runUnder β depth d call w x.1 x.2 h).1

/-! ## Deeper runs -/

/-- More fuel does not change what a drain does. -/
theorem drain_more {run run' : Runner σ ε} (covers : Covers run run') (d : Nat) {fuel fuel' : Nat}
    (le : fuel ≤ fuel') : Tracks Anyhow (drain run d fuel) (drain run' d fuel') := by
  induction fuel generalizing fuel' with
  | zero => exact .tooDeep _
  | succ fuel ih =>
      obtain ⟨more, rfl⟩ : ∃ more, fuel' = more + 1 := ⟨fuel' - 1, by omega⟩
      refine .bind anyhow_composes (.get anyhow_composes) fun w => ?_
      cases (w.dispatcher d).next? with
      | none => exact .pure anyhow_composes 0
      | some next =>
          refine .bind anyhow_composes (.modify fun _ => trivial) fun _ => ?_
          refine .bind anyhow_composes (covers (.task next.1)) fun _ => ?_
          refine .bind anyhow_composes (.modify fun _ => trivial) fun _ => ?_
          exact .bind anyhow_composes (ih (by omega)) fun n => .pure anyhow_composes (n + 1)

theorem Covers.bodyMore {run run' : Runner σ ε} (covers : Covers run run') (β : Behaviour σ ε)
    {fuel fuel' : Nat} (le : fuel ≤ fuel') :
    Covers (Ensemble.body run β fuel) (Ensemble.body run' β fuel') := by
  intro call
  cases call with
  | slot | task | subscription => exact covers.body β fuel _
  | action a =>
      cases a with
      | drain d => exact drain_more covers d le
      | _ => exact covers.performAction β fuel _

/-- What ends when it may nest to some depth ends the same way when it may nest deeper. -/
theorem run_mono {β : Behaviour σ ε} {depth depth' : Nat} (le : depth ≤ depth') :
    Covers (run β depth) (run β depth') := by
  induction depth generalizing depth' with
  | zero => exact fun _ => .tooDeep _
  | succ depth ih =>
      obtain ⟨more, rfl⟩ : ∃ more, depth' = more + 1 := ⟨depth' - 1, by omega⟩
      exact (ih (by omega)).bodyMore β (by omega)

/-- However deep calls may nest, there is one result at most. -/
theorem run_unique {β : Behaviour σ ε} {depth depth' : Nat} {call : Call σ ε} {w : Ensemble σ ε}
    {x y : call.Result × Ensemble σ ε} (first : run β depth call w = some x)
    (second : run β depth' call w = some y) : x = y := by
  have deeper := (run_mono (Nat.le_max_left depth depth') call w x.1 x.2 first).1
  have deeper' := (run_mono (Nat.le_max_right depth depth') call w y.1 y.2 second).1
  exact Option.some.inj (deeper.symm.trans deeper')

/-! ## Actions from outside -/

/-- Perform an action from outside, what it sets off being under a discipline. -/
def act (β : Behaviour σ ε) (depth : Nat) (d : Discipline σ ε) :
    (a : Action σ ε) → Proc (Ensemble σ ε) a.Result
  | .inBackground a => Ensemble.inBackground (act β depth d a)
  | a => Ensemble.performAction (runUnder β depth d) β depth a

/-- How many background threads an action is handed to. -/
def hops : Action σ ε → Nat
  | .inBackground a => hops a + 1
  | _ => 0

/-- What is performed from outside under a discipline is an ordinary run. -/
theorem run_of_act {β : Behaviour σ ε} {depth : Nat} {d : Discipline σ ε} {a : Action σ ε} :
    Tracks Anyhow (act β depth d a) (run β (depth + hops a + 1) (.action a)) := by
  induction a with
  | inBackground a ih => exact ((covers_self (run β 0)).keeper β).inBackground ih
  | _ => exact (covers_runUnder β depth d).performAction β depth _

end Mvc.Ensemble
