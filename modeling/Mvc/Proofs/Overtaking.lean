import Mvc.Proofs.Voyages

/-! # Binding within binding

While a controller is bound to something, client code runs: when bindings end, when they are
made, and when the phase is announced. If that code binds something else, the inner operation
comes to an end before the outer one goes on. A controller never listens to two models, and no
bindings are lost. But the outer operation may go on with what is no longer bound.
-/

namespace Mvc.Ensemble

open Proc Happening

variable {σ ε : Type} {β : Behaviour σ ε} {c : Nat} {w : Ensemble σ ε}

/-- The id by which a controller listens is named once in all signals. -/
theorem Moored.listens_once (moored : Moored c w) {s t : SignalRef} {id i : ConnectionId}
    (first : w.slotAt s id = some (.controllerData c))
    (second : w.slotAt t i = some (.controllerData c)) : s = t ∧ id = i := by
  have here := moored.booked s id first
  have there := moored.booked t i second
  rcases moored.plugged with free | ⟨m, j, line, -⟩
  · rw [free] at here
    cases here
  · rw [line, List.mem_singleton] at here there
    exact Subscription.connection.inj (here.trans there.symm)

/-- Bindings that were made are held, or they are not connected. -/
theorem Entered.held_or_gone {v : Ensemble σ (Noted (Logbook σ) ε)} {log : List (Happening σ)}
    {b : Logbook σ} {s : Standing σ} (entered : Entered c v (w.noted b) log)
    (passage : Passage false false .calls s (w.controller c).standing log)
    {making : Pair × List (Subscription σ)} (made : making ∈ makings log) {t : SignalRef}
    {id : ConnectionId} (bound : .connection t id ∈ making.2) :
    .connection t id ∈ (w.controller c).bindings ∨ w.slotAt t id = none := by
  have balanced : .connection t id ∈ endings log ++ (w.controller c).bindings :=
    passage.balance.symm.subset
      (List.mem_append_right _ (List.mem_flatMap.mpr ⟨making, made, bound⟩))
  exact (List.mem_append.mp balanced).symm.imp_right fun ended => entered.slotAt_eq_none ended

/-- However deep client code nests what it binds to a controller that nothing had been done to:
    the controller never listens to more than one model, and holds all bindings that are still
    connected. If moreover a model is still bound when the controller comes to listen to it, and
    the same model and view are bound when the making of bindings begins and ends, then the
    controller listens to its model and to no other, and it holds the bindings that were made last,
    for the model and view that are bound. -/
theorem consistent_of_fair (own : BindsOwn β) (unused : Unused c w) {ρ : Type}
    (code : Client σ ε ρ) (depth : Nat) (r : ρ) (w' : Ensemble σ ε)
    (ran : (runUnder β depth (minding c)).client code w = some (r, w')) :
    (run β depth).client code w = some (r, w') ∧
    ∃ b : Logbook σ, (logged β c depth).client (code.beside (Logbook σ)) (w.noted .empty) =
        some (r, w'.noted b) ∧
      (∀ s id t i, w'.slotAt s id = some (.controllerData c) →
        w'.slotAt t i = some (.controllerData c) → s = t ∧ id = i) ∧
      (∀ making ∈ makings b.entries, ∀ s id, .connection s id ∈ making.2 →
        .connection s id ∈ (w'.controller c).bindings ∨ w'.slotAt s id = none) ∧
      (Each IsFair b.entries → ListensToModel c w' ∧ HoldsLatest c w' b.entries) := by
  obtain ⟨b, logged, heard, passage⟩ := exists_chart own unused.moored ran
  have moored := moored_noted.mp heard.moored
  refine ⟨((covers_runUnder β depth _).client code w r w' ran).1, b, logged,
    fun s id t i => moored.listens_once, fun making made s id bound => ?_, fun fair => ⟨?_, ?_⟩⟩
  · exact heard.held_or_gone passage made bound
  · refine moored.listens (passage.listening_eq fair ?_)
    rw [unused.standing]
  · rw [unused.standing] at passage
    exact heard.holdsLatest passage fair rfl rfl

/-! ## A slot that binds another model -/

/-- As soon as a model and a view are bound, a slot binds another model. -/
def restless : Behaviour Nat Nat :=
  watchful { Behaviour.plain with
    slot := fun code notice =>
      match code, notice with
      | 0, .phase .bound => .act (.setModel 0 (some 1)) fun _ => pure ()
      | _, _ => pure () } 1

theorem bindsOwn_restless : BindsOwn restless := bindsOwn_watchful _ 1

/-- A model and a view are bound, and the controller is set up. -/
def bindAndSetUp : Client Nat Nat (Except ControllerError Unit) := do
  let _ ← Program.perform (Action.setModel 0 (some 0))
  let _ ← Program.perform (Action.setView 0 (some 0))
  .perform (Action.initializeController 0)

/-- The other model is bound within the binding of the view, and all is as it should be. -/
theorem consistent_after_slot : ∃ (w' : Ensemble Nat Nat) (b : Logbook Nat),
    (run restless 12).client bindAndSetUp attended = some (.ok (), w') ∧
    ¬ Each IsOrderly b.entries ∧ (w'.controller 0).model = some 1 ∧
    ListensToModel 0 w' ∧ HoldsLatest 0 w' b.entries := by
  have ends : ((runUnder restless 12 (minding 0)).client bindAndSetUp attended).map (·.1) =
      some (.ok ()) := by
    decide +kernel
  obtain ⟨⟨r, w'⟩, ran, rfl⟩ := Option.map_eq_some_iff.mp ends
  obtain ⟨plain, b, noted, -, -, consistent⟩ :=
    consistent_of_fair bindsOwn_restless unused_attended bindAndSetUp 12 _ w' ran
  have course : ((logged restless 0 12).client (bindAndSetUp.beside (Logbook Nat))
      (attended.noted .empty)).map (fun x => (decide (Each IsFair x.2.client.notes.entries),
        decide (Each IsOrderly x.2.client.notes.entries), (x.2.controller 0).model)) =
      some (true, false, some 1) := by
    decide +kernel
  rw [noted] at course
  obtain ⟨fair, others⟩ := Prod.mk.inj (Option.some.inj course)
  obtain ⟨nested, model⟩ := Prod.mk.inj others
  exact ⟨w', b, plain, of_decide_eq_false nested, model, consistent (of_decide_eq_true fair)⟩

/-! ## Hooks and bindings that bind something else -/

/-- Whenever bindings are made, the view is taken away first. -/
def unruly : Behaviour Nat Nat :=
  { Behaviour.plain with
    connect := fun c => .act (.setView c none) fun _ => (watchful Behaviour.plain 1).connect c }

/-- Whenever bindings end, a model is bound. -/
def clinging : Behaviour Nat Nat :=
  { Behaviour.plain with
    connect := fun _ => pure [.client 0]
    job := fun _ => .act (.setModel 0 (some 2)) fun _ => pure () }

/-- A model and a view are bound, the controller is set up, and another model is bound. -/
def bindAgain : Client Nat Nat Unit := do
  let _ ← bindAndSetUp
  .perform (Action.setModel 0 (some 1))

/-- The view is taken away while bindings are made, and the bindings stay, though there is no view
    any more. And another model is bound while bindings end, but the controller listens to the
    one that was to be bound before. -/
theorem inconsistent_if_overtaken :
    (∃ (w' : Ensemble Nat Nat) (b : Logbook Nat),
      (run unruly 10).client bindAndSetUp (new 0) = some (.ok (), w') ∧
      (logged unruly 0 10).client (bindAndSetUp.beside (Logbook Nat)) ((new 0).noted .empty) =
        some (.ok (), w'.noted b) ∧
      (w'.controller 0).pair = ⟨some 0, none⟩ ∧
      makings b.entries = [(⟨some 0, some 0⟩, [.connection (.modelValidity 0) ⟨0, 1⟩])] ∧
      w'.slotAt (.modelValidity 0) ⟨0, 1⟩ = some (.client 1) ∧ ¬ HoldsLatest 0 w' b.entries) ∧
    ∃ w' : Ensemble Nat Nat, (run clinging 10).client bindAgain (new 0) = some ((), w') ∧
      (w'.controller 0).model = some 2 ∧
      w'.slotAt (.modelData 1) ⟨0, 1⟩ = some (.controllerData 0) ∧ ¬ ListensToModel 0 w' := by
  constructor
  · have ends : ((runUnder unruly 10 (minding 0)).client bindAndSetUp (new 0)).map (fun x =>
        (x.1, (x.2.controller 0).pair, x.2.slotAt (.modelValidity 0) ⟨0, 1⟩)) =
        some (.ok (), ⟨some 0, none⟩, some (.client 1)) := by
      decide +kernel
    obtain ⟨⟨r, w'⟩, ran, facts⟩ := Option.map_eq_some_iff.mp ends
    obtain ⟨rfl, pair, there⟩ := (Prod.mk.inj facts).imp_right Prod.mk.inj
    obtain ⟨b, noted⟩ := exists_beside (bare_logged unruly 0 10) ran Logbook.empty
    have course : ((logged unruly 0 10).client (bindAndSetUp.beside (Logbook Nat))
        ((new 0).noted .empty)).map (fun x => makings x.2.client.notes.entries) =
        some [(⟨some 0, some 0⟩, [.connection (.modelValidity 0) ⟨0, 1⟩])] := by
      decide +kernel
    rw [noted] at course
    have made : makings b.entries = _ := Option.some.inj course
    refine ⟨w', b, ((covers_runUnder unruly 10 _).client _ _ _ _ ran).1, noted, pair, made, there,
      fun holds => ?_⟩
    have viewless : (w'.controller 0).view = none := congrArg Pair.view pair
    have gone := (holds.unready (by simp [isReady, viewless])).2
    rw [made] at gone
    rw [gone _ List.mem_cons_self _ _ List.mem_cons_self] at there
    cases there
  · have ends : ((run clinging 10).client bindAgain (new 0)).map (fun x =>
        ((x.2.controller 0).model, x.2.slotAt (.modelData 1) ⟨0, 1⟩)) =
        some (some 2, some (.controllerData 0)) := by
      decide +kernel
    obtain ⟨⟨r, w'⟩, ran, facts⟩ := Option.map_eq_some_iff.mp ends
    obtain ⟨model, there⟩ := Prod.mk.inj facts
    refine ⟨w', ran, model, there, fun listens => ?_⟩
    unfold ListensToModel at listens
    rw [model] at listens
    obtain ⟨i, exactly⟩ := listens
    cases ((exactly _ _).mp there).1

end Mvc.Ensemble
