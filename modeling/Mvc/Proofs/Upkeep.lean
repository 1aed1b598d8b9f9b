import Mvc.Proofs.Voyages

/-! # Bindings that follow the model and the view

As long as nothing else is bound while a controller is busy, the bindings that it holds are those
that its client made last, for the model and view that are bound, if the controller is
initialized and there are both; and nothing is left of any that were made before. Setup is tried
until it succeeds, and a failure leaves everything as the client's code left it.
-/

namespace Mvc.Ensemble

open Proc Happening

variable {σ ε : Type} {β : Behaviour σ ε} {c : Nat} {w w' : Ensemble σ ε}

/-! ## Setting up a controller -/

/-- Setup does nothing if it has succeeded. Otherwise the client's code runs and tells how it
    comes out; and if it fails, everything is as that code left it. -/
theorem setup_steps (own : BindsOwn β) (moored : Moored c w) {depth : Nat}
    {r : Except ControllerError Unit}
    (ran : runUnder β (depth + 1) (minding c) (.action (.initializeController c)) w =
      some (r, w')) :
    ((w.controller c).initialized = true → r = .ok () ∧
      w' = holders c (·.held) (·.pins - 1) (holders c (·.held) (·.pins + 1) w)) ∧
    ((w.controller c).initialized = false → ∃ w₁,
      (runUnder β depth (minding c)).client (β.setup c) (holders c (·.held) (·.pins + 1) w) =
        some (r, w₁) ∧
      ∀ e, r = .error e → w' = holders c (·.held) (·.pins - 1) w₁) := by
  have pinned := moored.holders (·.pins + 1)
  have initialized : ((Ensemble.holders c (·.held) (·.pins + 1) w).controller c).initialized =
      (w.controller c).initialized := by
    rw [Ensemble.holders, controller_updateController_self]
  have called : holdingController (runUnder β depth (minding c)) c
    (Ensemble.initializeController (runUnder β depth (minding c)) β c) w = some (r, w') := ran
  obtain ⟨w₂, inner, collected⟩ := holdingController_steps called
  rw [Ensemble.initializeController, get_bind, initialized] at inner
  constructor
  · intro done
    rw [if_pos done] at inner
    cases inner
    exact ⟨rfl, eq_of_collected pinned.held collected⟩
  · intro new
    rw [if_neg (by simp [new])] at inner
    obtain ⟨result, w₁, hook, rest⟩ := bind_eq_some.mp inner
    cases result with
    | error e =>
        cases rest
        -- What the client's code did is a passage, so the controller is still held.
        obtain ⟨b, -, heard, -⟩ := exists_chart own pinned hook
        exact ⟨w₂, hook, fun _ _ => eq_of_collected heard.moored.held collected⟩
    | ok u =>
        obtain ⟨_, w₃, -, rest⟩ := bind_eq_some.mp rest
        obtain ⟨_, w₄, -, rest⟩ := bind_eq_some.mp rest
        obtain ⟨_, w₅, -, rest⟩ := bind_eq_some.mp rest
        cases rest
        exact ⟨w₁, hook, fun _ same => by cases same⟩

/-! ## Bindings -/

/-- However client code uses a controller that nothing has been done to, and whatever its hooks
    bind: as long as nothing else is bound while the controller is busy, it holds the bindings
    that were made last, for the model and view that are bound, if it is initialized and there
    are both, and none otherwise; all that were made before are gone. Its setup is not tried again
    after it has succeeded. At any time setup runs the client's code unless it has succeeded,
    answers as that code does, and if that is an error leaves everything as that code left it. -/
theorem bindings_follow_pair (own : BindsOwn β) :
    (∀ {w : Ensemble σ ε}, Unused c w → ∀ {ρ : Type} (code : Client σ ε ρ) (depth : Nat) (r : ρ)
        (w' : Ensemble σ ε), (runUnder β depth (minding c)).client code w = some (r, w') →
      (run β depth).client code w = some (r, w') ∧ Moored c w' ∧
      ∃ b : Logbook σ, (logged β c depth).client (code.beside (Logbook σ)) (w.noted .empty) =
          some (r, w'.noted b) ∧
        (Each IsOrderly b.entries → HoldsLatest c w' b.entries) ∧ Lasting b.entries ∧
        ((w'.controller c).initialized = true ↔ .setUp (.ok ()) ∈ b.entries)) ∧
    (∀ {w : Ensemble σ ε}, Moored c w → ∀ (depth : Nat) (r : Except ControllerError Unit)
        (w' : Ensemble σ ε),
      runUnder β (depth + 1) (minding c) (.action (.initializeController c)) w = some (r, w') →
      ((w.controller c).initialized = true → r = .ok () ∧
        w' = holders c (·.held) (·.pins - 1) (holders c (·.held) (·.pins + 1) w)) ∧
      ((w.controller c).initialized = false → ∃ w₁,
        (runUnder β depth (minding c)).client (β.setup c) (holders c (·.held) (·.pins + 1) w) =
          some (r, w₁) ∧
        ∀ e, r = .error e → w' = holders c (·.held) (·.pins - 1) w₁)) := by
  refine ⟨fun unused ρ code depth r w' ran => ?_,
    fun moored depth r w' ran => setup_steps own moored ran⟩
  obtain ⟨b, logged, heard, passage⟩ := exists_chart own unused.moored ran
  refine ⟨((covers_runUnder β depth _).client code _ r w' ran).1, ?_, b, logged, ?_,
    passage.lasting, ?_⟩
  · exact moored_noted.mp heard.moored
  · intro orderly
    rw [unused.standing] at passage
    exact heard.holdsLatest passage (passage.fair_of_orderly orderly) rfl rfl
  · have set : (w'.controller c).initialized = true ↔ _ := passage.initialized_iff
    rw [unused.standing] at set
    simpa using set

/-- Setup fails once, and then it succeeds. -/
def hesitant : Behaviour Nat Nat :=
  watchful { Behaviour.plain with
    setup := fun _ => .look fun w => .act (.change Nat.succ) fun _ =>
      pure (if w.client = 0 then .error .noView else .ok ()) } 1

theorem bindsOwn_hesitant : BindsOwn hesitant := bindsOwn_watchful _ 1

/-- A controller is set up at the second attempt, and bound to another model. -/
def setUpTwice : Client Nat Nat (Except ControllerError Unit × Except ControllerError Unit) := do
  let _ ← Program.perform (Action.setModel 0 (some 0))
  let _ ← Program.perform (Action.setView 0 (some 0))
  let first ← Program.perform (Action.initializeController 0)
  let second ← Program.perform (Action.initializeController 0)
  let _ ← Program.perform (Action.setModel 0 (some 1))
  return (first, second)

/-- The bindings at the first model are gone, those at the second are held; and the setup that
    failed left no more than its own trace. -/
theorem bindings_after_hesitation :
    (∃ (w' : Ensemble Nat Nat) (b : Logbook Nat),
      (run hesitant 10).client setUpTwice (new 0) = some ((.error .noView, .ok ()), w') ∧
      makings b.entries =
        [(⟨some 0, some 0⟩, [.connection (.modelValidity 0) ⟨0, 1⟩]),
          (⟨some 1, some 0⟩, [.connection (.modelValidity 1) ⟨0, 1⟩])] ∧
      (w'.controller 0).bindings = [.connection (.modelValidity 1) ⟨0, 1⟩] ∧
      w'.slotAt (.modelValidity 0) ⟨0, 1⟩ = none ∧ Lasting b.entries) ∧
    ∃ w₁ w' : Ensemble Nat Nat,
      runUnder hesitant 3 (minding 0) (.action (.initializeController 0)) (new 0) =
        some (.error .noView, w') ∧
      (runUnder hesitant 2 (minding 0)).client (hesitant.setup 0)
        (holders 0 (·.held) (·.pins + 1) (new 0)) = some (.error .noView, w₁) ∧
      w' = holders 0 (·.held) (·.pins - 1) w₁ := by
  have unused : Unused 0 (new 0 : Ensemble Nat Nat) := unused_new 0 0
  obtain ⟨follow, attempt⟩ := bindings_follow_pair (c := 0) bindsOwn_hesitant
  constructor
  · have ends : ((runUnder hesitant 10 (minding 0)).client setUpTwice (new 0)).map (·.1) =
        some (.error .noView, .ok ()) := by
      decide +kernel
    obtain ⟨⟨r, w'⟩, ran, rfl⟩ := Option.map_eq_some_iff.mp ends
    obtain ⟨plain, -, b, noted, holds, lasting, -⟩ := follow unused setUpTwice 10 _ w' ran
    have made : ((logged hesitant 0 10).client (setUpTwice.beside (Logbook Nat))
        ((new 0).noted .empty)).map (fun x => makings x.2.client.notes.entries) =
        some [(⟨some 0, some 0⟩, [.connection (.modelValidity 0) ⟨0, 1⟩]),
          (⟨some 1, some 0⟩, [.connection (.modelValidity 1) ⟨0, 1⟩])] := by
      decide +kernel
    have course : ((logged hesitant 0 10).client (setUpTwice.beside (Logbook Nat))
        ((new 0).noted .empty)).map (fun x => (decide (Each IsOrderly x.2.client.notes.entries),
          isReady (x.2.controller 0))) = some (true, true) := by
      decide +kernel
    rw [noted] at made course
    replace made := Option.some.inj made
    obtain ⟨orderly, ready⟩ := Prod.mk.inj (Option.some.inj course)
    replace orderly := of_decide_eq_true orderly
    obtain ⟨earlier, last, gone⟩ := (holds orderly).ready ready
    have lists : earlier ++ [_] = [_] ++ [_] := last.symm.trans made
    obtain ⟨rfl, latest⟩ := List.append_inj' lists rfl
    have held := congrArg Prod.snd (List.singleton_inj.mp latest)
    exact ⟨w', b, plain, made, held, gone _ List.mem_cons_self _ _ List.mem_cons_self, lasting⟩
  · have ends : (runUnder hesitant 3 (minding 0) (.action (.initializeController 0)) (new 0)).map
        (·.1) = some (.error .noView) := by
      decide +kernel
    obtain ⟨⟨r, w'⟩, ran, rfl⟩ := Option.map_eq_some_iff.mp ends
    obtain ⟨w₁, hook, left⟩ := (attempt unused.moored 2 _ w' ran).2 rfl
    exact ⟨w₁, w', ran, hook, left _ rfl⟩

end Mvc.Ensemble
