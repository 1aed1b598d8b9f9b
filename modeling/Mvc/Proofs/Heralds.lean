import Mvc.Proofs.Voyages

/-! # The phase that is announced

Whatever client code does that minds a controller, the phase that was announced last is the one
that the controller is in, and whoever was connected all the time was given whatever was
announced. What changes nothing announces nothing, and neither does a setup that fails, unless
its own code takes a step of the lifecycle.
-/

namespace Mvc.Ensemble

open Proc Happening

variable {σ ε : Type} {β : Behaviour σ ε} {c : Nat}

/-- What is bound, set up or closing already is to be so again. -/
def IsIdle (c : Nat) (w : Ensemble σ ε) : Call σ ε → Prop
  | .action (.setModel b m) => b = c ∧ (w.controller c).model = m
  | .action (.setView b v) => b = c ∧ (w.controller c).view = v
  | .action (.initializeController b) => b = c ∧ (w.controller c).initialized = true
  | .action (.handleClosing b) | .slot (.controllerClosing b) .closing =>
    b = c ∧ (w.controller c).closing = true
  | _ => False

section Calls

variable {w w' : Ensemble σ (Noted (Logbook σ) ε)} {run : Runner σ (Noted (Logbook σ) ε)}
  {β : Behaviour σ (Noted (Logbook σ) ε)}

/-! ## What announces nothing -/

/-- What leaves a controller as it is while the controller is held leaves the client as it is. -/
theorem client_of_held {α : Type} {p : Proc (Ensemble σ (Noted (Logbook σ) ε)) α}
    (inner : Ends p (holders c (·.held) (·.pins + 1) w) fun _ w₁ =>
      Quiet c (holders c (·.held) (·.pins + 1) w) w₁) :
    Ends (holdingController run c p) w fun _ w' => w'.client = w.client := by
  intro r w' ran
  obtain ⟨w₁, called, collected⟩ := holdingController_steps ran
  have quiet := inner r w₁ called
  rw [eq_of_collected quiet.moored.held collected]
  exact quiet.client

/-- What is done already is not done again. -/
theorem done_ends {α : Type}
    {p : Ensemble σ (Noted (Logbook σ) ε) → Proc (Ensemble σ (Noted (Logbook σ) ε)) α} {r : α}
    (done : Controller σ → Prop) [DecidablePred done] (moored : Moored c w)
    (already : done (w.controller c)) :
    Ends (get >>= fun w => if done (w.controller c) then pure r else p w) w fun _ w' =>
      Quiet c w w' := by
  refine .get_bind ?_
  rw [if_pos already]
  exact (ends_pure r w _).mpr (.refl moored)

/-- A call that changes nothing leaves the logbook as it is. -/
theorem idle_ends (fuel : Nat) {call : Call σ (Noted (Logbook σ) ε)} (moored : Moored c w)
    (idle : IsIdle c w call) :
    Ends (loggedBody run β c fuel call) w fun _ w' => w'.client = w.client := by
  have pinned := moored.holders (·.pins + 1)
  have same : (holders c (·.held) (·.pins + 1) w).controller c = _ :=
    controller_updateController_self ..
  have closing (closing : (w.controller c).closing = true) :
      Ends (holdingController run c
        (if c = c then logClosing run β c else handleClosing run β c)) w fun _ w' =>
          w'.client = w.client := by
    rw [if_pos rfl]
    exact client_of_held (done_ends (p := fun _ => _) (·.closing = true) pinned
      (by rw [same]; exact closing))
  cases call with
  | slot slot notice =>
      cases slot with
      | controllerClosing b =>
          cases notice with
          | closing =>
              obtain ⟨rfl, shut⟩ := idle
              refine .get_bind ?_
              split
              · exact closing shut
              · exact (ends_pure () w _).mpr rfl
          | _ => exact idle.elim
      | _ => exact idle.elim
  | task | subscription => exact idle.elim
  | action a =>
      cases a with
      | setModel b m =>
          obtain ⟨rfl, bound⟩ := idle
          refine client_of_held ?_
          rw [if_pos rfl]
          exact done_ends (·.model = m) pinned (by rw [same]; exact bound)
      | setView b v =>
          obtain ⟨rfl, bound⟩ := idle
          refine client_of_held (holdingView?_ends pinned fun w₁ quiet => ?_)
          rw [if_pos rfl]
          refine (done_ends (·.view = v) quiet.moored ?_).mono fun _ w₂ kept => ?_
          · have still := congrArg (·.pair.view) quiet.standing
            exact still.trans (by rw [same]; exact bound)
          · exact ⟨kept.moored, fun w' left => quiet.trans (kept.trans left)⟩
      | initializeController b =>
          obtain ⟨rfl, set⟩ := idle
          refine client_of_held ?_
          rw [if_pos rfl]
          exact done_ends (p := fun _ => _) (·.initialized = true) pinned
            (by rw [same]; exact set)
      | handleClosing b =>
          obtain ⟨rfl, shut⟩ := idle
          exact closing shut
      | _ => exact idle.elim

/-- A setup that fails adds what its own code adds, and announces nothing else. -/
theorem refused_steps (calls : ∀ call, Keeps (Charted c) (run call)) (fuel : Nat)
    (moored : Moored c w) {e : ControllerError}
    (ran : loggedBody run β c fuel (.action (.initializeController c)) w = some (.error e, w')) :
    ∃ w₁ w₂ a, run.client (β.setup c) w₁ = some (.error e, w₂) ∧
      w₂.client.notes.entries = w₁.client.notes.entries ++ a ∧
      w'.client.notes.entries = w.client.notes.entries ++ .tried :: (a ++ [.setUp (.error e)]) ∧
      (Each (·.isStep = false) a → tolds (.tried :: (a ++ [.setUp (.error e)])) = []) := by
  have called : holdingController run c
    (if c = c then logSetup run β c else initializeController run β c) w =
      some (.error e, w') := ran
  rw [if_pos rfl] at called
  obtain ⟨v, inner, collected⟩ := holdingController_steps called
  rw [logSetup, get_bind] at inner
  split at inner
  · cases inner
  · rw [modify_bind, occupied, get_bind, modify_bind] at inner
    obtain ⟨r, v₂, trial, ending⟩ := bind_eq_some.mp inner
    cases ending
    obtain ⟨result, w₂, hook, rest⟩ := bind_eq_some.mp trial
    cases result with
    | error e' =>
        cases rest
        have noted : Moored c (setBusy true (enter .tried (holders c (·.held) (·.pins + 1) w))) :=
          (moored.holders (·.pins + 1)).withClient _
        obtain ⟨a, heard, passage⟩ :=
          ((caretaker_charted calls).client (β.setup c)).keeps _ _ _ hook noted
        -- Somebody else holds the controller, so it is not taken apart when setup lets go of it.
        have held : ((setBusy w.client.notes.busy
            (enter (.setUp (.error e)) w₂)).controller c).held = true := heard.moored.held
        refine ⟨_, w₂, a, hook, heard.entries, ?_, fun still => ?_⟩
        · rw [eq_of_collected held collected]
          show w₂.client.notes.entries ++ _ = _
          rw [heard.entries]
          show (w.client.notes.entries ++ [_]) ++ a ++ [_] = _
          simp
        · have silent : tolds a = [] := passage.tolds_eq_nil rfl still
          simp [silent]
    | ok u =>
        obtain ⟨_, v₃, -, rest⟩ := bind_eq_some.mp rest
        obtain ⟨_, v₄, -, rest⟩ := bind_eq_some.mp rest
        obtain ⟨_, v₅, -, rest⟩ := bind_eq_some.mp rest
        cases rest

end Calls

/-! ## What is announced -/

/-- At the start a controller is unbound. From there on, or from wherever such a run has led, and
    whatever hooks and slots do in the meantime: the phase that was announced last is the one
    that the controller is in, or none was announced and the phase is as it was; and whoever was
    connected all the time was given every phase that was announced, if none was announced within
    an announcement or with the signal blocked. At any depth, a call that changes nothing
    announces nothing, and a setup that fails announces nothing unless the client's code takes a
    step of the lifecycle on the way. -/
theorem phase_announced (own : BindsOwn β) :
    (∀ {w : Ensemble σ ε}, Unused c w → Moored c w ∧ (w.controller c).phase = .unbound) ∧
    (∀ {w : Ensemble σ ε}, Moored c w → ∀ {ρ : Type} (code : Client σ ε ρ) (depth : Nat) (r : ρ)
        (w' : Ensemble σ ε), (runUnder β depth (minding c)).client code w = some (r, w') →
      (run β depth).client code w = some (r, w') ∧ Moored c w' ∧
      ∃ b : Logbook σ, (logged β c depth).client (code.beside (Logbook σ)) (w.noted .empty) =
          some (r, w'.noted b) ∧
        (tolds b.entries).getLast?.getD (w.controller c).phase = (w'.controller c).phase ∧
        ∀ listener, (w.signal (.controllerPhase c)).isConnected listener = true →
          (w'.signal (.controllerPhase c)).isConnected listener = true →
          Each IsPrompt b.entries → givens listener b.entries = tolds b.entries) ∧
    (∀ {v v' : Ensemble σ (Noted (Logbook σ) ε)} (depth : Nat), Moored c v →
      (∀ call r, IsIdle c v call → logged β c (depth + 1) call v = some (r, v') →
        v'.client.notes = v.client.notes) ∧
      (∀ e, logged β c (depth + 1) (.action (.initializeController c)) v = some (.error e, v') →
        ∃ w₁ w₂ a, (logged β c depth).client ((β.setup c).beside (Logbook σ)) w₁ =
            some (.error e, w₂) ∧
          w₂.client.notes.entries = w₁.client.notes.entries ++ a ∧
          v'.client.notes.entries =
            v.client.notes.entries ++ .tried :: (a ++ [.setUp (.error e)]) ∧
          (Each (·.isStep = false) a → tolds (.tried :: (a ++ [.setUp (.error e)])) = []))) := by
  refine ⟨fun unused => ⟨unused.moored, ?_⟩, fun moored ρ code depth r w' ran => ?_,
    fun {v v'} depth moored => ⟨fun call r idle ran => ?_, fun e ran => ?_⟩⟩
  · rw [← Standing.phase_standing, unused.standing]
    rfl
  · obtain ⟨b, logged, heard, passage⟩ := exists_chart own moored ran
    refine ⟨((covers_runUnder β depth _).client code _ r w' ran).1, moored_noted.mp heard.moored,
      b, logged, ?_, fun listener before after prompt => ?_⟩
    · rcases passage.last_told with told | ⟨-, silent, same⟩
      · rw [told]
        rfl
      · rw [silent]
        exact same.symm
    · refine heard.heard listener ?_ ?_ prompt
      · rwa [signal_noted]
      · rwa [signal_noted]
  · simp only [logged] at ran
    split at ran
    · exact congrArg _ (idle_ends depth moored idle r v' ran)
    · cases ran
  · exact refused_steps (logged_charted own depth) depth moored ran

/-- Setup fails once, and then it binds a view and succeeds. -/
def hospitable : Behaviour Nat Nat :=
  { Behaviour.plain with
    setup := fun c => .look fun w =>
      if w.client = 0 then .act (.change Nat.succ) fun _ => pure (.error .noView)
      else .act (.setView c (some 0)) fun _ => pure (.ok ()) }

theorem bindsOwn_hospitable : BindsOwn hospitable := by
  intro depth b w bindings w' _ ran s id member
  cases ran
  cases member

/-- A model is bound, twice, then the controller is set up, twice, and then the view closes. -/
def liveAndClose : Client Nat Nat Unit := do
  let _ ← Program.perform (Action.setModel 0 (some 0))
  let _ ← Program.perform (Action.setModel 0 (some 0))
  let _ ← Program.perform (Action.initializeController 0)
  let _ ← Program.perform (Action.initializeController 0)
  .perform (Action.announceClosing 0)

/-- The listener is given each phase, and the last one is the one that the controller is in. -/
theorem phases_until_closing :
    (∃ (w' : Ensemble Nat Nat) (b : Logbook Nat),
      (run hospitable 12).client liveAndClose attended = some ((), w') ∧
      givens ⟨0, 1⟩ b.entries = [.unbound, .bound, .initialized, .viewClosing] ∧
      (w'.controller 0).phase = .viewClosing) ∧
    (∃ v, logged hospitable 0 3 (.action (.setModel 0 none)) (attended.noted .empty) =
      some ((), v) ∧ v.client.notes.entries = []) ∧
    ∃ v, logged hospitable 0 3 (.action (.initializeController 0)) (attended.noted .empty) =
      some (.error .noView, v) ∧ tolds v.client.notes.entries = [] := by
  obtain ⟨start, announced, silent⟩ := phase_announced (c := 0) bindsOwn_hospitable
  have moored : Moored 0 attended := (start unused_attended).1
  refine ⟨?_, ?_, ?_⟩
  · have ends : ((runUnder hospitable 12 (minding 0)).client liveAndClose attended).map
        (fun x => (x.2.signal (.controllerPhase 0)).isConnected ⟨0, 1⟩) = some true := by
      decide +kernel
    obtain ⟨⟨r, w'⟩, ran, stayed⟩ := Option.map_eq_some_iff.mp ends
    obtain ⟨plain, -, b, noted, last, heard⟩ := announced moored liveAndClose 12 r w' ran
    have course : ((logged hospitable 0 12).client (liveAndClose.beside (Logbook Nat))
        (attended.noted .empty)).map (fun x => (decide (Each IsPrompt x.2.client.notes.entries),
          tolds x.2.client.notes.entries)) =
        some (true, [.unbound, .bound, .initialized, .viewClosing]) := by
      decide +kernel
    rw [noted] at course
    obtain ⟨prompt, told⟩ := Prod.mk.inj (Option.some.inj course)
    have given := heard ⟨0, 1⟩ rfl stayed (of_decide_eq_true prompt)
    refine ⟨w', b, plain, given.trans told, ?_⟩
    rw [← last, show tolds b.entries = _ from told]
    rfl
  · have ends : (logged hospitable 0 3 (.action (.setModel 0 none)) (attended.noted .empty)).map
        (·.1) = some () := by
      decide +kernel
    obtain ⟨⟨r, v⟩, ran, -⟩ := Option.map_eq_some_iff.mp ends
    have kept := (silent 2 (moored_noted.mpr moored)).1 _ r ⟨rfl, rfl⟩ ran
    exact ⟨v, ran, congrArg Logbook.entries kept⟩
  · have ends : (logged hospitable 0 3 (.action (.initializeController 0))
        (attended.noted .empty)).map (·.1) = some (.error .noView) := by
      decide +kernel
    obtain ⟨⟨r, v⟩, ran, rfl⟩ := Option.map_eq_some_iff.mp ends
    obtain ⟨w₁, w₂, a, hook, own, whole, none⟩ := (silent 2 (moored_noted.mpr moored)).2 _ ran
    have still : ((logged hospitable 0 3 (.action (.initializeController 0))
        (attended.noted .empty)).map fun x =>
          x.2.client.notes.entries.tail.all fun e => !e.isStep) = some true := by
      decide +kernel
    rw [ran] at still
    have others : (v.client.notes.entries.tail.all fun e => !e.isStep) = true :=
      Option.some.inj still
    refine ⟨v, ran, ?_⟩
    rw [whole] at others ⊢
    refine none fun e member => ?_
    simpa using List.all_eq_true.mp others e (List.mem_append_left _ member)

end Mvc.Ensemble
