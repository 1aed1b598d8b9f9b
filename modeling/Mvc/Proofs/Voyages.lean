import Mvc.Proofs.Steering

/-! # Logged runs

Whatever client code does that minds a controller, what is written down of the controller is a
passage. This is shown for one call, if it holds of the calls that it sets off, and so for all
calls by induction on their depth.
-/

namespace Mvc.Ensemble

open Proc Happening

variable {σ ε : Type} {c : Nat} {w w' : Ensemble σ (Noted (Logbook σ) ε)}

/-! ## One call -/

section Calls

variable {run : Runner σ (Noted (Logbook σ) ε)} {β : Behaviour σ (Noted (Logbook σ) ε)}
  (calls : ∀ call, Keeps (Charted c) (run call))
include calls

theorem dropController_charted {b : Nat} (other : b ≠ c) :
    Keeps (Charted c) (dropController run b) := by
  have order := charted_composes (σ := σ) (ε := ε) c
  refine (tracks_self _).mp (.bind order (.get order) fun w => .ite ?_ (.pure order ()))
  refine .bind order (.modify fun w => ?_) fun _ =>
    (tracks_self _).mpr (collectController_charted calls b)
  exact charted_of_quiet fun moored => moored.lifecycle b (·.pins) (fun _ => false)
    (·.initialized) (·.closing) fun same => absurd same other

omit calls in
theorem dropView_charted (v : Nat) : Keeps (Charted c) (dropView run v) := by
  have order := charted_composes (σ := σ) (ε := ε) c
  refine (tracks_self _).mp (.bind order (.get order) fun w => .ite ?_ (.pure order ()))
  refine .bind order (.modify fun w => ?_) fun _ => (tracks_self _).mpr (collectView_charted v)
  exact charted_updateView v (by exact fun _ => ⟨rfl, rfl, rfl⟩) (by exact fun _ => rfl) w

theorem announceClosing_charted (v : Nat) : Keeps (Charted c) (announceClosing run v) := by
  have order := charted_composes (σ := σ) (ε := ε) c
  refine (tracks_self _).mp (.bind order (.get order) fun w => .ite (.pure order ()) ?_)
  refine .bind order (.modify fun w => ?_) fun _ => emit_charted calls _ _
  exact charted_updateView v (by exact fun _ => ⟨rfl, rfl, rfl⟩) (by exact fun _ => rfl) w

/-- An action that binds nothing, closes nothing and sets nothing up. -/
theorem performAction_charted (fuel : Nat) {a : Action σ (Noted (Logbook σ) ε)}
    (minded : w.minds c a = true) (moored : Moored c w) (unbinding : a.isBinding = false)
    (opening : ∀ b, a ≠ .handleClosing b) (setting : ∀ b, a ≠ .initializeController b)
    (apart : ∀ f, a ≠ .change f) :
    Ends (performAction run β fuel a) w fun _ w' => ChartedAs .calls c w w' := by
  have k := caretaker_charted calls
  have quiet {w'} (quiet : Quiet c w w') : ChartedAs .calls c w w' :=
    charted_of_quiet (fun _ => quiet) moored
  have tracked : TracksAt (Charted c) (performAction run β fuel a) (performAction run β fuel a) w →
      Ends (performAction run β fuel a) w fun _ w' => ChartedAs .calls c w w' :=
    fun tracks r w' h => (tracks r w' h).2 moored
  refine tracked (k.performAction fuel a w (fun elementary => ?_) fun b same =>
    absurd same (setting b))
  -- What is left are the actions that are not made of others.
  cases a with
  | connect s slot d =>
      intro _ w' h
      cases h
      exact ⟨rfl, fun _ => quiet (moored.connect s minded d)⟩
  | disconnect s id =>
      intro _ w' h
      cases h
      refine ⟨rfl, fun _ => quiet (moored.cut (.connection s id) ?_)⟩
      rintro _ _ same named
      cases same
      cases isClient_of_isSpare minded named
  | disconnectAll s =>
      intro _ w' h
      cases h
      exact ⟨rfl, fun _ => quiet (moored.disconnectAll minded)⟩
  | block s blocked =>
      intro _ w' h
      cases h
      exact ⟨rfl, fun _ => quiet (moored.setBlocked s blocked)⟩
  | close s =>
      intro _ w' h
      cases h
      refine ⟨rfl, fun _ => quiet (moored.close ?_)⟩
      rintro m rfl
      exact model_ne_of_not_isModelBound (by simpa [minds, traffic] using minded)
  | release subscription =>
      cases subscription with
      | connection s id =>
          intro _ w' h
          cases h
          refine ⟨rfl, fun _ => quiet (moored.cut (.connection s id) ?_)⟩
          rintro _ _ same named
          cases same
          cases isClient_of_isSpare minded named
      | client code => exact (tracks_self _).mpr (calls (.subscription code)) w
  | emit s notice => exact emit_charted calls s notice w
  | attach v b => exact k.holdingView v ((tracks_self _).mpr (attach_charted v b)) w
  | announceClosing v =>
      exact k.holdingView v ((tracks_self _).mpr (announceClosing_charted calls v)) w
  | dropController b =>
      exact (tracks_self _).mpr (dropController_charted calls (of_decide_eq_true minded)) w
  | dropView v => exact (tracks_self _).mpr (dropView_charted v) w
  | setModel | setView => cases unbinding
  | handleClosing b => exact absurd rfl (opening b)
  | change f => exact absurd rfl (apart f)
  | post | drain | perform | inBackground | write | setProperty | setSilently | replaceAll
  | clear | initializeModel | resetModel | initializeController | handleAction | refresh
  | reportError | reportDone | initializeView | enable | report | displayView | finishUpdate
  | showError | showInfo => cases elementary

theorem closing_charted (b : Nat) :
    Keeps (Charted c) (if b = c then logClosing run β c else handleClosing run β b) := by
  split
  · exact logClosing_charted calls
  · next other => exact handleClosing_charted calls other

/-- What a slot does. -/
theorem serve_charted (fuel : Nat) (slot : Slot σ) (notice : Notice) :
    Keeps (Charted c) (loggedBody run β c fuel (.slot slot notice)) := by
  have k := caretaker_charted calls
  have unlogged : (∀ b, slot = .controllerClosing b → notice ≠ .closing) →
      Keeps (Charted c) (serve run β slot notice) := fun apart =>
    (k.serve slot notice fun b same is => absurd is (apart b same)).keeps
  cases slot with
  | controllerClosing b =>
      cases notice with
      | closing =>
          exact (k.ifControllerAlive b ((tracks_self _).mpr (closing_charted calls b))).keeps
      | _ => exact unlogged fun _ _ is => by cases is
  | _ => exact unlogged fun _ same => by cases same

/-- Client code binds, closes and sets up, or does anything else. -/
theorem action_charted (own : BindsOwnBy β run) (fuel : Nat) {a : Action σ (Noted (Logbook σ) ε)}
    (minded : w.minds c a = true) (moored : Moored c w) :
    Ends (loggedBody run β c fuel (.action a)) w fun _ w' => ChartedAs .calls c w w' := by
  cases a with
  | setModel b m =>
      refine holdingController_ends calls b moored fun w₁ quiet signals => ?_
      split
      · next here =>
          refine logModel_charted calls own m quiet.moored fun i same => ?_
          simpa [minds, here, same, signals] using minded
      · next other => exact keeps_charted.mp (setModel_charted calls other own m) w₁ quiet.moored
  | setView b v =>
      refine holdingController_ends calls b moored fun w₁ quiet _ => ?_
      refine holdingView?_ends quiet.moored fun w₂ held => ?_
      have binding : Keeps (Charted c)
          (if b = c then logView run β c v else setView run β b v) := by
        split
        · exact logView_charted calls own v
        · next other => exact setView_charted calls other own v
      refine (keeps_charted.mp binding w₂ held.moored).mono fun _ w₃ h => ⟨h.moored, ?_⟩
      intro w' left
      exact ((charted_of_quiet (fun _ => held) quiet.moored).trans h).trans
        (charted_of_quiet (fun _ => left) h.moored)
  | initializeController b =>
      refine keeps_charted.mp (holdingController_charted calls ?_ b) w moored
      split
      · exact logSetup_charted calls own
      · next other => exact initialize_charted calls other own
  | handleClosing b =>
      exact keeps_charted.mp (holdingController_charted calls (closing_charted calls b) b) w moored
  | change f =>
      refine (ends_modify _ _ _).mpr ⟨[], .nothing (moored.withClient _) ?_ rfl, .idle⟩
      exact fun P s id h => by rwa [signal_setClient]
  | _ =>
      refine performAction_charted (β := β) calls fuel minded moored rfl ?_ ?_ ?_ <;>
        exact fun _ => by simp

end Calls

/-! ## All calls -/

/-- The connections of the bindings are the client's own in a logged run, too. -/
theorem bindsOwn_logged {β : Behaviour σ ε} (own : BindsOwn β) (depth : Nat) :
    BindsOwnBy (β.beside (Logbook σ)) (logged β c depth) := by
  intro b w bindings w' sound ran s id member
  have bare := bares_client (bare_logged β c depth) (β.connect b) w
  rw [show (logged β c depth).client ((β.connect b).beside (Logbook σ)) w = _ from ran] at bare
  have owned := own.runUnder depth (minding c) b w.bare bindings w'.bare
    (fun s => (signal_bare w s).symm ▸ sound s) bare.symm s id member
  rwa [Own, signal_bare] at owned

/-- Whatever runs, what is written down of a moored controller is a passage. -/
theorem logged_charted {β : Behaviour σ ε} (own : BindsOwn β) (depth : Nat)
    (call : Call σ (Noted (Logbook σ) ε)) : Keeps (Charted c) (logged β c depth call) := by
  induction depth generalizing call with
  | zero => exact fun _ _ _ h => by cases h
  | succ depth ih =>
      refine keeps_charted.mpr fun w moored r w' h => ?_
      simp only [logged] at h
      split at h
      -- A call that does not mind the controller comes to no end.
      · next admitted =>
          cases call with
          | slot slot notice =>
              exact keeps_charted.mp (serve_charted ih depth slot notice) w moored r w' h
          | task t =>
              have calls := fun call => (tracks_self _).mpr (ih call)
              have tracks := runTask_tracks (charted_composes c) (β.beside (Logbook σ)) calls t
              exact keeps_charted.mp tracks.keeps w moored r w' h
          | subscription code =>
              have tracks := (caretaker_charted ih).client ((β.beside (Logbook σ)).job code)
              exact keeps_charted.mp tracks.keeps w moored r w' h
          | action a =>
              exact action_charted ih (bindsOwn_logged own depth) depth admitted moored r w' h
      · cases h

/-! ## Runs from outside -/

section Runs

variable {β : Behaviour σ ε} {v v' : Ensemble σ ε} {log : List (Happening σ)}

/-- The controller is held, and nothing has been done to it, nor to any other. Nobody but client
    code is connected to anything. -/
structure Unused (c : Nat) (v : Ensemble σ ε) : Prop where
  sound : ∀ s, (v.signal s).Sound
  clients : ∀ s id k, v.slotAt s id = some k → k.isClient = true
  lines : ∀ l, v.lines l = []
  bindings : ∀ b, (v.controller b).bindings = []
  held : (v.controller c).held = true
  pair : (v.controller c).pair = ⟨none, none⟩
  initialized : (v.controller c).initialized = false
  closing : (v.controller c).closing = false

theorem unused_new (c : Nat) (client : ε) : Unused c (new client : Ensemble σ ε) where
  sound s := by
    rw [(fresh_new client).signals]
    exact Signal.sound_new
  clients s id k named := by
    rw [slotAt, (fresh_new client).signals, Signal.slot?_new] at named
    cases named
  lines l := by cases l <;> rfl
  bindings _ := rfl
  held := rfl
  pair := rfl
  initialized := rfl
  closing := rfl

theorem Unused.moored (unused : Unused c v) : Moored c v where
  sound := unused.sound
  lines l line member := by simp [unused.lines] at member
  own b s id member := by simp [unused.bindings] at member
  held := unused.held
  opened m bound := by cases (congrArg Pair.model unused.pair).symm.trans bound
  booked s id named := by cases unused.clients s id _ named
  plugged := .inl (unused.lines _)

/-- Client code may be connected to anything before. -/
theorem Unused.plugAll (unused : Unused c v) (d : Delivery) {ports : List (SignalRef × Slot σ)}
    (clients : ∀ port ∈ ports, port.2.isClient = true) :
    Unused c (Ensemble.plugAll d ports v).2 := by
  have only := onlySignals_plugAll d ports v
  have same {α : Type} (g : Controller σ → α) (deaf : ∀ o, g o.silent = g o) (b : Nat) :
      g ((Ensemble.plugAll d ports v).2.controller b) = g (v.controller b) :=
    only.of_controller g deaf b
  refine ⟨sound_plugAll d ports v unused.sound, fun s id k named => ?_, fun l => ?_, fun b => ?_,
    ?_, ?_, ?_, ?_⟩
  · rcases slotAt_plugAll_made d ports v unused.sound named with before | ⟨here, -⟩
    · exact unused.clients s id k before
    · exact clients _ here
  · exact (only.sameLink l).2.trans (unused.lines l)
  · exact (same (·.bindings) (fun _ => rfl) b).trans (unused.bindings b)
  · exact (same (·.held) (fun _ => rfl) c).trans unused.held
  · exact (same Controller.pair (fun _ => rfl) c).trans unused.pair
  · exact (same (·.initialized) (fun _ => rfl) c).trans unused.initialized
  · exact (same (·.closing) (fun _ => rfl) c).trans unused.closing

/-- Somebody listens to the phase of a new controller. -/
def attended : Ensemble Nat Nat :=
  (Ensemble.plugAll .direct [(.controllerPhase 0, .client 0)] (new 0)).2

theorem unused_attended : Unused 0 attended := (unused_new 0 0).plugAll .direct (by decide)

theorem Unused.standing (unused : Unused c v) :
    (v.controller c).standing = ⟨⟨none, none⟩, false, false, [], none⟩ := by
  have lines : (v.controller c).modelSubscriptions = [] := unused.lines (.model c)
  simp only [Controller.standing, Controller.listening, unused.pair, unused.initialized,
    unused.closing, unused.bindings, lines]

/-- It does not matter what is noted. -/
theorem moored_noted {notes : Logbook σ} : Moored c (v.noted notes) ↔ Moored c v := by
  have lines : ∀ l, (v.noted notes).lines l = v.lines l := fun l => by cases l <;> rfl
  exact ⟨fun moored => moored.of_parts (fun s => (signal_noted v notes s).symm)
    (fun l => (lines l).symm) fun _ => rfl,
    fun moored => moored.of_parts (signal_noted v notes) lines fun _ => rfl⟩

/-- A run of client code that minds a moored controller can be logged, and what is written down
    is a passage. -/
theorem exists_chart (own : BindsOwn β) (moored : Moored c v) {ρ : Type} {code : Client σ ε ρ}
    {depth : Nat} {r : ρ}
    (ran : (runUnder β depth (minding c)).client code v = some (r, v')) :
    ∃ b : Logbook σ, (logged β c depth).client (code.beside (Logbook σ)) (v.noted .empty) =
        some (r, v'.noted b) ∧ Heard c (v.noted .empty) (v'.noted b) b.entries ∧
      Passage false false .calls (v.controller c).standing (v'.controller c).standing
        b.entries := by
  obtain ⟨b, noted⟩ := exists_beside (bare_logged β c depth) ran Logbook.empty
  have calls : ∀ call, Keeps (Charted c) (logged β c depth call) := logged_charted own depth
  obtain ⟨log, heard, passage⟩ := ((caretaker_charted calls).client _).keeps _ _ _ noted
    (moored_noted.mpr moored)
  obtain rfl : b.entries = log := heard.entries
  exact ⟨b, noted, heard, passage⟩

/-! ## What a run leaves -/

/-- A controller listens to the model that is bound, by one connection, and to no other. -/
def ListensToModel (c : Nat) (v : Ensemble σ ε) : Prop :=
  match (v.controller c).model with
  | none => ∀ s id, v.slotAt s id ≠ some (.controllerData c)
  | some m => ∃ i, ∀ s id, v.slotAt s id = some (.controllerData c) ↔ s = .modelData m ∧ id = i

/-- If there is everything for bindings, the controller holds those that were made last, and they
    were made for the model and view that are bound. Otherwise it holds none. Of all others that
    were made, nothing is connected. -/
structure HoldsLatest (c : Nat) (v : Ensemble σ ε) (log : List (Happening σ)) : Prop where
  ready : isReady (v.controller c) = true → ∃ earlier,
    makings log = earlier ++ [((v.controller c).pair, (v.controller c).bindings)] ∧
      ∀ making ∈ earlier, ∀ s id, .connection s id ∈ making.2 → v.slotAt s id = none
  unready : isReady (v.controller c) = false → (v.controller c).bindings = [] ∧
    ∀ making ∈ makings log, ∀ s id, .connection s id ∈ making.2 → v.slotAt s id = none

theorem Moored.listens (moored : Moored c v)
    (same : (v.controller c).listening = (v.controller c).model) : ListensToModel c v := by
  unfold ListensToModel
  rcases moored.plugged with free | ⟨m, i, line, there⟩
  · have lines : (v.controller c).modelSubscriptions = [] := free
    have deaf : (v.controller c).listening = none := by simp only [Controller.listening, lines]
    rw [← same, deaf]
    intro s id named
    have booked := moored.booked s id named
    rw [free] at booked
    cases booked
  · have lines : (v.controller c).modelSubscriptions = [.connection (.modelData m) i] := line
    have bound : (v.controller c).listening = some m := by simp only [Controller.listening, lines]
    rw [bound] at same
    rw [← same]
    refine ⟨i, fun s id => ⟨fun named => ?_, ?_⟩⟩
    · have booked := moored.booked s id named
      rw [line, List.mem_singleton] at booked
      cases booked
      exact ⟨rfl, rfl⟩
    · rintro ⟨rfl, rfl⟩
      refine there.resolve_left fun closed => ?_
      rw [moored.opened m same.symm] at closed
      cases closed

/-- What was ended is not connected. -/
theorem Entered.slotAt_eq_none {b : Logbook σ} (entered : Entered c w (v.noted b) log)
    {s : SignalRef} {id : ConnectionId} (ended : .connection s id ∈ endings log) :
    v.slotAt s id = none := by
  refine Option.eq_none_iff_forall_ne_some.mpr fun k named => ?_
  have gone := entered.gone s id ended
  rw [signal_noted] at gone
  exact gone.property (signal_noted v b s ▸ entered.moored.sound s) named

/-- After a fair run the controller holds the latest bindings only, if there were none before. -/
theorem Entered.holdsLatest {b : Logbook σ} {s : Standing σ}
    (entered : Entered c w (v.noted b) log)
    (passage : Passage false false .calls s (v.controller c).standing log)
    (fair : Each IsFair log) (unready : s.isReady = false) (none : s.bindings = []) :
    HoldsLatest c v log := by
  have held := passage.held fair fun _ => none
  have balance := passage.balance
  have gone : ∀ (makings : List (Pair × List (Subscription σ))),
      (endings log).Perm (makings.flatMap (·.2)) →
      ∀ making ∈ makings, ∀ s id, .connection s id ∈ making.2 → v.slotAt s id = .none :=
    fun makings ended making member s id is => entered.slotAt_eq_none
      (ended.symm.subset (List.mem_flatMap.mpr ⟨making, member, is⟩))
  rw [none, List.nil_append] at balance
  constructor
  · intro ready
    obtain ⟨earlier, last⟩ := (held.last ready).resolve_right fun same => by
      cases unready.symm.trans same.2.2.1
    refine ⟨earlier, last, gone earlier ?_⟩
    rw [last, List.flatMap_append] at balance
    exact (List.perm_append_right_iff _).mp (by simpa using balance)
  · intro unready'
    have empty := held.none unready'
    rw [empty, List.append_nil] at balance
    exact ⟨empty, gone _ balance⟩

/-! ## Hooks that bind -/

/-- Whenever bindings are made, one slot of the client's is connected to the validity of the
    model that is bound. -/
def watchful (β : Behaviour σ ε) (code : σ) : Behaviour σ ε :=
  { β with
    connect := fun c => .look fun w =>
      match (w.controller c).model with
      | none => pure []
      | some m => .act (.connect (.modelValidity m) (.client code) .direct) fun id =>
        pure [.connection (.modelValidity m) id] }

/-- What client code connects is its own. -/
theorem own_of_connected {s : SignalRef} {k : Slot σ} {d : Delivery} {id : ConnectionId}
    (client : k.isClient = true) (sound : ∀ s, (v.signal s).Sound)
    (connected : connect s k d v = some (id, v')) : v'.Own s id := by
  obtain ⟨named, made⟩ := Prod.mk.inj (Option.some.inj connected)
  rw [← named, ← made, Own, signal_setSignal, if_pos rfl]
  exact Signal.settled_connect (sound s) client d

theorem bindsOwn_watchful (β : Behaviour σ ε) (code : σ) : BindsOwn (watchful β code) := by
  intro depth b w bindings w' sound ran s id member
  simp only [watchful, Runner.client, Program.run, get_bind] at ran
  cases bound : (w.controller b).model with
  | none =>
      rw [bound] at ran
      cases ran
      cases member
  | some m =>
      rw [bound] at ran
      cases depth with
      | zero => cases ran
      | succ depth =>
          obtain ⟨i, w₁, called, done⟩ := bind_eq_some.mp ran
          cases done
          obtain ⟨rfl, rfl⟩ := Subscription.connection.inj (List.mem_singleton.mp member)
          exact own_of_connected rfl sound called

end Runs

end Mvc.Ensemble
