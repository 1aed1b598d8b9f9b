import Mvc.Proofs.Moorings

/-! # Logged runs are passages

What is written down of a controller in the course of a run is a passage from how it stood
before to how it stands afterwards, as long as the controller is moored. Bindings that were ended
are gone for good, and whoever was connected to the phase all the time was given whatever was
announced.

Each operation adds to the logbook what its parts add, so this is shown for single operations
first, with what they set off as a hypothesis, and then for whole runs by induction on their
depth.
-/

namespace Mvc.Ensemble

open Proc Happening

variable {σ ε : Type} {c : Nat} {w w₁ w' : Ensemble σ (Noted (Logbook σ) ε)}
  {log a b : List (Happening σ)}

/-! ## What is added to a logbook -/

/-- A controller is still moored, and something was written down. Whatever bindings it says have
    come to an end are gone. -/
structure Entered (c : Nat) (w w' : Ensemble σ (Noted (Logbook σ) ε))
    (log : List (Happening σ)) : Prop where
  moored : Moored c w'
  settled : StaySettled w w'
  entries : w'.client.notes.entries = w.client.notes.entries ++ log
  busy : w'.client.notes.busy = w.client.notes.busy
  telling : w'.client.notes.telling = w.client.notes.telling
  gone : ∀ s id, .connection s id ∈ endings log → (w'.signal s).Settled (fun _ => False) id

/-- And whoever was connected all the time was given all that was announced. -/
structure Heard (c : Nat) (w w' : Ensemble σ (Noted (Logbook σ) ε))
    (log : List (Happening σ)) : Prop extends Entered c w w' log where
  heard : ∀ listener, (w.signal (.controllerPhase c)).isConnected listener = true →
    (w'.signal (.controllerPhase c)).isConnected listener = true → Each IsPrompt log →
    givens listener log = tolds log

/-- And all that is a part of a passage. -/
def ChartedAs (part : Part) (c : Nat) (w w' : Ensemble σ (Noted (Logbook σ) ε)) : Prop :=
  ∃ log, Heard c w w' log ∧ Passage w.client.notes.busy w.client.notes.telling part
    (w.controller c).standing (w'.controller c).standing log

/-- What happens to a moored controller is a passage. -/
def Charted (c : Nat) (w w' : Ensemble σ (Noted (Logbook σ) ε)) : Prop :=
  Moored c w → ChartedAs .calls c w w'

/-- Who is connected before and after is connected in between. -/
theorem isConnected_between {s : SignalRef} {id : ConnectionId} (first : StaySettled w w₁)
    (second : StaySettled w₁ w') (sound : (w'.signal s).Sound)
    (before : (w.signal s).isConnected id = true) (after : (w'.signal s).isConnected id = true) :
    (w₁.signal s).isConnected id = true := by
  obtain ⟨entry, named⟩ := Option.isSome_iff_exists.mp before
  have settled : (w.signal s).Settled (fun _ => True) id :=
    .inr (.inr ⟨entry.slot, Option.map_eq_some_iff.mpr ⟨entry, named, rfl⟩, trivial⟩)
  cases between : (w₁.signal s).registry.get? id with
  | some entry => exact Option.isSome_iff_exists.mpr ⟨entry, between⟩
  | none =>
      have gone := second _ s id ((first _ s id settled).gone (by simp [Signal.slot?, between]))
      obtain ⟨entry, named⟩ := Option.isSome_iff_exists.mp after
      exact (gone.property sound (Option.map_eq_some_iff.mpr ⟨entry, named, rfl⟩)).elim

theorem Moored.withClient (moored : Moored c w) (client : Noted (Logbook σ) ε) :
    Moored c { w with client } :=
  moored.of_parts (signal_setClient w client) (fun l => by cases l <;> rfl) fun _ => rfl

namespace Entered

theorem nothing (moored : Moored c w') (settled : StaySettled w w')
    (notes : w'.client.notes = w.client.notes) : Entered c w w' [] :=
  ⟨moored, settled, by simp [notes], by rw [notes], by rw [notes], by simp⟩

theorem trans (first : Entered c w w₁ a) (second : Entered c w₁ w' b) :
    Entered c w w' (a ++ b) where
  moored := second.moored
  settled P s id h := second.settled P s id (first.settled P s id h)
  entries := by rw [second.entries, first.entries, List.append_assoc]
  busy := second.busy.trans first.busy
  telling := second.telling.trans first.telling
  gone s id member := by
    rw [endings_append] at member
    rcases List.mem_append.mp member with before | here
    · exact second.settled _ s id (first.gone s id before)
    · exact second.gone s id here

theorem enter (moored : Moored c w) (e : Happening σ)
    (gone : ∀ s id, .connection s id ∈ e.ending → (w.signal s).Settled (fun _ => False) id) :
    Entered c w (enter e w) [e] where
  moored := moored.withClient _
  settled P s id h := by
    rw [Ensemble.enter, signal_setClient]
    exact h
  entries := rfl
  busy := rfl
  telling := rfl
  gone s id member := by
    rw [Ensemble.enter, signal_setClient]
    exact gone s id (by simpa using member)

end Entered

namespace Heard

theorem nothing (moored : Moored c w') (settled : StaySettled w w')
    (notes : w'.client.notes = w.client.notes) : Heard c w w' [] where
  toEntered := .nothing moored settled notes
  heard _ _ _ _ := rfl

theorem quiet (quiet : Quiet c w w') : Heard c w w' [] :=
  .nothing quiet.moored quiet.settled (congrArg _ quiet.client)

/-- The controller changes, but keeps its model and its line to it. -/
theorem update (moored : Moored c w) {f : Controller σ → Controller σ}
    (spared : ∀ o, (f o).phaseChanged = o.phaseChanged ∧ (f o).errorOccurred = o.errorOccurred ∧
      (f o).operationCompleted = o.operationCompleted)
    (viewLines : ∀ line ∈ (f (w.controller c)).viewSubscriptions, line ∈ w.lines (.view c))
    (own : ∀ s id, .connection s id ∈ (f (w.controller c)).bindings →
      .connection s id ∈ (w.controller c).bindings ∨ w.Own s id)
    (kept : ∀ o, (f o).held = o.held ∧ (f o).model = o.model ∧
      (f o).modelSubscriptions = o.modelSubscriptions) :
    Heard c w (updateController c f w) [] := by
  refine .nothing (moored.updateController spared (fun line member => .inl ?_)
    (fun line member => .inl (viewLines line member)) own fun _ => kept _)
    (Moored.staySettled_updateController c spared) rfl
  rwa [(kept _).2.2] at member

theorem trans (first : Heard c w w₁ a) (second : Heard c w₁ w' b) : Heard c w w' (a ++ b) where
  toEntered := first.toEntered.trans second.toEntered
  heard listener before after prompt := by
    have between := isConnected_between first.settled second.settled (second.moored.sound _)
      before after
    rw [each_append] at prompt
    rw [givens_append, tolds_append, first.heard listener before between prompt.1,
      second.heard listener between after prompt.2]

/-- Something is written down that is no announcement. -/
theorem enter (moored : Moored c w) (e : Happening σ)
    (gone : ∀ s id, .connection s id ∈ e.ending → (w.signal s).Settled (fun _ => False) id)
    (quiet : e.toldPhase = [] ∧ ∀ listener, e.givenPhase listener = []) :
    Heard c w (Ensemble.enter e w) [e] where
  toEntered := .enter moored e gone
  heard listener _ _ _ := by
    rw [givens_cons, tolds_cons, quiet.1, quiet.2]
    rfl

end Heard

theorem charted_of_quiet (quiet : Moored c w → Quiet c w w') : Charted c w w' := by
  intro moored
  refine ⟨[], .quiet (quiet moored), ?_⟩
  rw [(quiet moored).standing]
  exact .idle

theorem ChartedAs.trans (first : ChartedAs .calls c w w₁)
    (second : ChartedAs .calls c w₁ w') : ChartedAs .calls c w w' := by
  obtain ⟨a, heard, passage⟩ := first
  obtain ⟨b, heard', passage'⟩ := second
  rw [heard.busy, heard.telling] at passage'
  exact ⟨a ++ b, heard.trans heard', passage.andThen passage'⟩

theorem ChartedAs.moored {part : Part} (charted : ChartedAs part c w w') : Moored c w' := by
  obtain ⟨log, heard, -⟩ := charted
  exact heard.moored

theorem ChartedAs.settled {part : Part} (charted : ChartedAs part c w w') : StaySettled w w' := by
  obtain ⟨log, heard, -⟩ := charted
  exact heard.settled

theorem charted_composes (c : Nat) : Composes (Charted (σ := σ) (ε := ε) c) where
  refl _ := charted_of_quiet fun moored => .refl moored
  trans first second moored := (first moored).trans (second (first moored).moored)

theorem keeps_charted {α : Type} {p : Proc (Ensemble σ (Noted (Logbook σ) ε)) α} :
    Keeps (Charted c) p ↔ ∀ w, Moored c w → Ends p w fun _ w' => ChartedAs .calls c w w' := by
  constructor
  · exact fun keeps w moored r w' h => keeps w r w' h moored
  · exact fun ends w r w' h moored => ends w moored r w' h

/-- What comes next sees what happened so far. -/
theorem ChartedAs.bind {α γ : Type} {p : Proc (Ensemble σ (Noted (Logbook σ) ε)) α}
    {f : α → Proc (Ensemble σ (Noted (Logbook σ) ε)) γ}
    (first : Ends p w fun r w₁ => ChartedAs .calls c w w₁ ∧
      Ends (f r) w₁ fun _ w' => ChartedAs .calls c w₁ w') :
    Ends (p >>= f) w fun _ w' => ChartedAs .calls c w w' :=
  .bind (first.mono fun _ _ h => h.2.mono fun _ _ rest => h.1.trans rest)

theorem keeps_of_quiet {α : Type} {p : Proc (Ensemble σ (Noted (Logbook σ) ε)) α}
    (quiet : ∀ w, Moored c w → Ends p w fun _ w' => Quiet c w w') : Keeps (Charted c) p :=
  fun w r w' h => charted_of_quiet fun moored => quiet w moored r w' h

/-! ## Operations in general -/

section Calls

variable {run : Runner σ (Noted (Logbook σ) ε)} {β : Behaviour σ (Noted (Logbook σ) ε)}
  (calls : ∀ call, Keeps (Charted c) (run call))

theorem charted_updateDispatcher (d : Nat) (f : Dispatcher (Task σ) → Dispatcher (Task σ)) :
    Charted c w (updateDispatcher d f w) :=
  charted_of_quiet fun moored => moored.of_same (signal_updateDispatcher w d f) (fun _ => rfl)
    (fun _ => rfl) rfl

include calls

theorem emit_charted (s : SignalRef) (notice : Notice) :
    Tracks (Charted c) (emit run s notice) (emit run s notice) :=
  emit_tracks (charted_composes c) s notice
    (fun slot => (tracks_self _).mpr (calls (.slot slot notice)))
    fun _ d _ => charted_updateDispatcher d _

/-- Subscriptions are ended that are not the controller's. -/
theorem releaseAll_charted {subscriptions : List (Subscription σ)} (moored : Moored c w)
    (apart : ∀ line ∈ subscriptions, Apart c w line) :
    Ends (releaseAll run subscriptions) w fun _ w' => ChartedAs .calls c w w' ∧
      ∀ s id, .connection s id ∈ subscriptions → (w'.signal s).Settled (fun _ => False) id := by
  induction subscriptions generalizing w with
  | nil => exact (ends_pure () w _).mpr ⟨charted_of_quiet (fun _ => .refl moored) moored, by simp⟩
  | cons first rest ih =>
      -- Whatever the first one does, it is gone, and remains so while the others come to an end.
      have onward : ∀ {w₁}, ChartedAs .calls c w w₁ →
          (∀ s id, first = .connection s id → (w₁.signal s).Settled (fun _ => False) id) →
          Ends (releaseAll run rest) w₁ fun _ w' => ChartedAs .calls c w w' ∧ ∀ s id,
            .connection s id ∈ first :: rest → (w'.signal s).Settled (fun _ => False) id := by
        intro w₁ charted gone
        refine (ih charted.moored fun line member => ?_).mono fun _ w' h => ?_
        · exact (apart line (List.mem_cons_of_mem _ member)).later charted.settled
        · refine ⟨charted.trans h.1, fun s id member => ?_⟩
          rcases List.mem_cons.mp member with same | later
          · exact h.1.settled _ s id (gone s id same.symm)
          · exact h.2 s id later
      refine .bind ?_
      cases first with
      | connection s id =>
          have apart := apart _ List.mem_cons_self
          have quiet := moored.cut _ fun s id => moored.slot_ne apart
          have cutting : release run (.connection s id) w =
            some ((), Ensemble.cut (.connection s id) w) := rfl
          refine (ends_of_eq cutting).mpr (onward (charted_of_quiet (fun _ => quiet) moored) ?_)
          intro t i same
          cases same
          refine (settled_cut _ w (apart s id rfl)).gone ?_
          exact Option.eq_none_iff_forall_ne_some.mpr fun k named =>
            ((slotAt_cut _ w).mp named).1 rfl
      | client code =>
          refine Ends.mono (keeps_charted.mp (calls (.subscription code)) w moored) fun _ w₁ h => ?_
          exact onward h fun _ _ same => by cases same

/-- Subscriptions are ended that are not the controller's, and more of them. -/
theorem releaseBoth_charted {first second : List (Subscription σ)} {α : Type}
    {rest : Proc (Ensemble σ (Noted (Logbook σ) ε)) α}
    {post : α → Ensemble σ (Noted (Logbook σ) ε) → Prop} (moored : Moored c w)
    (apart : ∀ line ∈ first, Apart c w line) (apart' : ∀ line ∈ second, Apart c w line)
    (onward : ∀ w₁, ChartedAs .calls c w w₁ →
      (∀ s id, .connection s id ∈ second → (w₁.signal s).Settled (fun _ => False) id) →
      Ends rest w₁ post) :
    Ends (do releaseAll run first; releaseAll run second; rest) w post := by
  refine .bind ((releaseAll_charted calls moored apart).mono fun _ w₁ h => ?_)
  refine .bind ((releaseAll_charted calls h.1.moored fun line member =>
    (apart' line member).later h.1.settled).mono fun _ w₂ h' => ?_)
  exact onward w₂ (h.1.trans h'.1) h'.2

/-- A controller is taken apart if nobody holds it, but the moored one is held. -/
theorem collectController_charted (b : Nat) : Keeps (Charted c) (collectController run b) := by
  refine keeps_charted.mpr fun w moored => ?_
  refine .get_bind ?_
  dsimp only
  split
  · exact (ends_pure () w _).mpr (charted_of_quiet (fun _ => .refl moored) moored)
  · next dead =>
      have other : b ≠ c := by
        rintro rfl
        simp [Controller.isAlive, moored.held] at dead
      have taken := moored.takeController other
      have apart : ∀ line ∈ (w.controller b).modelSubscriptions ++
          (w.controller b).viewSubscriptions ++ (w.controller b).bindings, Apart c w line := by
        simp only [List.forall_mem_append]
        refine ⟨⟨moored.apart (l := .model b) ?_, moored.apart (l := .view b) (by simp)⟩,
          moored.apart_bindings b⟩
        exact fun same => other (Link.model.inj same)
      have ending : ∀ w₁, Quiet c w w₁ → Ends (do
          releaseAll run ((w.controller b).modelSubscriptions ++
            (w.controller b).viewSubscriptions ++ (w.controller b).bindings)
          modify (shutController b)) w₁ fun _ w' => ChartedAs .calls c w w' := by
        intro w₁ quiet
        refine .bind ?_
        refine (releaseAll_charted calls quiet.moored fun line member =>
          (apart line member).later quiet.settled).mono fun _ w₂ h => (ends_modify _ _ _).mpr ?_
        have before := (charted_of_quiet (fun _ => quiet) moored).trans h.1
        exact before.trans
          (charted_of_quiet (fun moored => moored.shutController b) before.moored)
      refine .modify_bind ?_
      cases (w.controller b).view with
      | none => exact ending _ taken
      | some v =>
          refine .bind ((taken.moored.collectView run v).mono fun _ w₁ left => ?_)
          exact ending w₁ (taken.trans left)

/-- A controller is held during a procedure. -/
theorem holdingController_ends {α : Type} {p : Proc (Ensemble σ (Noted (Logbook σ) ε)) α} (b : Nat)
    (moored : Moored c w) (inner : ∀ w₁, Quiet c w w₁ → (∀ s, w₁.signal s = w.signal s) →
      Ends p w₁ fun _ w₂ => ChartedAs .calls c w₁ w₂) :
    Ends (holdingController run b p) w fun _ w' => ChartedAs .calls c w w' := by
  have pins : ∀ (pins : Controller σ → Nat) {w : Ensemble σ (Noted (Logbook σ) ε)}, Moored c w →
      Quiet c w (updateController b (fun o => { o with pins := pins o }) w) := fun pins _ moored =>
    moored.lifecycle b pins (·.held) (·.initialized) (·.closing) fun _ _ => ⟨rfl, rfl, rfl⟩
  have held := pins (·.pins + 1) moored
  refine .modify_bind ?_
  refine .bind ((inner _ held
    (signal_updateController w b fun _ => ⟨rfl, rfl, rfl⟩)).mono fun r w₂ h => ?_)
  have before := (charted_of_quiet (fun _ => held) moored).trans h
  have freed := charted_of_quiet (pins (·.pins - 1)) before.moored
  refine .modify_bind ?_
  refine .bind
    ((keeps_charted.mp (collectController_charted calls b) _ freed.moored).mono fun _ w' left => ?_)
  exact (ends_pure r w' _).mpr (before.trans (freed.trans left))

theorem holdingController_charted {α : Type} {p : Proc (Ensemble σ (Noted (Logbook σ) ε)) α}
    (keeps : Keeps (Charted c) p) (b : Nat) : Keeps (Charted c) (holdingController run b p) :=
  keeps_charted.mpr fun _ moored => holdingController_ends calls b moored fun w₁ quiet _ =>
    keeps_charted.mp keeps w₁ quiet.moored

omit calls in
theorem collectView_charted (v : Nat) : Keeps (Charted c) (collectView run v) :=
  keeps_of_quiet fun _ moored => moored.collectView run v

omit calls in
theorem charted_updateView (v : Nat) {f : View σ → View σ}
    (spared : ∀ o, (f o).userAction = o.userAction ∧ (f o).viewClosing = o.viewClosing ∧
      (f o).viewUpdate = o.viewUpdate)
    (attachment : ∀ o, (f o).attachment = o.attachment)
    (w : Ensemble σ (Noted (Logbook σ) ε)) : Charted c w (updateView v f w) :=
  charted_of_quiet fun moored => moored.updateView v spared attachment

omit calls in
/-- The view that was bound is held, if there is one, while something is done that may concern
    the controller. -/
theorem holdingView?_ends {v : Option Nat} {p : Proc (Ensemble σ (Noted (Logbook σ) ε)) Unit}
    {P : Ensemble σ (Noted (Logbook σ) ε) → Prop} (moored : Moored c w)
    (inner : ∀ w₁, Quiet c w w₁ → Ends p w₁ fun _ w₂ =>
      Moored c w₂ ∧ ∀ w', Quiet c w₂ w' → P w') :
    Ends (holdingView? run v p) w fun _ w' => P w' := by
  cases v with
  | none => exact (inner w (.refl moored)).mono fun _ w₂ h => h.2 w₂ (.refl h.1)
  | some v =>
      have pins : ∀ (pins : View σ → Nat) (w : Ensemble σ (Noted (Logbook σ) ε)), Moored c w →
          Quiet c w (updateView v (fun o => { o with pins := pins o }) w) := fun pins w moored =>
        moored.updateView v (by exact fun _ => ⟨rfl, rfl, rfl⟩) (by exact fun _ => rfl)
      refine .modify_bind ?_
      refine .bind ((inner _ (pins _ w moored)).mono fun _ w₂ h => ?_)
      refine .modify_bind ?_
      have unpinned := pins (·.pins - 1) w₂ h.1
      refine .bind ((unpinned.moored.collectView run v).mono fun _ w₃ left => ?_)
      exact (ends_pure () w₃ _).mpr (h.2 w₃ (unpinned.trans left))

omit calls in
/-- A view is held during a procedure. -/
theorem holdingView_charted {α : Type} {p : Proc (Ensemble σ (Noted (Logbook σ) ε)) α}
    (keeps : Keeps (Charted c) p) (v : Nat) : Keeps (Charted c) (holdingView run v p) := by
  have order := charted_composes (σ := σ) (ε := ε) c
  refine (tracks_self _).mp (.bind order (.modify ?_) fun _ => ?_)
  · exact charted_updateView v (fun _ => ⟨rfl, rfl, rfl⟩) fun _ => rfl
  refine .bind order ((tracks_self _).mpr keeps) fun r => .bind order (.modify ?_) fun _ => ?_
  · exact charted_updateView v (fun _ => ⟨rfl, rfl, rfl⟩) fun _ => rfl
  exact .bind order ((tracks_self _).mpr (collectView_charted v)) fun _ => .pure order r

theorem caretaker_charted : Caretaker (Charted c) run run where
  order := charted_composes c
  action a := (tracks_self _).mpr (calls (.action a))
  drain d fuel := drain_tracks (charted_composes c)
    (fun t => (tracks_self _).mpr (calls (.task t))) (fun _ d f => charted_updateDispatcher d f)
    d fuel
  emit s notice _ := emit_charted calls s notice
  thread w t := charted_of_quiet fun moored =>
    moored.of_same (signal_setThread w t) (fun _ => rfl) (fun _ => rfl) rfl
  post _ d code := charted_updateDispatcher d _
  model w m store initialized := charted_of_quiet fun moored =>
    moored.of_same (signal_updateModel w m fun _ => ⟨rfl, rfl, rfl⟩) (fun _ => rfl) (fun _ => rfl)
      rfl
  view w v initialized enabled :=
    charted_updateView v (by exact fun _ => ⟨rfl, rfl, rfl⟩) (by exact fun _ => rfl) w
  holdingController b p q tracks := ((covers_self run).holdingController b tracks.anyhow).keeping
    (holdingController_charted calls tracks.keeps b)
  holdingView v p q tracks := ((covers_self run).holdingView v tracks.anyhow).keeping
    (holdingView_charted tracks.keeps v)

/-! ## What is done to other controllers -/

section Others

omit calls in
theorem attach_charted (v : Nat) (b : Option Nat) : Keeps (Charted c) (attach run v b) :=
  keeps_of_quiet fun _ moored => moored.attach run v b

variable {b : Nat} (other : b ≠ c)
include other

theorem bindings_charted (own : BindsOwnBy β run) :
    Keeps (Charted c) (establishBindings run β b) := by
  refine keeps_charted.mpr fun w moored => .bind fun bindings w₁ h => ?_
  have before := ((caretaker_charted calls).client (β.connect b)).keeps w bindings w₁ h moored
  have bound := before.moored.bindings other (own b w bindings w₁ moored.sound h)
  refine .get_bind ?_
  refine .modify_bind ?_
  refine (releaseAll_charted calls bound.moored fun line member => ?_).mono fun _ w' h => ?_
  · exact (before.moored.apart_bindings b line member).later bound.settled
  · exact before.trans ((charted_of_quiet (fun _ => bound) before.moored).trans h.1)

theorem rebindIfReady_charted (own : BindsOwnBy β run) :
    Keeps (Charted c) (rebindIfReady run β b) := by
  have order := charted_composes (σ := σ) (ε := ε) c
  refine (tracks_self _).mp (.bind order (.get order) fun w => .ite ?_ (.pure order ()))
  exact (tracks_self _).mpr (bindings_charted calls other own)

theorem announce_charted (own : BindsOwnBy β run) : Keeps (Charted c) (announce run β b) := by
  have order := charted_composes (σ := σ) (ε := ε) c
  refine (tracks_self _).mp (.bind order ?_ fun _ => (caretaker_charted calls).emitPhase b)
  exact (tracks_self _).mpr (rebindIfReady_charted calls other own)

theorem initialize_charted (own : BindsOwnBy β run) :
    Keeps (Charted c) (initializeController run β b) := by
  have order := charted_composes (σ := σ) (ε := ε) c
  have k := caretaker_charted calls
  refine (tracks_self _).mp (.bind order (.get order) fun w => .ite (.pure order _) ?_)
  refine .bind order (k.client _) fun result => ?_
  cases result with
  | error e => exact .pure order _
  | ok r =>
      refine .bind order (.modify fun w => charted_of_quiet fun moored => moored.lifecycle b
        (·.pins) (·.held) (fun _ => true) (·.closing) fun same => absurd same other) fun _ => ?_
      refine .bind order ((tracks_self _).mpr (rebindIfReady_charted calls other own)) fun _ => ?_
      exact .bind order (k.emitPhase b) fun _ => .pure order _

theorem handleClosing_charted : Keeps (Charted c) (handleClosing run β b) :=
  ((caretaker_charted calls).handleClosing b fun _ => charted_of_quiet fun moored =>
    moored.lifecycle b (·.pins) (·.held) (·.initialized) (fun _ => true)
      fun same => absurd same other).keeps

theorem setModel_charted (own : BindsOwnBy β run) (m : Option Nat) :
    Keeps (Charted c) (setModel run β b m) := by
  have announced := announce_charted calls other own
  have link : Link.model b ≠ .model c := fun same => other (Link.model.inj same)
  refine keeps_charted.mpr fun w moored => ?_
  refine .get_bind ?_
  dsimp only
  split
  · exact (ends_pure () w _).mpr (charted_of_quiet (fun _ => .refl moored) moored)
  have torn := moored.rebindModel other m
  refine ChartedAs.bind ((ends_modify _ _ _).mpr ⟨charted_of_quiet (fun _ => torn) moored, ?_⟩)
  refine releaseBoth_charted calls torn.moored (w := updateController b (rebindModel m) w)
    (fun line member => (moored.apart link line member).later torn.settled)
    (fun line member => (moored.apart_bindings b line member).later torn.settled) ?_
  rintro w₁ charted -
  have moored₁ := charted.moored
  -- The outer operation goes on with its own model, whatever was bound in between.
  suffices rest : Ends _ w₁ fun _ w' => ChartedAs .calls c w₁ w' from
    rest.mono fun _ _ h => charted.trans h
  cases m with
  | none => exact keeps_charted.mp announced w₁ moored₁
  | some i =>
      have links := link_modelPorts (σ := σ) b i
      have plugged := moored₁.plugAll (modelDelivery w₁ b) (modelPorts b i)
        fun port member => by simp [links port member, other]
      have lined := plugged.moored.lineModel other
        (isLine_of_plugged (plugged_plugAll (modelDelivery w₁ b) _ w₁ moored₁.sound links))
      refine ChartedAs.bind ((ends_of_eq (subscribeToModel_eq b i w₁)).mpr
        ⟨charted_of_quiet (fun _ => plugged) moored₁, ?_⟩)
      refine .get_bind ?_
      refine ChartedAs.bind ((ends_modify _ _ _).mpr
        ⟨charted_of_quiet (fun _ => lined) plugged.moored, ?_⟩)
      refine ChartedAs.bind ((releaseAll_charted calls lined.moored fun line member =>
        (plugged.moored.apart link line member).later lined.settled).mono fun _ w₂ h => ⟨h.1, ?_⟩)
      exact keeps_charted.mp announced w₂ h.1.moored

omit calls other in
/-- A controller listens to a view and is listened to, and something follows. -/
theorem joinView_ends {rest : Proc (Ensemble σ (Noted (Logbook σ) ε)) Unit}
    {post : Unit → Ensemble σ (Noted (Logbook σ) ε) → Prop} (v : Nat) (moored : Moored c w)
    (onward : ∀ w', Quiet c w w' → Ends rest w' post) :
    Ends (do
      let subscriptions ← subscribeToView b v
      let previous := ((← get).controller b).viewSubscriptions
      modify (updateController b fun o => { o with viewSubscriptions := subscriptions })
      releaseAll run previous
      attach run v (some b)
      rest) w post := by
  have links := link_viewPorts (σ := σ) b v
  have plugged := moored.plugAll .direct (viewPorts b v)
    fun port member => by simp [links port member]
  have lined := plugged.moored.lineView b
    (isLine_of_plugged (plugged_plugAll .direct _ w moored.sound links))
  have tied := lined.trans (lined.moored.cutAll fun line member =>
    (plugged.moored.apart (l := .view b) (by simp) line member).later lined.settled)
  refine .bind_of_eq (subscribeToView_eq b v w) ?_
  refine .get_bind ?_
  refine .modify_bind ?_
  refine .bind_of_eq (releaseAll_connections _ _ run (plugged.moored.isConnection (.view b))) ?_
  refine .bind ((tied.moored.attach run v (some b)).mono fun _ w' attached => ?_)
  exact onward w' (plugged.trans (tied.trans attached))

omit other in
/-- Lines and bindings end, and then the view that was bound is freed. -/
theorem leaveView_charted {first second : List (Subscription σ)} (old : Option Nat)
    (moored : Moored c w) (apart : ∀ line ∈ first, Apart c w line)
    (apart' : ∀ line ∈ second, Apart c w line) :
    Ends (do
      releaseAll run first
      releaseAll run second
      match old with
      | none => pure ()
      | some v => unbindView run b v) w fun _ w' => ChartedAs .calls c w w' ∧
        ∀ s id, .connection s id ∈ second → (w'.signal s).Settled (fun _ => False) id := by
  refine releaseBoth_charted calls moored apart apart' fun w₁ charted gone => ?_
  have freeing : Keeps (Charted c) (match old with
      | none => pure ()
      | some v => unbindView run b v) := by
    have order := charted_composes (σ := σ) (ε := ε) c
    refine (tracks_self _).mp ?_
    cases old with
    | none => exact .pure order ()
    | some v =>
        refine .bind order (.get order) fun w => .ite ?_ (.pure order ())
        exact (tracks_self _).mpr (attach_charted v none)
  refine (keeps_charted.mp freeing w₁ charted.moored).mono fun _ w₂ h => ?_
  exact ⟨charted.trans h, fun s id member => h.settled _ s id (gone s id member)⟩

theorem setView_charted (own : BindsOwnBy β run) (v : Option Nat) :
    Keeps (Charted c) (setView run β b v) := by
  have announced := announce_charted calls other own
  refine keeps_charted.mpr fun w moored => ?_
  refine .get_bind ?_
  dsimp only
  split
  · exact (ends_pure () w _).mpr (charted_of_quiet (fun _ => .refl moored) moored)
  refine ChartedAs.bind ((holdingView?_ends moored fun w₁ quiet => ?_).mono fun _ w₂ charted =>
    (⟨charted, ?_⟩ : ChartedAs .calls c w w₂ ∧ _))
  · have torn := quiet.moored.rebindView other v
    have before := quiet.trans torn
    refine .modify_bind ?_
    refine (leaveView_charted calls (w.controller b).view torn.moored
      (fun line member =>
        (moored.apart (l := .view b) (by simp) line member).later before.settled)
      fun line member => (moored.apart_bindings b line member).later before.settled).mono ?_
    refine fun _ w₂ h => ⟨h.1.moored, fun w' left => ?_⟩
    exact ((charted_of_quiet (fun _ => before) moored).trans h.1).trans
      (charted_of_quiet (fun _ => left) h.1.moored)
  · cases v with
    | none => exact keeps_charted.mp announced w₂ charted.moored
    | some x =>
        refine joinView_ends x charted.moored fun w₃ joined => ?_
        refine (keeps_charted.mp announced w₃ joined.moored).mono fun _ _ h => ?_
        exact (charted_of_quiet (fun _ => joined) charted.moored).trans h

end Others

end Calls

end Mvc.Ensemble
