import Mvc.Proofs.Holding
import Mvc.Proofs.Ordinary

/-! # Traffic

Traffic is all that client code may do between bindings: write to models, emit, connect and
disconnect slots of its own, queue and drain, initialize, close and drop. It binds nothing,
and it leaves alone the connections and signals that are not its own. Traffic keeps an
ensemble intact, within a frame, whatever it sets off.
-/

namespace Mvc.Ensemble

open Proc

variable {σ ε : Type}

/-- Whether an id names no slot of a link. -/
def isSpare (w : Ensemble σ ε) (s : SignalRef) (id : ConnectionId) : Bool :=
  ((w.slotAt s id).map (·.isClient)).getD true

/-- Whether a controller is bound to a model, so that the model is kept. -/
def isModelBound (w : Ensemble σ ε) (m : Nat) : Bool :=
  w.controllers.members.any fun (_, c) => c.model == some m

/-- What client code may do that does not bind. -/
def traffic (w : Ensemble σ ε) : Action σ ε → Bool
  | .connect _ slot _ => slot.isClient
  | .disconnect s id => w.isSpare s id
  | .release (.connection s id) => w.isSpare s id
  | .disconnectAll s => (w.signal s).connections.all fun c => c.2.slot.isClient
  | .close (.channel _) => true
  | .close (.modelProperty m) | .close (.modelData m) | .close (.modelValidity m) =>
    !w.isModelBound m
  | .close _ => false
  | .setModel .. | .setView .. | .attach .. => false
  | _ => true

/-- Client code that does not bind. -/
def trafficOnly : Discipline σ ε := ⟨traffic, traffic⟩

/-- The connections that a controller subscribes to for a pair of model and view are made
    by the client. -/
def BindsOwnBy (β : Behaviour σ ε) (run : Runner σ ε) : Prop :=
  ∀ c w bindings w', (∀ s, (w.signal s).Sound) →
    run.client (β.connect c) w = some (bindings, w') →
    ∀ s id, .connection s id ∈ bindings → w'.Own s id

/-- However deep calls may nest. -/
def BindsOwn (β : Behaviour σ ε) : Prop := ∀ depth, BindsOwnBy β (run β depth)

variable {torn : Option Link} {w : Ensemble σ ε}

theorem model_ne_of_not_isModelBound {m c : Nat} (unbound : w.isModelBound m = false) :
    (w.controller c).model ≠ some m := by
  intro bound
  rcases w.controllers.get_cases c with new | listed
  · rw [controller, new] at bound
    cases bound
  · have := List.any_eq_false.mp unbound _ listed
    simp only [controller] at bound
    simp [bound] at this

theorem isClient_of_isSpare {s : SignalRef} {id : ConnectionId} (spare : w.isSpare s id = true)
    {k : Slot σ} (named : w.slotAt s id = some k) : k.isClient = true := by
  simpa [isSpare, named] using spare

theorem traffic_thread (w : Ensemble σ ε) (thread : Thread) (a : Action σ ε) :
    traffic { w with thread } a = w.traffic a := by
  cases a with
  | disconnect s id | disconnectAll s | close s => cases s <;> rfl
  | release subscription =>
      cases subscription with
      | connection s id => cases s <;> rfl
      | client code => rfl
  | _ => rfl

/-! ## Signals -/

theorem Intact.connect (intact : Intact torn w) (s : SignalRef) {k : Slot σ}
    (client : k.isClient = true) (d : Delivery) :
    let w' := Ensemble.setSignal s ((w.signal s).connect k d).2 w
    Intact torn w' ∧ Routine w w' := by
  have sound := intact.wired.sound s
  refine intact.setSignal (sound.connect k d) ?_ ?_ ?_ ?_ ?_
  · exact fun h => by rw [Signal.closed_connect, h]
  · exact fun demanded => by rw [Signal.closed_connect, intact.standing s demanded]
  · exact fun P id settled => settled.connect sound k d
  · intro id k' l named _
    cases closed : (w.signal s).closed with
    | true => exact .inl (by rw [Signal.closed_connect, closed])
    | false =>
        refine .inr ?_
        rw [Signal.slot?_connect sound closed, if_neg ?_]
        · exact named
        · intro same
          rw [slotAt, same, Signal.slot?_connect_self sound closed] at named
          cases named
  · intro id k' l named link
    cases closed : (w.signal s).closed with
    | true => rwa [Signal.connect_of_closed closed] at named
    | false =>
        rw [Signal.slot?_connect sound closed] at named
        split at named
        · cases named
          rw [Slot.not_isClient_of_link link] at client
          cases client
        · exact named

theorem Intact.disconnectAll (intact : Intact torn w) {s : SignalRef}
    (clients : (w.signal s).connections.all (fun c => c.2.slot.isClient) = true) :
    let w' := Ensemble.setSignal s (w.signal s).disconnectAll w
    Intact torn w' ∧ Routine w w' := by
  have sound := intact.wired.sound s
  refine intact.setSignal sound.disconnectAll id (intact.standing s) ?_ ?_ ?_
  · exact fun P id settled => settled.disconnectAll sound
  · intro id k l named link
    obtain ⟨c, entry, rfl⟩ := Option.map_eq_some_iff.mp named
    have client := List.all_eq_true.mp clients _ (Registry.mem_entries.mpr entry)
    rw [Slot.not_isClient_of_link link] at client
    cases client
  · intro id k l named _
    rw [Signal.slot?_disconnectAll sound] at named
    cases named

theorem Intact.setBlocked (intact : Intact torn w) (s : SignalRef) (blocked : Bool) :
    let w' := Ensemble.setSignal s ((w.signal s).setBlocked blocked) w
    Intact torn w' ∧ Routine w w' := by
  have sound := intact.wired.sound s
  refine intact.setSignal ⟨sound.registry, sound.closed⟩ id (intact.standing s) ?_ ?_ ?_
  · exact fun _ _ settled => settled
  · exact fun _ _ _ named _ => .inr named
  · exact fun _ _ _ named _ => named

theorem Intact.close (intact : Intact torn w) {s : SignalRef} (spare : ¬w.Demanded s) :
    let w' := Ensemble.setSignal s (w.signal s).close w
    Intact torn w' ∧ Routine w w' := by
  refine intact.setSignal (Signal.sound_close _) (fun _ => rfl) (fun h => absurd h spare) ?_ ?_ ?_
  · exact fun _ _ _ => Signal.settled_close _ _ _
  · exact fun _ _ _ _ _ => .inl rfl
  · intro id k l named _
    rw [Signal.slot?_close] at named
    cases named

theorem not_demanded_of_traffic {s : SignalRef} (allowed : w.traffic (.close s) = true) :
    ¬w.Demanded s := by
  intro demanded
  cases demanded with
  | model bound =>
      simp only [traffic, Bool.not_eq_true'] at allowed
      exact model_ne_of_not_isModelBound allowed bound
  | view bound signal =>
      simp only [viewSignals, List.mem_cons, List.not_mem_nil, or_false] at signal
      rcases signal with rfl | rfl | rfl <;> simp [traffic] at allowed
  | held isHeld signal =>
      simp only [controllerSignals, List.mem_cons, List.not_mem_nil, or_false] at signal
      rcases signal with rfl | rfl | rfl <;> simp [traffic] at allowed

/-! ## Controllers -/

theorem bonds_lifecycle (w : Ensemble σ ε) (c : Nat) (initialized closing : Controller σ → Bool)
    (b : Nat) : ((updateController c (fun o =>
      { o with initialized := initialized o, closing := closing o }) w).controller b).bonds =
      (w.controller b).bonds :=
  blind_updateController w c
    (fun o => { o with initialized := initialized o, closing := closing o }) Controller.bonds
    (fun _ => rfl) b

/-- A controller counts as set up, or no more. -/
theorem Intact.initialized (intact : Intact torn w) (c : Nat) (initialized : Controller σ → Bool) :
    let w' := updateController c (fun o => { o with initialized := initialized o }) w
    Intact torn w' ∧ Routine w w' :=
  intact.routine (signal_updateController w c (by exact fun _ => ⟨rfl, rfl, rfl⟩))
    (bonds_lifecycle w c initialized (·.closing))
    (blind_updateController w c (fun o => { o with initialized := initialized o }) (·.closing)
      fun _ => rfl)
    (fun _ => rfl) fun _ _ waits => .inl waits

/-- A controller closes. -/
theorem Intact.closing (intact : Intact torn w) (c : Nat) :
    let w' := updateController c (fun o => { o with closing := true }) w
    Intact torn w' ∧ Frame w w' := by
  refine intact.of_same (signal_updateController w c (by exact fun _ => ⟨rfl, rfl, rfl⟩))
    (bonds_lifecycle w c (·.initialized) fun _ => true) (fun b h => ?_) fun _ => rfl
  rw [controller_updateController]
  split
  · rfl
  · exact h

/-- Another thread runs. -/
theorem Intact.thread (intact : Intact torn w) (thread : Thread) :
    Intact torn { w with thread } ∧ Routine w { w with thread } :=
  intact.routine (fun s => by cases s <;> rfl) (fun _ => rfl) (fun _ => rfl) (fun _ => rfl)
    fun _ _ waits => .inl waits

/-- A queue changes, and no connection waits in it that did not. -/
theorem Intact.updateDispatcher (intact : Intact torn w) (d : Nat)
    {f : Dispatcher (Task σ) → Dispatcher (Task σ)}
    (patient : ∀ t, t ∈ (f (w.dispatcher d)).queue →
      t ∈ (w.dispatcher d).queue ∨ ∃ code, t = .client code) :
    Intact torn (Ensemble.updateDispatcher d f w) ∧
      Routine w (Ensemble.updateDispatcher d f w) := by
  refine intact.routine (signal_updateDispatcher w d _) (fun _ => rfl) (fun _ => rfl)
    (fun _ => rfl) fun e t waits => ?_
  rw [dispatcher_updateDispatcher] at waits
  split at waits
  · next same => exact same ▸ patient t waits
  · exact .inl waits

/-- Client code is queued. -/
theorem Intact.post (intact : Intact torn w) (d : Nat) (code : σ) :
    let w' := Ensemble.updateDispatcher d (fun q => q.post (.client code)) w
    Intact torn w' ∧ Routine w w' := by
  refine intact.updateDispatcher d fun t waits => ?_
  rcases List.mem_append.mp waits with before | last
  · exact .inl before
  · exact .inr ⟨code, List.mem_singleton.mp last⟩

/-- A controller has other bindings, of its client's own. -/
theorem Intact.bindings (intact : Intact torn w) (c : Nat) {bindings : List (Subscription σ)}
    (own : ∀ s id, .connection s id ∈ bindings → w.Own s id) :
    let w' := updateController c (fun o => { o with bindings }) w
    Intact torn w' ∧ Routine w w' := by
  have signals := signal_updateController w c (f := fun o => { o with bindings })
    (by exact fun _ => ⟨rfl, rfl, rfl⟩)
  have blind {α : Type} (g : Controller σ → α) (blind : ∀ o, g { o with bindings } = g o) :=
    blind_updateController w c (fun o => { o with bindings }) g blind
  have bonds : ∀ b, SameBonds w (updateController c (fun o => { o with bindings }) w) b := fun b =>
    ⟨blind (·.model) (fun _ => rfl) b, blind (·.view) (fun _ => rfl) b,
      blind (·.modelSubscriptions) (fun _ => rfl) b, blind (·.viewSubscriptions) (fun _ => rfl) b⟩
  have alive := blind Controller.isAlive fun _ => rfl
  have phases := blind (·.closing) fun _ => rfl
  refine ⟨⟨⟨?_, ?_, ?_⟩, ?_⟩, ⟨⟨?_, ?_, ?_, ?_, ?_, ?_, ?_, ?_⟩, fun b => .of_same (alive b)⟩,
    phases, fun _ _ waits => .inl waits⟩
  · exact intact.wired.of_same signals fun l =>
      SameBonds.sameLink (fun b _ => bonds b) fun _ _ => rfl
  · intro s demanded
    rw [signals]
    refine intact.standing s ?_
    cases demanded with
    | model bound => exact .model ((bonds _).1 ▸ bound)
    | view bound signal => exact .view ((bonds _).2.1 ▸ bound) signal
    | held isHeld signal => exact .held (blind (·.held) (fun _ => rfl) _ ▸ isHeld) signal
  · intro b s id member
    rw [Own, signals]
    rw [controller_updateController] at member
    split at member
    · exact own s id member
    · exact intact.own b s id member
  · intro b dead
    rw [isControllerAlive, alive] at dead
    obtain ⟨model, view, modelLines, viewLines⟩ := intact.idle b dead
    obtain ⟨model', view', modelLines', viewLines'⟩ := bonds b
    exact ⟨model'.trans model, view'.trans view, modelLines'.trans modelLines,
      viewLines'.trans viewLines⟩
  · exact blind (·.pins) fun _ => rfl
  · exact fun b h => by rwa [blind (·.held) fun _ => rfl] at h
  · exact blind (·.dispatcher) fun _ => rfl
  · exact fun b h => (phases b).trans h
  · exact fun b => .inl (bonds b)
  · exact fun _ => .inl rfl
  · exact fun s h => by rw [signals, h]
  · exact fun P s id h => by rw [signals]; exact h

/-! ## Calls -/

section Calls

variable {g : Regime σ ε} {β : Behaviour σ ε} {run : Runner σ ε}
  (ending : ∀ code, Keeps (Calm g.framed torn) (run (.subscription code)))
include ending

theorem establishBindings_calm (actions : ∀ a, Keeps (Calm g torn) (run (.action a)))
    (own : BindsOwnBy β run) (c : Nat) : Keeps (Calm g torn) (establishBindings run β c) := by
  have order := calm_composes g torn
  refine keeps_calm.mpr fun w intact lawful => .bind ?_
  intro bindings w₁ h
  have connected : Keeps (Calm g torn) (run.client (β.connect c)) :=
    (tracks_self _).mp (.program order (fun a => (tracks_self _).mpr (actions a)) _)
  obtain ⟨intact₁, bond₁, lawful₁⟩ := keeps_calm.mp connected w intact lawful bindings w₁ h
  obtain ⟨intact₂, bound⟩ := intact₁.bindings c (own c w bindings w₁ intact.wired.sound h)
  refine .get_bind ?_
  refine .modify_bind ?_
  have lawful₂ := g.lasts bound.untouched lawful₁
  refine (releaseAll_own ending intact₂ lawful₂ ?_).mono fun _ w' h => ?_
  · exact fun s id member => bound.settled _ s id (intact₁.own c s id member)
  · exact ⟨h.1, g.trans bond₁ (g.of_frame (bound.toFrame.trans h.2.1)), h.2.2⟩

theorem keeper_calm (actions : ∀ a, Keeps (Calm g torn) (run (.action a)))
    (emission : ∀ s notice, (∀ v, s ≠ .viewClosing v) → Keeps (Calm g torn) (emit run s notice))
    (draining : ∀ d fuel, Keeps (Calm g torn) (drain run d fuel)) (own : BindsOwnBy β run) :
    Keeper (Calm g torn) β run run where
  order := calm_composes g torn
  action a := (tracks_self _).mpr (actions a)
  drain d fuel := (tracks_self _).mpr (draining d fuel)
  emit s notice other := (tracks_self _).mpr (emission s notice other)
  thread _ thread := calm_of_routine fun intact => intact.thread thread
  post _ d code := calm_of_routine fun intact => intact.post d code
  model w m store initialized := calm_of_routine fun intact => intact.routine
    (signal_updateModel w m (by exact fun _ => ⟨rfl, rfl, rfl⟩)) (fun _ => rfl) (fun _ => rfl)
    (fun _ => rfl) fun _ _ waits => .inl waits
  view w v initialized enabled :=
    calm_updateView v (by exact fun _ => ⟨rfl, rfl, rfl⟩) (by exact fun _ => rfl) w
  initialized _ c := calm_of_routine fun intact => intact.initialized c fun _ => true
  bindings c := (tracks_self _).mpr (establishBindings_calm ending actions own c)
  holdingController c _ _ tracks := ((covers_self run).holdingController c tracks.anyhow).keeping
    (holdingController_calm ending tracks.keeps c)
  holdingView v _ _ tracks := ((covers_self run).holdingView v tracks.anyhow).keeping
    (holdingView_calm tracks.keeps v)

/-- An action that is traffic is calm if it is not one by which something closes, and if the
    calls are calm that it sets off. -/
theorem performAction_calm (k : Keeper (Calm g torn) β run run) (fuel : Nat) {a : Action σ ε}
    (allowed : w.traffic a = true) (closing : a.isClosing = true →
      TracksAt (Calm g torn) (performAction run β fuel a) (performAction run β fuel a) w) :
    TracksAt (Calm g torn) (performAction run β fuel a) (performAction run β fuel a) w := by
  refine k.performAction fuel a w fun elementary => ?_
  cases a with
  | connect s slot d =>
      intro id w' h
      cases h
      exact ⟨rfl, calm_of_routine fun intact => intact.connect s allowed d⟩
  | disconnect s id =>
      intro found w' h
      cases h
      exact ⟨rfl, calm_of_routine fun intact =>
        intact.cut fun k named => isClient_of_isSpare allowed named⟩
  | disconnectAll s =>
      intro _ w' h
      cases h
      exact ⟨rfl, calm_of_routine fun intact => intact.disconnectAll allowed⟩
  | block s blocked =>
      intro _ w' h
      cases h
      exact ⟨rfl, calm_of_routine fun intact => intact.setBlocked s blocked⟩
  | close s =>
      intro _ w' h
      cases h
      exact ⟨rfl, calm_of_routine fun intact => intact.close (not_demanded_of_traffic allowed)⟩
  | release subscription =>
      cases subscription with
      | connection s id =>
          intro _ w' h
          cases h
          exact ⟨rfl, calm_of_routine fun intact =>
            intact.cut fun k named => isClient_of_isSpare allowed named⟩
      | client code =>
          exact fun r w' h => ⟨h, (ending code w r w' h).of_framed⟩
  | dropController c => exact (tracks_self _).mpr (dropController_calm ending c) w
  | dropView v => exact (tracks_self _).mpr (dropView_calm run v) w
  | change f =>
      intro _ w' h
      cases h
      refine ⟨rfl, calm_of_routine fun intact => intact.routine (fun s => ?_) (fun _ => rfl)
        (fun _ => rfl) (fun _ => rfl) fun _ _ waits => .inl waits⟩
      cases s <;> rfl
  | emit s notice =>
      cases s with
      | viewClosing v => exact closing rfl
      | _ => cases elementary
  | handleClosing | announceClosing => exact closing rfl
  | setModel | setView | attach => cases allowed
  | post | drain | perform | inBackground | write | setProperty | setSilently | replaceAll
  | clear | initializeModel | resetModel | initializeController | handleAction | refresh
  | reportError | reportDone | initializeView | enable | report | displayView | finishUpdate
  | showError | showInfo => cases elementary

end Calls

/-! ## Traffic without further laws -/

/-- No law. -/
def lawless : Regime σ ε where
  law _ := True
  bond := Frame
  lasts _ _ := trivial
  of_frame frame := frame
  trans := Frame.trans
  settled frame := frame.staySettled
  around := Frame.around

theorem keeps_lawless {α : Type} {p : Proc (Ensemble σ ε) α} : Keeps (Calm lawless torn) p ↔
    ∀ w, Intact torn w → Ends p w fun _ w' => Intact torn w' ∧ Frame w w' := by
  constructor
  · intro keeps w intact r w' h
    obtain ⟨intact', frame, -⟩ := keeps w r w' h intact trivial
    exact ⟨intact', frame⟩
  · exact fun ends w r w' h intact _ => ⟨(ends w intact r w' h).1, (ends w intact r w' h).2, trivial⟩

theorem BindsOwn.runUnder {β : Behaviour σ ε} (own : BindsOwn β) (depth : Nat)
    (d : Discipline σ ε) : BindsOwnBy β (Ensemble.runUnder β depth d) := by
  intro c w bindings w' sound h
  exact own depth c w bindings w' sound ((covers_runUnder β depth d).client _ w bindings w' h).1

theorem bindsOwn_plain : BindsOwn (Behaviour.plain : Behaviour σ ε) := by
  intro depth c w bindings w' _ h s id member
  cases h
  cases member

section Lawless

variable {g : Regime σ ε} {β : Behaviour σ ε} {run : Runner σ ε} (free : ∀ w, g.law w)
  (calls : ∀ call, Keeps (Calm g torn) (run call))
  (ending : ∀ code, Keeps (Calm g.framed torn) (run (.subscription code)))

include free in
theorem calm_of_frame {w' : Ensemble σ ε} (stays : Intact torn w → Intact torn w' ∧ Frame w w') :
    Calm g torn w w' :=
  fun intact _ => ⟨(stays intact).1, g.of_frame (stays intact).2, free w'⟩

include free calls

theorem emit_lawless (s : SignalRef) (notice : Notice) :
    Keeps (Calm g torn) (emit run s notice) := by
  refine (tracks_self _).mp (emit_tracks (calm_composes _ _) s notice
    (fun slot => (tracks_self _).mpr (calls (.slot slot notice))) fun w d _ => ?_)
  exact calm_of_frame free fun intact => intact.of_same (signal_updateDispatcher w d _)
    (fun _ => rfl) (fun _ h => h) fun _ => rfl

include ending

theorem keeper_lawless (own : BindsOwnBy β run) : Keeper (Calm g torn) β run run := by
  refine keeper_calm ending (fun a => calls (.action a))
    (fun s notice _ => emit_lawless free calls s notice) (fun d fuel => ?_) own
  refine (tracks_self _).mp (drain_tracks (calm_composes _ _)
    (fun t => (tracks_self _).mpr (calls (.task t))) (fun w d f => ?_) d fuel)
  exact calm_of_frame free fun intact => intact.of_same (signal_updateDispatcher w d f)
    (fun _ => rfl) (fun _ h => h) fun _ => rfl

theorem handleClosing_lawless (own : BindsOwnBy β run) (c : Nat) :
    Tracks (Calm g torn) (handleClosing run β c) (handleClosing run β c) :=
  (keeper_lawless free calls ending own).handleClosing c fun _ =>
    calm_of_frame free fun intact => intact.closing c

theorem performAction_lawless (own : BindsOwnBy β run) (fuel : Nat) {a : Action σ ε}
    (allowed : w.traffic a = true) : TracksAt (Calm g torn) (performAction run β fuel a)
      (performAction run β fuel a) w := by
  have k := keeper_lawless free calls ending own
  refine performAction_calm ending k fuel allowed fun closing => ?_
  cases a with
  | emit s notice => exact (tracks_self _).mpr (emit_lawless free calls s notice) w
  | handleClosing c =>
      exact k.holdingController c (handleClosing_lawless free calls ending own c) w
  | announceClosing v =>
      refine k.holdingView v (.bind k.order (.get k.order) fun w => .ite (.pure k.order ()) ?_) w
      refine .bind k.order (.modify ?_) fun _ => (tracks_self _).mpr (emit_lawless free calls _ _)
      exact calm_updateView v (by exact fun _ => ⟨rfl, rfl, rfl⟩) (by exact fun _ => rfl)
  | _ => cases closing

end Lawless

/-- Client code that keeps to traffic keeps an ensemble intact, within a frame. -/
theorem calm_of_traffic {β : Behaviour σ ε} (own : BindsOwn β) (depth : Nat) {d : Discipline σ ε}
    (code : ∀ w a, d.code w a = true → w.traffic a = true)
    (ends : ∀ w a, d.ending w a = true → w.traffic a = true) (call : Call σ ε) :
    Keeps (Calm lawless torn) (runUnder β depth d call) := by
  induction depth generalizing d call with
  | zero => exact fun _ _ _ h => by cases h
  | succ depth ih =>
      have calls : ∀ call', Keeps (Calm lawless torn) (runUnder β depth (d.inside call) call') := by
        cases call with
        | subscription _ => exact ih ends ends
        | _ => exact ih code ends
      have fresh := own.runUnder depth (d.inside call)
      have ending := fun code => calls (.subscription code)
      have free : ∀ w : Ensemble σ ε, lawless.law w := fun _ => trivial
      have k := keeper_lawless free calls ending fresh
      intro w r w' h
      simp only [runUnder] at h
      split at h
      · next admitted =>
          cases call with
          | slot slot notice =>
              exact (k.serve slot notice
                (fun c _ _ => handleClosing_lawless free calls ending fresh c) w r w' h).2
          | task t =>
              have tracks := fun call => (tracks_self _).mpr (calls call)
              exact (runTask_tracks k.order β tracks t w r w' h).2
          | subscription code => exact (k.client _ w r w' h).2
          | action a =>
              have allowed := code w a admitted
              exact (performAction_lawless free calls ending fresh depth allowed r w' h).2
      · cases h

/-- And so does traffic. -/
theorem traffic_calm {β : Behaviour σ ε} (own : BindsOwn β) (depth : Nat) (call : Call σ ε) :
    Keeps (Calm lawless torn) (runUnder β depth trafficOnly call) :=
  calm_of_traffic own depth (fun _ _ => id) (fun _ _ => id) call

end Mvc.Ensemble
