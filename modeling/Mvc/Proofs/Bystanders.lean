import Mvc.Proofs.Onlookers
import Mvc.Proofs.Registry
import Mvc.Proofs.State

/-! # Bystanders

A bystander minds what models hold, what the client keeps, which thread is running, and who is
connected, but not who is bound to whom, who holds whom, and what waits in a queue. Most of what
an ensemble does is mute: a bystander notices no more of it than that connections end.

So a relation that puts up with mute steps, and that the calls keep which an operation sets off,
is kept by the operation (`Bystander.performAction`). What it has to answer for by itself is who
is connected, and what is written to models and to the client's own state. The simplest one is
that the thread is the same again: every call comes back on the thread on which it was made.
-/

namespace Mvc

variable {σ ε κ : Type}

/-! ## Connections that are there -/

namespace Signal

/-- A connection is there. -/
def Has (x : Signal κ) (k : Connection κ) : Prop := ∃ cell ∈ x.registry.cells, cell.content = some k

/-- Nobody is connected who was not. -/
def Fewer (x y : Signal κ) : Prop := ∀ k, y.Has k → x.Has k

variable {x : Signal κ}

theorem Fewer.refl (x : Signal κ) : Fewer x x := fun _ => id

theorem has_of_mem {e : ConnectionId × Connection κ} (member : e ∈ x.connections) : x.Has e.2 := by
  have found := Registry.get?_eq_some.mp (Registry.mem_entries.mp member)
  exact ⟨_, List.mem_of_getElem? found, rfl⟩

theorem fewer_erase (r : Registry (Connection κ)) (id : ConnectionId) :
    ∀ k, (∃ cell ∈ (r.erase id).2.cells, cell.content = some k) →
      ∃ cell ∈ r.cells, cell.content = some k := by
  rintro k ⟨cell, member, content⟩
  unfold Registry.erase at member
  split at member
  · rcases List.mem_or_eq_of_mem_set member with old | rfl
    · exact ⟨cell, old, content⟩
    · cases content
  · exact ⟨cell, member, content⟩

theorem fewer_disconnect (x : Signal κ) (id : ConnectionId) : Fewer x (x.disconnect id).2 :=
  fewer_erase x.registry id

theorem fewer_disconnectAll (x : Signal κ) : Fewer x x.disconnectAll := by
  show ∀ k, (∃ cell ∈ (x.registry.entries.foldl (fun r entry => (r.erase entry.1).2)
    x.registry).cells, cell.content = some k) → ∃ cell ∈ x.registry.cells, cell.content = some k
  generalize x.registry.entries = entries
  generalize x.registry = r
  induction entries generalizing r with
  | nil => exact fun k => id
  | cons e rest ih => exact fun k has => fewer_erase r e.1 k (ih _ k has)

theorem fewer_close (x : Signal κ) : Fewer x x.close := by
  rintro k ⟨cell, member, -⟩
  cases member

theorem has_connect {slot : κ} {d : Delivery} {k : Connection κ}
    (has : (x.connect slot d).2.Has k) : x.Has k ∨ k = ⟨slot, d⟩ := by
  obtain ⟨cell, member, content⟩ := has
  unfold Signal.connect at member
  split at member
  · exact .inl ⟨cell, member, content⟩
  · simp only [Registry.insert] at member
    split at member
    · rcases List.mem_or_eq_of_mem_set member with old | rfl
      · exact .inl ⟨cell, old, content⟩
      · exact .inr (Option.some.inj content).symm
    · rcases List.mem_append.mp member with old | new
      · exact .inl ⟨cell, old, content⟩
      · obtain rfl := List.mem_singleton.mp new
        exact .inr (Option.some.inj content).symm

end Signal

/-- A signal by which views and controllers hear of each other. -/
def SignalRef.isMutual : SignalRef → Bool
  | viewAction _ | viewClosing _ | viewUpdate _ => true
  | controllerPhase _ | controllerError _ | controllerDone _ => true
  | _ => false

/-- What a bystander may notice of an action itself, and not only of what the action sets off. -/
def Action.isNoticed : Action σ ε → Bool
  | connect .. | inBackground .. | change .. => true
  | write .. | setProperty .. | setSilently .. | replaceAll .. | clear .. => true
  | initializeModel .. | resetModel .. => true
  | _ => false

namespace Ensemble

open Proc

/-! ## Mute steps -/

/-- A bystander notices at most that connections end. -/
structure Mute (w w' : Ensemble σ ε) : Prop where
  thread : w'.thread = w.thread
  client : w'.client = w.client
  model : ∀ m, (w'.model m).silent = (w.model m).silent
  routed : ∀ c, (w'.controller c).dispatcher = (w.controller c).dispatcher
  fewer : ∀ s, (w.signal s).Fewer (w'.signal s)

namespace Mute

variable {w w' w₁ : Ensemble σ ε}

theorem refl (w : Ensemble σ ε) : Mute w w :=
  ⟨rfl, rfl, fun _ => rfl, fun _ => rfl, fun _ => .refl _⟩

theorem store (mute : Mute w w') (m : Nat) : (w'.model m).store = (w.model m).store := by
  have same := congrArg (·.store) (mute.model m)
  exact same

theorem initialized (mute : Mute w w') (m : Nat) :
    (w'.model m).initialized = (w.model m).initialized := by
  have same := congrArg (·.initialized) (mute.model m)
  exact same

theorem setSignal (w : Ensemble σ ε) (s : SignalRef) {x : Signal (Slot σ)}
    (fewer : (w.signal s).Fewer x) : Mute w (Ensemble.setSignal s x w) := by
  have only : OnlySignals w (Ensemble.setSignal s x w) := .setSignal w s x
  refine ⟨only.thread, only.client, only.model, only.of_controller (·.dispatcher) fun _ => rfl,
    fun t => ?_⟩
  rw [signal_setSignal]
  split
  · next same => exact same ▸ fewer
  · exact .refl _

theorem updateView (w : Ensemble σ ε) (v : Nat) {f : View σ → View σ}
    (fewer : ∀ o : View σ, o.userAction.Fewer (f o).userAction ∧
      o.viewClosing.Fewer (f o).viewClosing ∧ o.viewUpdate.Fewer (f o).viewUpdate) :
    Mute w (Ensemble.updateView v f w) := by
  refine ⟨rfl, rfl, fun _ => rfl, fun _ => rfl, fun s => ?_⟩
  cases s with
  | viewAction u | viewClosing u | viewUpdate u =>
      simp only [signal, view_updateView]
      split
      · next same => simp [same, fewer]
      · exact .refl _
  | _ => exact .refl _

theorem updateController (w : Ensemble σ ε) (c : Nat) {f : Controller σ → Controller σ}
    (routed : ∀ o, (f o).dispatcher = o.dispatcher)
    (fewer : ∀ o : Controller σ, o.phaseChanged.Fewer (f o).phaseChanged ∧
      o.errorOccurred.Fewer (f o).errorOccurred ∧
      o.operationCompleted.Fewer (f o).operationCompleted) :
    Mute w (Ensemble.updateController c f w) := by
  refine ⟨rfl, rfl, fun _ => rfl, blind_updateController w c f (·.dispatcher) routed, fun s => ?_⟩
  cases s with
  | controllerPhase b | controllerError b | controllerDone b =>
      simp only [signal, controller_updateController]
      split
      · next same => simp [same, fewer]
      · exact .refl _
  | _ => exact .refl _

theorem updateDispatcher (w : Ensemble σ ε) (d : Nat)
    (f : Dispatcher (Task σ) → Dispatcher (Task σ)) :
    Mute w (Ensemble.updateDispatcher d f w) :=
  ⟨rfl, rfl, fun _ => rfl, fun _ => rfl, fun s => signal_updateDispatcher w d f s ▸ .refl _⟩

end Mute

/-- And nobody gives up a handle. -/
structure Tacit (w w' : Ensemble σ ε) : Prop extends Mute w w' where
  controllers : ∀ c, (w'.controller c).held = (w.controller c).held
  views : ∀ v, (w'.view v).held = (w.view v).held

namespace Tacit

theorem setSignal (w : Ensemble σ ε) (s : SignalRef) {x : Signal (Slot σ)}
    (fewer : (w.signal s).Fewer x) : Tacit w (Ensemble.setSignal s x w) :=
  have only : OnlySignals w (Ensemble.setSignal s x w) := .setSignal w s x
  ⟨.setSignal w s fewer, only.of_controller (·.held) fun _ => rfl,
    only.of_view (·.held) fun _ => rfl⟩

theorem updateView (w : Ensemble σ ε) (v : Nat) {f : View σ → View σ}
    (held : ∀ o, (f o).held = o.held)
    (fewer : ∀ o : View σ, o.userAction.Fewer (f o).userAction ∧
      o.viewClosing.Fewer (f o).viewClosing ∧ o.viewUpdate.Fewer (f o).viewUpdate) :
    Tacit w (Ensemble.updateView v f w) :=
  ⟨.updateView w v fewer, fun _ => rfl, blind_updateView w v f (·.held) held⟩

theorem updateController (w : Ensemble σ ε) (c : Nat) {f : Controller σ → Controller σ}
    (held : ∀ o, (f o).held = o.held) (routed : ∀ o, (f o).dispatcher = o.dispatcher)
    (fewer : ∀ o : Controller σ, o.phaseChanged.Fewer (f o).phaseChanged ∧
      o.errorOccurred.Fewer (f o).errorOccurred ∧
      o.operationCompleted.Fewer (f o).operationCompleted) :
    Tacit w (Ensemble.updateController c f w) :=
  ⟨.updateController w c routed fewer, blind_updateController w c f (·.held) held, fun _ => rfl⟩

theorem updateDispatcher (w : Ensemble σ ε) (d : Nat)
    (f : Dispatcher (Task σ) → Dispatcher (Task σ)) :
    Tacit w (Ensemble.updateDispatcher d f w) :=
  ⟨.updateDispatcher w d f, fun _ => rfl, fun _ => rfl⟩

end Tacit

/-! ## Hooks -/

/-- The client's code keeps a relation, wherever it is called. -/
structure Hooked (R : Ensemble σ ε → Ensemble σ ε → Prop) (β : Behaviour σ ε)
    (run : Runner σ ε) : Prop extends Answers R True β run where
  accepts : ∀ m name value, Keeps R (run.client (β.accepts m name value))
  afterSet : ∀ m name old new, Keeps R (run.client (β.afterSet m name old new))
  populate : ∀ m, Keeps R (run.client (β.populate m))
  setup : ∀ c, Keeps R (run.client (β.setup c))
  connect : ∀ c, Keeps R (run.client (β.connect c))
  viewSetup : ∀ v, Keeps R (run.client (β.viewSetup v))
  job : ∀ code, Keeps R (run.client (β.job code))

theorem Hooked.of_client {R : Ensemble σ ε → Ensemble σ ε → Prop} {run : Runner σ ε}
    (client : ∀ {ρ : Type} (code : Client σ ε ρ), Keeps R (run.client code)) (β : Behaviour σ ε) :
    Hooked R β run := by
  refine ⟨⟨?_, ?_, ?_, ?_, ?_, ?_, ?_, ?_, ?_⟩, ?_, ?_, ?_, ?_, ?_, ?_, ?_⟩ <;> intros <;>
    exact client _

/-! ## Writing to models -/

/-- What has to be known of a relation before writing to a model keeps it. -/
structure Scribe (R : Ensemble σ ε → Ensemble σ ε → Prop) (β : Behaviour σ ε) (run : Runner σ ε)
    (m : Nat) : Prop where
  order : Composes R
  accepts : ∀ name value, Keeps R (run.client (β.accepts m name value))
  afterSet : ∀ name old new, Keeps R (run.client (β.afterSet m name old new))
  populate : Keeps R (run.client (β.populate m))
  emit : ∀ s notice, s.isMutual = false → Keeps R (Ensemble.emit run s notice)
  stores : ∀ w f, R w (updateStore m f w)

namespace Scribe

variable {R : Ensemble σ ε → Ensemble σ ε → Prop} {β : Behaviour σ ε} {run : Runner σ ε} {m : Nat}
  (s : Scribe R β run m)
include s

theorem write (hooked : Bool) (name : String) (value : Value) :
    Keeps R (write run β m hooked name value) := by
  have announce : Keeps R
      (do
        Ensemble.emit run (.modelProperty m) (.property name value)
        Ensemble.emit run (.modelData m) .dataChanged
        return SetOutcome.changed : Proc (Ensemble σ ε) SetOutcome) := by
    refine .bind s.order (s.emit _ _ rfl) fun _ => ?_
    exact .bind s.order (s.emit _ _ rfl) fun _ => .pure s.order _
  unfold Ensemble.write
  cases hooked with
  | false =>
      refine .bind s.order (.pure s.order true) fun accepted => .ite (.pure s.order _) ?_
      refine .look fun w => .ite (.pure s.order _) ?_
      exact .bind s.order (.modify fun w => s.stores w _) fun _ => announce
  | true =>
      refine .bind s.order (s.accepts name value) fun accepted => .ite (.pure s.order _) ?_
      refine .look fun w => .ite (.pure s.order _) ?_
      refine .bind s.order (.modify fun w => s.stores w _) fun _ => ?_
      exact .bind s.order (s.afterSet name _ value) fun _ => announce

theorem emitValidity : Keeps R (emitValidity run β m) := .look fun _ => s.emit _ _ rfl

theorem emitReloaded : Keeps R (emitReloaded run β m) :=
  .bind s.order (s.emit _ _ rfl) fun _ => s.emitValidity

theorem setProperty (name : String) (value : Value) :
    Keeps R (setProperty run β m name value) := by
  refine .bind s.order (s.write true name value) fun outcome => ?_
  cases outcome with
  | changed => exact .bind s.order s.emitValidity fun _ => .pure s.order _
  | unchanged | rejected => exact .pure s.order _

theorem resetModel : Keeps R (resetModel run β m) := by
  refine .bind s.order s.populate fun populated => ?_
  cases populated with
  | error e => exact .pure s.order _
  | ok defaults =>
      refine .bind s.order (.modify fun w => s.stores w _) fun _ => ?_
      exact .bind s.order s.emitReloaded fun _ => .pure s.order _

theorem initializeModel (filled : ∀ w store,
      R w (updateModel m (fun o => { o with store, initialized := true }) w)) :
    Keeps R (initializeModel run β m) := by
  refine .look fun w => .ite (.pure s.order _) (.bind s.order s.populate fun populated => ?_)
  cases populated with
  | error e => exact .pure s.order _
  | ok defaults =>
      refine .look fun w => .ite (.pure s.order _) ?_
      refine .bind s.order (.modify fun w => filled w _) fun _ => ?_
      exact .bind s.order s.emitReloaded fun _ => .pure s.order _

end Scribe

/-! ## Relations of bystanders -/

/-- What has to be known of a relation before operations keep it that may perform only some
    actions. -/
structure Bystander (R : Ensemble σ ε → Ensemble σ ε → Prop) (may : Action σ ε → Prop)
    (run : Runner σ ε) : Prop where
  order : Composes R
  tacit : ∀ {w w'}, Tacit w w' → R w w'
  /-- Somebody gives up a handle. -/
  giveUpController : ∀ c w, may (.dropController c) →
    R w (updateController c (fun o => { o with held := false }) w)
  giveUpView : ∀ v w, may (.dropView v) → R w (updateView v (fun o => { o with held := false }) w)
  action : ∀ a, may a → Keeps R (run (.action a))
  slot : ∀ slot notice, Keeps R (run (.slot slot notice))
  task : ∀ task, Keeps R (run (.task task))
  subscription : ∀ code, Keeps R (run (.subscription code))
  /-- A view and a controller come to hear of each other. -/
  link : ∀ s slot, s.isMutual = true → Keeps R (connect s slot .direct)
  /-- A controller comes to hear of a model. -/
  subscribe : ∀ c m, may (.setModel c (some m)) → Keeps R (subscribeToModel c m)

namespace Bystander

variable {R : Ensemble σ ε → Ensemble σ ε → Prop} {may : Action σ ε → Prop} {run : Runner σ ε}
  (b : Bystander R may run)
include b

theorem client {ρ : Type} {code : Client σ ε ρ} (all : code.All may) : Keeps R (run.client code) :=
  .program b.order b.action all

theorem controller (c : Nat) {f : Controller σ → Controller σ}
    (bound : ∀ o, (f o).held = o.held ∧ (f o).dispatcher = o.dispatcher)
    (fewer : ∀ o : Controller σ, o.phaseChanged.Fewer (f o).phaseChanged ∧
      o.errorOccurred.Fewer (f o).errorOccurred ∧
      o.operationCompleted.Fewer (f o).operationCompleted) :
    Keeps R (modify (updateController c f)) :=
  .modify fun w =>
    b.tacit (.updateController w c (fun o => (bound o).1) (fun o => (bound o).2) fewer)

/-- A controller is told of nothing that anyone is connected to. -/
theorem controllerAside (c : Nat) {f : Controller σ → Controller σ}
    (aside : ∀ o, ((f o).held, (f o).dispatcher, (f o).phaseChanged, (f o).errorOccurred,
        (f o).operationCompleted) =
      (o.held, o.dispatcher, o.phaseChanged, o.errorOccurred, o.operationCompleted)) :
    Keeps R (modify (updateController c f)) := by
  simp only [Prod.mk.injEq] at aside
  refine b.controller c (fun o => ⟨(aside o).1, (aside o).2.1⟩) fun o => ?_
  obtain ⟨-, -, phase, error, completed⟩ := aside o
  rw [phase, error, completed]
  exact ⟨.refl _, .refl _, .refl _⟩

theorem view (v : Nat) {f : View σ → View σ} (held : ∀ o, (f o).held = o.held)
    (fewer : ∀ o : View σ, o.userAction.Fewer (f o).userAction ∧
      o.viewClosing.Fewer (f o).viewClosing ∧ o.viewUpdate.Fewer (f o).viewUpdate) :
    Keeps R (modify (updateView v f)) :=
  .modify fun w => b.tacit (.updateView w v held fewer)

/-- A view is told of nothing that anyone is connected to. -/
theorem viewAside (v : Nat) {f : View σ → View σ}
    (aside : ∀ o, ((f o).held, (f o).userAction, (f o).viewClosing, (f o).viewUpdate) =
      (o.held, o.userAction, o.viewClosing, o.viewUpdate)) :
    Keeps R (modify (updateView v f)) := by
  simp only [Prod.mk.injEq] at aside
  refine b.view v (fun o => (aside o).1) fun o => ?_
  obtain ⟨-, action, closing, update⟩ := aside o
  rw [action, closing, update]
  exact ⟨.refl _, .refl _, .refl _⟩

theorem dispatcher (w : Ensemble σ ε) (d : Nat) (f : Dispatcher (Task σ) → Dispatcher (Task σ)) :
    R w (updateDispatcher d f w) :=
  b.tacit (.updateDispatcher w d f)

/-! ## Signals -/

theorem drain (d fuel : Nat) : Keeps R (drain run d fuel) :=
  (drain_tracks b.order (fun t => (tracks_self _).mpr (b.task t)) b.dispatcher d fuel).keeps

theorem changeSignal (s : SignalRef) {f : Signal (Slot σ) → Signal (Slot σ)}
    (fewer : ∀ x : Signal (Slot σ), x.Fewer (f x)) : Keeps R (changeSignal s f) :=
  .modify fun w => b.tacit (.setSignal w s (fewer _))

theorem disconnect (s : SignalRef) (id : ConnectionId) : Keeps R (disconnect s id) :=
  fun w r w' h => by
    cases h
    exact b.tacit (.setSignal w s (Signal.fewer_disconnect _ id))

theorem release (line : Subscription σ) : Keeps R (release run line) := by
  cases line with
  | connection s id => exact .bind b.order (b.disconnect s id) fun _ => .pure b.order ()
  | client code => exact b.subscription code

theorem releaseAll (lines : List (Subscription σ)) : Keeps R (releaseAll run lines) := by
  induction lines with
  | nil => exact .pure b.order ()
  | cons line rest ih => exact .bind b.order (b.release line) fun _ => ih

/-! ## Lifetimes -/

theorem collectView (v : Nat) : Keeps R (collectView run v) := by
  refine .look fun w => .ite (.pure b.order ()) ?_
  refine .bind b.order (b.view v (fun _ => rfl) fun o => ?_) fun _ => b.releaseAll _
  exact ⟨Signal.fewer_close _, Signal.fewer_close _, Signal.fewer_close _⟩

theorem collectController (c : Nat) : Keeps R (collectController run c) := by
  refine .look fun w => .ite (.pure b.order ()) ?_
  refine .bind b.order (b.controllerAside c fun _ => rfl) fun _ => ?_
  have shut := b.controller c (f := fun o =>
    { o with
      phaseChanged := o.phaseChanged.close
      errorOccurred := o.errorOccurred.close
      operationCompleted := o.operationCompleted.close }) (fun _ => ⟨rfl, rfl⟩) fun _ =>
    ⟨Signal.fewer_close _, Signal.fewer_close _, Signal.fewer_close _⟩
  cases (w.controller c).view with
  | some v =>
      refine .bind b.order (b.collectView v) fun _ => ?_
      exact .bind b.order (b.releaseAll _) fun _ => shut
  | none => exact .bind b.order (b.releaseAll _) fun _ => shut

/-- A bystander puts up with whatever an onlooker does. -/
theorem onlooker : Onlooker R True run where
  order := b.order
  slot slot notice _ := b.slot slot notice
  post w d _ := b.dispatcher w d _
  pins w c _ := b.tacit (.updateController w c (fun _ => rfl) (fun _ => rfl)
    fun _ => ⟨.refl _, .refl _, .refl _⟩)
  closing w c := b.tacit (.updateController w c (fun _ => rfl) (fun _ => rfl)
    fun _ => ⟨.refl _, .refl _, .refl _⟩)
  view w v _ _ := b.tacit (.updateView w v (fun _ => rfl) fun _ => ⟨.refl _, .refl _, .refl _⟩)
  collectController := b.collectController
  collectView := b.collectView

theorem emit (s : SignalRef) (notice : Notice) : Keeps R (emit run s notice) :=
  b.onlooker.emit s notice fun _ => trivial

theorem dropController (c : Nat) (allowed : may (.dropController c)) :
    Keeps R (dropController run c) := by
  refine .look fun _ => .ite ?_ (.pure b.order ())
  exact .bind b.order (.modify fun w => b.giveUpController c w allowed) fun _ =>
    b.collectController c

theorem dropView (v : Nat) (allowed : may (.dropView v)) : Keeps R (dropView run v) := by
  refine .look fun _ => .ite ?_ (.pure b.order ())
  exact .bind b.order (.modify fun w => b.giveUpView v w allowed) fun _ => b.collectView v

/-! ## Binding -/

theorem subscribeToController (v c : Nat) :
    Keeps R (subscribeToController (σ := σ) (ε := ε) v c) := by
  refine .bind b.order (b.link _ _ rfl) fun _ => .bind b.order (b.link _ _ rfl) fun _ => ?_
  exact .bind b.order (b.link _ _ rfl) fun _ => .pure b.order _

theorem subscribeToView (c v : Nat) : Keeps R (subscribeToView (σ := σ) (ε := ε) c v) := by
  refine .bind b.order (b.link _ _ rfl) fun _ => .bind b.order (b.link _ _ rfl) fun _ => ?_
  exact .bind b.order (b.link _ _ rfl) fun _ => .pure b.order _

theorem attach (v : Nat) (c : Option Nat) : Keeps R (attach run v c) := by
  refine .look fun w => .ite (.pure b.order ()) ?_
  refine .bind b.order (b.viewAside v fun _ => rfl) fun _ => ?_
  refine .bind b.order (b.releaseAll _) fun _ => ?_
  cases c with
  | none => exact .pure b.order ()
  | some c => exact .bind b.order (b.subscribeToController v c) fun _ => b.viewAside v fun _ => rfl

theorem unbindView (c v : Nat) : Keeps R (unbindView run c v) :=
  .look fun _ => .ite (b.attach v none) (.pure b.order ())

section Hooks

variable {β : Behaviour σ ε} (hooks : Hooked R β run)
include hooks

theorem establishBindings (c : Nat) : Keeps R (establishBindings run β c) := by
  refine .bind b.order (hooks.connect c) fun bindings => .look fun w => ?_
  exact .bind b.order (b.controllerAside c fun _ => rfl) fun _ => b.releaseAll _

theorem rebindIfReady (c : Nat) : Keeps R (rebindIfReady run β c) :=
  .look fun _ => .ite (b.establishBindings hooks c) (.pure b.order ())

/-- Bindings are made anew if they can be, and the phase is announced. -/
theorem rebindAndTell (c : Nat) :
    Keeps R (do Ensemble.rebindIfReady run β c; Ensemble.emitPhase run c) :=
  .bind b.order (b.rebindIfReady hooks c) fun _ => b.onlooker.emitPhase c

theorem setModel (c : Nat) (m : Option Nat) (allowed : may (.setModel c m)) :
    Keeps R (setModel run β c m) := by
  refine .look fun w => .ite (.pure b.order ()) ?_
  refine .bind b.order (b.controllerAside c fun _ => rfl) fun _ => ?_
  refine .bind b.order (b.releaseAll _) fun _ => .bind b.order (b.releaseAll _) fun _ => ?_
  cases m with
  | none => exact b.rebindAndTell hooks c
  | some m =>
      refine .bind b.order (b.subscribe c m allowed) fun _ => .look fun w => ?_
      refine .bind b.order (b.controllerAside c fun _ => rfl) fun _ => ?_
      exact .bind b.order (b.releaseAll _) fun _ => b.rebindAndTell hooks c

theorem setView (c : Nat) (v : Option Nat) : Keeps R (setView run β c v) := by
  refine .look fun w => .ite (.pure b.order ()) ?_
  refine .bind b.order (b.onlooker.holdingView? _ ?_) fun _ => ?_
  · refine .bind b.order (b.controllerAside c fun _ => rfl) fun _ => ?_
    refine .bind b.order (b.releaseAll _) fun _ => ?_
    refine .bind b.order (b.releaseAll _) fun _ => ?_
    cases (w.controller c).view with
    | none => exact .pure b.order ()
    | some old => exact b.unbindView c old
  · cases v with
    | none => exact b.rebindAndTell hooks c
    | some v =>
        refine .bind b.order (b.subscribeToView c v) fun _ => .look fun w => ?_
        refine .bind b.order (b.controllerAside c fun _ => rfl) fun _ => ?_
        refine .bind b.order (b.releaseAll _) fun _ => ?_
        exact .bind b.order (b.attach v (some c)) fun _ => b.rebindAndTell hooks c

/-! ## Views and controllers -/

theorem initializeView (v : Nat) : Keeps R (initializeView run β v) := by
  refine .look fun w => .ite (.pure b.order _) (.bind b.order (hooks.viewSetup v) fun r => ?_)
  cases r with
  | error e => exact .pure b.order _
  | ok => exact .bind b.order (b.viewAside v fun _ => rfl) fun _ => .pure b.order _

theorem initializeController (c : Nat) : Keeps R (initializeController run β c) := by
  refine .look fun w => .ite (.pure b.order _) (.bind b.order (hooks.setup c) fun r => ?_)
  cases r with
  | error e => exact .pure b.order _
  | ok =>
      refine .bind b.order (b.controllerAside c fun _ => rfl) fun _ => ?_
      refine .bind b.order (b.rebindIfReady hooks c) fun _ => ?_
      exact .bind b.order (b.onlooker.emitPhase c) fun _ => .pure b.order _

omit hooks in
/-- A bystander that puts up with what is written to a model. -/
theorem scribe (hooks : Hooked R β run) {m : Nat} (stores : ∀ w f, R w (updateStore m f w)) :
    Scribe R β run m :=
  ⟨b.order, hooks.accepts m, hooks.afterSet m, hooks.populate m, fun s notice _ => b.emit s notice,
    stores⟩

/-! ## Calls -/

theorem runTask (t : Task σ) : Keeps R (runTask run β t) := by
  cases t with
  | delivery s id slot notice => exact .look fun _ => .ite (b.slot slot notice) (.pure b.order ())
  | client code => exact hooks.job code

theorem performAction (fuel : Nat) (a : Action σ ε) (allowed : may a)
    (noticed : a.isNoticed = true → Keeps R (performAction run β fuel a)) :
    Keeps R (performAction run β fuel a) := by
  have o := b.onlooker
  cases a with
  | connect | inBackground | change | write | setProperty | setSilently | replaceAll | clear
  | initializeModel | resetModel => exact noticed rfl
  | disconnect s id => exact b.disconnect s id
  | disconnectAll s => exact b.changeSignal s Signal.fewer_disconnectAll
  | block s blocked => exact b.changeSignal s (f := (·.setBlocked blocked)) fun x => .refl x
  | close s => exact b.changeSignal s Signal.fewer_close
  | release line => exact b.release line
  | post d code => exact .modify fun w => b.dispatcher w d _
  | drain d => exact b.drain d fuel
  | perform code => exact hooks.job code
  | setModel c m => exact o.holdingController c (b.setModel hooks c m allowed)
  | setView c v =>
      exact o.holdingController c (o.holdingView? v (b.setView hooks c v))
  | initializeController c => exact o.holdingController c (b.initializeController hooks c)
  | dropController c => exact b.dropController c allowed
  | initializeView v => exact o.holdingView v (b.initializeView hooks v)
  | enable v enabled => exact b.viewAside v fun _ => rfl
  | attach v c => exact o.holdingView v (b.attach v c)
  | dropView v => exact b.dropView v allowed
  | _ => exact o.performAction hooks.toAnswers fuel rfl fun _ => trivial

end Hooks

end Bystander

/-! ## Threads -/

/-- What is done leaves the ensemble on the thread on which it was done. -/
def SameThread (w w' : Ensemble σ ε) : Prop := w'.thread = w.thread

theorem sameThread_composes : Composes (SameThread (σ := σ) (ε := ε)) where
  refl _ := rfl
  trans first second := second.trans first

theorem sameThread_connect (s : SignalRef) (slot : Slot σ) (d : Delivery) :
    Keeps (SameThread (ε := ε)) (connect s slot d) := by
  intro w r w' ran
  cases ran
  exact thread_setSignal ..

theorem sameThread_inBackground {α : Type} (p : Proc (Ensemble σ ε) α) :
    Keeps SameThread (inBackground p) := fun _ =>
  .get_bind (.modify_bind (.bind fun _ _ _ => .modify_bind ((ends_pure _ _ _).mpr rfl)))

section Calls

variable {β : Behaviour σ ε} {run : Runner σ ε} (calls : ∀ call, Keeps SameThread (run call))
include calls

theorem sameThread_bystander : Bystander SameThread (fun _ => True) run where
  order := sameThread_composes
  tacit still := still.thread
  giveUpController _ _ _ := rfl
  giveUpView _ _ _ := rfl
  action _ _ := calls _
  slot _ _ := calls _
  task _ := calls _
  subscription _ := calls _
  link s slot _ := sameThread_connect s slot .direct
  subscribe _ _ _ :=
    .look fun _ => .bind sameThread_composes (sameThread_connect _ _ _) fun _ =>
      .pure sameThread_composes _

theorem sameThread_body (fuel : Nat) (call : Call σ ε) : Keeps SameThread (body run β fuel call) := by
  have b := sameThread_bystander calls
  have hooks : Hooked SameThread β run := .of_client (fun code =>
    (tracks_self _).mp (.program b.order (fun a => (tracks_self _).mpr (calls (.action a))) code)) β
  have scribe : ∀ m, Scribe SameThread β run m := fun m => b.scribe hooks fun _ _ => rfl
  cases call with
  | slot slot notice => exact b.onlooker.serve hooks.toAnswers slot notice fun _ => trivial
  | task t => exact b.runTask hooks t
  | subscription code => exact hooks.job code
  | action a =>
      refine b.performAction hooks fuel a trivial fun noticed => ?_
      cases a with
      | connect s slot d => exact sameThread_connect s slot d
      | inBackground a => exact sameThread_inBackground _
      | change f => exact .modify fun _ => rfl
      | write m hooked name value => exact (scribe m).write hooked name value
      | setProperty m name value => exact (scribe m).setProperty name value
      | setSilently | replaceAll | clear => exact .modify fun _ => rfl
      | initializeModel m => exact (scribe m).initializeModel fun _ _ => rfl
      | resetModel m => exact (scribe m).resetModel
      | _ => cases noticed

end Calls

/-- Every call comes back on the thread on which it was made. -/
theorem sameThread_run (β : Behaviour σ ε) (depth : Nat) (call : Call σ ε) :
    Keeps SameThread (run β depth call) := by
  induction depth generalizing call with
  | zero =>
      intro w r w' ran
      cases ran
  | succ depth ih => exact sameThread_body ih depth call

end Ensemble

end Mvc
