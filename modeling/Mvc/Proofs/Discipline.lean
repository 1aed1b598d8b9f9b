import Mvc.Ensemble.Run
import Mvc.Proofs.Procedure

/-! # Client code under a discipline

Some properties of an ensemble hold only as long as client code leaves certain things alone.
A discipline says what client code may do in which state, and `runUnder` runs a call but has
no result when the discipline is broken on the way. A run under a discipline is an ordinary
run (`run_of_runUnder`), so whatever is shown for it is about the runs that keep the
discipline.

A `Keeper` collects what has to be known of a relation between states before all operations
that are put together from other calls keep it. A `Caretaker` leaves out what is only needed
where a controller is set up.
-/

namespace Mvc

variable {σ ε : Type}

/-- What client code may do. -/
structure Discipline (σ ε : Type) where
  /-- What hooks, slots and jobs may do. -/
  code : Ensemble σ ε → Action σ ε → Bool
  /-- What the code at the end of a subscription may do, and all that it sets off. -/
  ending : Ensemble σ ε → Action σ ε → Bool

namespace Discipline

/-- Whether a call may be run. -/
def admits (d : Discipline σ ε) (w : Ensemble σ ε) : Call σ ε → Bool
  | .action a => d.code w a
  | _ => true

/-- What is allowed inside a call. -/
def inside (d : Discipline σ ε) : Call σ ε → Discipline σ ε
  | .subscription _ => ⟨d.ending, d.ending⟩
  | _ => d

end Discipline

/-- The actions that each relation has to answer for by itself. -/
def Action.isElementary : Action σ ε → Bool
  | .connect .. | .disconnect .. | .disconnectAll .. | .block .. | .close .. | .release .. => true
  | .emit (.viewClosing _) _ => true
  | .setModel .. | .setView .. | .attach .. => true
  | .handleClosing .. | .announceClosing .. => true
  | .dropController .. | .dropView .. => true
  | .change .. => true
  | _ => false

/-- The actions that bind a model or a view. -/
def Action.isBinding : Action σ ε → Bool
  | .setModel .. | .setView .. => true
  | _ => false

/-- The actions by which a closing phase may begin. -/
def Action.isClosing : Action σ ε → Bool
  | .emit (.viewClosing _) _ | .handleClosing .. | .announceClosing .. => true
  | _ => false

namespace Ensemble

/-- Run a call under a discipline. -/
def runUnder (β : Behaviour σ ε) : Nat → Discipline σ ε → Runner σ ε
  | 0, _ => fun _ => Proc.tooDeep
  | depth + 1, d => fun call w =>
      if d.admits w call then body (runUnder β depth (d.inside call)) β depth call w else none

open Proc

/-- What has to be known of a relation before composed operations keep it that set no
    controller up. Both runners are the same one, unless two are to be compared. -/
structure Caretaker (R : Ensemble σ ε → Ensemble σ ε → Prop) (run run' : Runner σ ε) :
    Prop where
  order : Composes R
  action : ∀ a, Tracks R (run (.action a)) (run' (.action a))
  drain : ∀ d fuel, Tracks R (Ensemble.drain run d fuel) (Ensemble.drain run' d fuel)
  /-- That a view closes is looked at apart. -/
  emit : ∀ s notice, (∀ v, s ≠ .viewClosing v) →
    Tracks R (Ensemble.emit run s notice) (Ensemble.emit run' s notice)
  thread : ∀ w t, R w { w with thread := t }
  post : ∀ w d code, R w (updateDispatcher d (fun q => q.post (.client code)) w)
  model : ∀ w m (store : Model σ → Store) (initialized : Model σ → Bool),
    R w (updateModel m (fun o => { o with store := store o, initialized := initialized o }) w)
  view : ∀ w v (initialized enabled : View σ → Bool), R w (updateView v (fun o =>
    { o with initialized := initialized o, enabled := enabled o }) w)
  holdingController : ∀ {α : Type} c {p q : Proc (Ensemble σ ε) α}, Tracks R p q →
    Tracks R (Ensemble.holdingController run c p) (Ensemble.holdingController run' c q)
  holdingView : ∀ {α : Type} v {p q : Proc (Ensemble σ ε) α}, Tracks R p q →
    Tracks R (Ensemble.holdingView run v p) (Ensemble.holdingView run' v q)

/-- And before the others do. -/
structure Keeper (R : Ensemble σ ε → Ensemble σ ε → Prop) (β : Behaviour σ ε)
    (run run' : Runner σ ε) : Prop extends Caretaker R run run' where
  initialized : ∀ w c, R w (updateController c (fun o => { o with initialized := true }) w)
  bindings : ∀ c, Tracks R (establishBindings run β c) (establishBindings run' β c)

namespace Caretaker

variable {R : Ensemble σ ε → Ensemble σ ε → Prop} {β : Behaviour σ ε} {run run' : Runner σ ε}
  (k : Caretaker R run run')
include k

theorem client {ρ : Type} (code : Client σ ε ρ) :
    Tracks R (run.client code) (run'.client code) :=
  .program k.order k.action code

/-! ## Threads -/

theorem inBackground {α : Type} {p q : Proc (Ensemble σ ε) α} (tracks : Tracks R p q) :
    Tracks R (inBackground p) (inBackground q) := by
  refine .bind k.order (.get k.order) fun w => ?_
  refine .bind k.order (.modify fun w => k.thread w _) fun _ => ?_
  refine .bind k.order tracks fun r => ?_
  exact .bind k.order (.modify fun w => k.thread w _) fun _ => .pure k.order r

/-! ## Models -/

theorem updateStore (m : Nat) (f : Store → Store) :
    Tracks R (modify (updateStore m f)) (modify (updateStore m f)) :=
  .modify fun w => k.model w m (fun o => f o.store) (·.initialized)

theorem write (m : Nat) (hooked : Bool) (name : String) (value : Value) :
    Tracks R (write run β m hooked name value) (write run' β m hooked name value) := by
  have announce : Tracks R
      (do
        Ensemble.emit run (.modelProperty m) (.property name value)
        Ensemble.emit run (.modelData m) .dataChanged
        return SetOutcome.changed)
      (do
        Ensemble.emit run' (.modelProperty m) (.property name value)
        Ensemble.emit run' (.modelData m) .dataChanged
        return SetOutcome.changed) := by
    refine .bind k.order (k.emit _ _ (by simp)) fun _ => ?_
    exact .bind k.order (k.emit _ _ (by simp)) fun _ => .pure k.order _
  unfold Ensemble.write
  cases hooked with
  | false =>
      refine .bind k.order (.pure k.order true) fun accepted => .ite (.pure k.order _) ?_
      refine .bind k.order (.get k.order) fun w => .ite (.pure k.order _) ?_
      exact .bind k.order (k.updateStore m _) fun _ => announce
  | true =>
      refine .bind k.order (k.client _) fun accepted => .ite (.pure k.order _) ?_
      refine .bind k.order (.get k.order) fun w => .ite (.pure k.order _) ?_
      refine .bind k.order (k.updateStore m _) fun _ => ?_
      exact .bind k.order (k.client _) fun _ => announce

theorem emitValidity (m : Nat) :
    Tracks R (emitValidity run β m) (emitValidity run' β m) :=
  .bind k.order (.get k.order) fun _ => k.emit _ _ (by simp)

theorem setProperty (m : Nat) (name : String) (value : Value) :
    Tracks R (setProperty run β m name value) (setProperty run' β m name value) := by
  refine .bind k.order (k.write m true name value) fun outcome => ?_
  cases outcome with
  | changed => exact .bind k.order (k.emitValidity m) fun _ => .pure k.order _
  | unchanged | rejected => exact .pure k.order _

theorem emitReloaded (m : Nat) : Tracks R (emitReloaded run β m) (emitReloaded run' β m) :=
  .bind k.order (k.emit _ _ (by simp)) fun _ => k.emitValidity m

theorem initializeModel (m : Nat) :
    Tracks R (initializeModel run β m) (initializeModel run' β m) := by
  refine .bind k.order (.get k.order) fun w => .ite (.pure k.order _) ?_
  refine .bind k.order (k.client _) fun populated => ?_
  cases populated with
  | error e => exact .pure k.order _
  | ok defaults =>
      refine .bind k.order (.get k.order) fun w => .ite (.pure k.order _) ?_
      refine .bind k.order (.modify fun w => k.model w m _ _) fun _ => ?_
      exact .bind k.order (k.emitReloaded m) fun _ => .pure k.order _

theorem resetModel (m : Nat) : Tracks R (resetModel run β m) (resetModel run' β m) := by
  refine .bind k.order (k.client _) fun populated => ?_
  cases populated with
  | error e => exact .pure k.order _
  | ok defaults =>
      refine .bind k.order (k.updateStore m _) fun _ => ?_
      exact .bind k.order (k.emitReloaded m) fun _ => .pure k.order _

/-! ## Views -/

theorem initializeView (v : Nat) :
    Tracks R (initializeView run β v) (initializeView run' β v) := by
  refine .bind k.order (.get k.order) fun w => .ite (.pure k.order _) ?_
  refine .bind k.order (k.client _) fun result => ?_
  cases result with
  | error e => exact .pure k.order _
  | ok r =>
      refine .bind k.order (.modify fun w => k.view w v _ (·.enabled)) fun _ => ?_
      exact .pure k.order _

theorem report (v : Nat) (name : String) (data : Value) :
    Tracks R (report run v name data) (report run' v name data) :=
  .bind k.order (.get k.order) fun _ => .ite (k.emit _ _ (by simp)) (.pure k.order _)

/-! ## Controllers -/

theorem emitPhase (c : Nat) : Tracks R (emitPhase run c) (emitPhase run' c) :=
  .bind k.order (.get k.order) fun _ => k.emit _ _ (by simp)

theorem refresh (c : Nat) : Tracks R (refresh run β c) (refresh run' β c) := by
  refine .bind k.order (.get k.order) fun w => ?_
  cases (w.controller c).view with
  | none => exact .pure k.order _
  | some v => exact k.holdingView v (.bind k.order (k.client _) fun _ => k.client _)

theorem handleAction (c : Nat) (name : String) (data : Value) :
    Tracks R (handleAction run β c name data) (handleAction run' β c name data) := by
  refine .bind k.order (.get k.order) fun w => .ite (k.emit _ _ (by simp)) ?_
  refine .bind k.order (k.client _) fun handled => .ite (.pure k.order _) ?_
  exact .ite (.bind k.order (k.refresh c) fun _ => k.emit _ _ (by simp)) (.pure k.order _)

theorem handleClosing (c : Nat)
    (closing : ∀ w, R w (updateController c (fun o => { o with closing := true }) w)) :
    Tracks R (handleClosing run β c) (handleClosing run' β c) := by
  refine .bind k.order (.get k.order) fun w => .ite (.pure k.order _) ?_
  refine .bind k.order (k.client _) fun _ => ?_
  exact .bind k.order (.modify closing) fun _ => k.emitPhase c

theorem ifControllerAlive (c : Nat) {p q : Proc (Ensemble σ ε) Unit} (tracks : Tracks R p q) :
    Tracks R (ifControllerAlive run c p) (ifControllerAlive run' c q) :=
  .bind k.order (.get k.order) fun _ => .ite (k.holdingController c tracks) (.pure k.order _)

theorem ifViewAlive (v : Nat) {p q : Proc (Ensemble σ ε) Unit} (tracks : Tracks R p q) :
    Tracks R (ifViewAlive run v p) (ifViewAlive run' v q) :=
  .bind k.order (.get k.order) fun _ => .ite (k.holdingView v tracks) (.pure k.order _)

/-! ## Calls -/

theorem serve (slot : Slot σ) (notice : Notice)
    (closing : ∀ c, slot = .controllerClosing c → notice = .closing →
      Tracks R (Ensemble.handleClosing run β c) (Ensemble.handleClosing run' β c)) :
    Tracks R (serve run β slot notice) (serve run' β slot notice) := by
  cases slot with
  | client code => cases notice <;> exact k.client _
  | controllerData c =>
      cases notice with
      | dataChanged => exact k.ifControllerAlive c (k.client _)
      | _ => exact .pure k.order ()
  | controllerAction c =>
      cases notice with
      | action name data => exact k.ifControllerAlive c (k.handleAction c name data)
      | _ => exact .pure k.order ()
  | controllerClosing c =>
      cases notice with
      | closing => exact k.ifControllerAlive c (closing c rfl rfl)
      | _ => exact .pure k.order ()
  | controllerUpdate c =>
      cases notice with
      | updateRequested => exact k.ifControllerAlive c (k.client _)
      | _ => exact .pure k.order ()
  | viewError v =>
      cases notice with
      | text message => exact k.ifViewAlive v (k.client _)
      | _ => exact .pure k.order ()
  | viewInfo v =>
      cases notice with
      | text message => exact .ite (.pure k.order _) (k.ifViewAlive v (k.client _))
      | _ => exact .pure k.order ()
  | viewPhase v =>
      cases notice with
      | phase phase => exact .ite (.pure k.order _) (k.ifViewAlive v (k.client _))
      | _ => exact .pure k.order ()

theorem performAction (fuel : Nat) (a : Action σ ε) (w : Ensemble σ ε)
    (elementary : a.isElementary = true →
      TracksAt R (performAction run β fuel a) (performAction run' β fuel a) w)
    (initialized : ∀ c, a = .initializeController c →
      TracksAt R (performAction run β fuel a) (performAction run' β fuel a) w) :
    TracksAt R (performAction run β fuel a) (performAction run' β fuel a) w := by
  cases a with
  | connect | disconnect | disconnectAll | block | close | release | setModel | setView
  | attach | handleClosing | announceClosing | dropController | dropView | change =>
      exact elementary rfl
  | emit s notice =>
      by_cases closing : ∃ v, s = .viewClosing v
      · obtain ⟨v, rfl⟩ := closing
        exact elementary rfl
      · exact k.emit s notice (fun v same => closing ⟨v, same⟩) w
  | post d code => exact Tracks.modify (fun w => k.post w d code) w
  | drain d => exact k.drain d fuel w
  | perform code => exact k.client _ w
  | inBackground a => exact k.inBackground (k.action a) w
  | write m hooked name value => exact k.write m hooked name value w
  | setProperty m name value => exact k.setProperty m name value w
  | setSilently m name value => exact k.updateStore m _ w
  | replaceAll m pairs => exact k.updateStore m _ w
  | clear m => exact k.updateStore m _ w
  | initializeModel m => exact k.initializeModel m w
  | resetModel m => exact k.resetModel m w
  | initializeController c => exact initialized c rfl
  | handleAction c name data => exact k.holdingController c (k.handleAction c name data) w
  | refresh c => exact k.holdingController c (k.refresh c) w
  | reportError c message => exact k.holdingController c (k.emit _ _ (by simp)) w
  | reportDone c message => exact k.holdingController c (k.emit _ _ (by simp)) w
  | initializeView v => exact k.holdingView v (k.initializeView v) w
  | enable v enabled => exact Tracks.modify (fun w => k.view w v (·.initialized) _) w
  | report v name data => exact k.holdingView v (k.report v name data) w
  | displayView v => exact k.holdingView v (k.client _) w
  | finishUpdate v => exact k.emit _ _ (by simp) w
  | showError v message => exact k.holdingView v (k.client _) w
  | showInfo v message => exact k.holdingView v (k.client _) w

end Caretaker

namespace Keeper

variable {R : Ensemble σ ε → Ensemble σ ε → Prop} {β : Behaviour σ ε} {run run' : Runner σ ε}
  (k : Keeper R β run run')
include k

theorem rebindIfReady (c : Nat) :
    Tracks R (rebindIfReady run β c) (rebindIfReady run' β c) :=
  .bind k.order (.get k.order) fun _ => .ite (k.bindings c) (.pure k.order _)

theorem initializeController (c : Nat) :
    Tracks R (initializeController run β c) (initializeController run' β c) := by
  refine .bind k.order (.get k.order) fun w => .ite (.pure k.order _) ?_
  refine .bind k.order (k.client _) fun result => ?_
  cases result with
  | error e => exact .pure k.order _
  | ok r =>
      refine .bind k.order (.modify fun w => k.initialized w c) fun _ => ?_
      refine .bind k.order (k.rebindIfReady c) fun _ => ?_
      exact .bind k.order (k.emitPhase c) fun _ => .pure k.order _

theorem performAction (fuel : Nat) (a : Action σ ε) (w : Ensemble σ ε)
    (elementary : a.isElementary = true →
      TracksAt R (performAction run β fuel a) (performAction run' β fuel a) w) :
    TracksAt R (performAction run β fuel a) (performAction run' β fuel a) w := by
  refine k.toCaretaker.performAction fuel a w elementary fun c same => ?_
  subst same
  exact k.holdingController c (k.initializeController c) w

end Keeper

/-! ## Parts of operations that relations answer for by themselves -/

section Parts

variable {R : Ensemble σ ε → Ensemble σ ε → Prop} {run run' : Runner σ ε}

theorem deliver_tracks (order : Composes R) (s : SignalRef) (notice : Notice) (id : ConnectionId)
    (connection : Connection (Slot σ))
    (slot : Tracks R (run (.slot connection.slot notice)) (run' (.slot connection.slot notice)))
    (post : ∀ w d t, R w (updateDispatcher d (fun q => q.post t) w)) :
    Tracks R (deliver run s notice id connection) (deliver run' s notice id connection) := by
  unfold deliver
  cases connection.delivery with
  | direct => exact slot
  | dispatched mode d =>
      exact .bind order (.get order) fun w => .ite slot (.modify fun w => post w d _)

theorem visit_append (run : Runner σ ε) (s : SignalRef) (notice : Notice)
    (xs ys : List (ConnectionId × Connection (Slot σ))) :
    visit run s notice (xs ++ ys) = (do visit run s notice xs; visit run s notice ys) := by
  induction xs with
  | nil => rfl
  | cons first rest ih =>
      simp only [List.cons_append, visit, ih, bind_assoc]
      refine bind_congr fun w => ?_
      split <;> simp only [bind_assoc]

/-- An emission is tracked if the slots are that it may serve, and if it may post. -/
theorem visit_tracks (order : Composes R) (s : SignalRef) (notice : Notice)
    (connections : List (ConnectionId × Connection (Slot σ)))
    (slots : ∀ c ∈ connections,
      Tracks R (run (.slot c.2.slot notice)) (run' (.slot c.2.slot notice)))
    (post : ∀ w d t, R w (updateDispatcher d (fun q => q.post t) w)) :
    Tracks R (visit run s notice connections) (visit run' s notice connections) := by
  induction connections with
  | nil => exact .pure order ()
  | cons first rest ih =>
      obtain ⟨id, connection⟩ := first
      have slot := slots (id, connection) List.mem_cons_self
      have others := ih fun c member => slots c (List.mem_cons_of_mem _ member)
      have delivered := deliver_tracks order s notice id connection slot post
      refine .bind order (.get order) fun w => ?_
      split
      · exact .bind order delivered fun _ => others
      · exact .bind order (.pure order ()) fun _ => others

theorem emit_tracks (order : Composes R) (s : SignalRef) (notice : Notice)
    (slots : ∀ slot, Tracks R (run (.slot slot notice)) (run' (.slot slot notice)))
    (post : ∀ w d t, R w (updateDispatcher d (fun q => q.post t) w)) :
    Tracks R (emit run s notice) (emit run' s notice) :=
  .bind order (.get order) fun _ =>
    .ite (.pure order ()) (visit_tracks order s notice _ (fun c _ => slots c.2.slot) post)

/-- Draining is tracked if the tasks are, and if they may be taken from the queue. -/
theorem drain_tracks (order : Composes R) (tasks : ∀ t, Tracks R (run (.task t)) (run' (.task t)))
    (dispatcher : ∀ w d f, R w (updateDispatcher d f w)) (d fuel : Nat) :
    Tracks R (drain run d fuel) (drain run' d fuel) := by
  induction fuel with
  | zero => exact .tooDeep _
  | succ fuel ih =>
      refine .bind order (.get order) fun w => ?_
      cases (w.dispatcher d).next? with
      | none => exact .pure order 0
      | some next =>
          refine .bind order (.modify fun w => dispatcher w d _) fun _ => ?_
          refine .bind order (tasks next.1) fun _ => ?_
          refine .bind order (.modify fun w => dispatcher w d _) fun _ => ?_
          exact .bind order ih fun n => .pure order (n + 1)

/-- What is done in the background is tracked if changes of the thread are. -/
theorem inBackground_tracks (order : Composes R)
    (thread : ∀ (w : Ensemble σ ε) t, R w { w with thread := t }) {α : Type}
    {p q : Proc (Ensemble σ ε) α} (tracks : Tracks R p q) :
    Tracks R (inBackground p) (inBackground q) := by
  refine .bind order (.get order) fun w => .bind order (.modify fun w => thread w _) fun _ => ?_
  refine .bind order tracks fun r => ?_
  exact .bind order (.modify fun w => thread w _) fun _ => .pure order r

theorem runTask_tracks (order : Composes R) (β : Behaviour σ ε)
    (calls : ∀ call, Tracks R (run call) (run' call)) (t : Task σ) :
    Tracks R (runTask run β t) (runTask run' β t) := by
  cases t with
  | delivery s id slot notice =>
      exact .bind order (.get order) fun _ => .ite (calls _) (.pure order ())
  | client code => exact .program order (fun a => calls (.action a)) _

end Parts

end Ensemble

end Mvc
