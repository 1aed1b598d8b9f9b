import Mvc.Proofs.Discipline

/-! # Notes beside a run

Whoever wants to say how often something happened in a run, and in what order, keeps notes. The
notes stand in the client's own state beside what the client has there, and no client code sees
or changes them: a behaviour is put beside notes by showing it the state without them.

Operations do beside notes what they do without them (`bares_body`), as long as the calls do
that they set off. So notes may be taken at calls, whatever else is going on.
-/

namespace Mvc

variable {σ ε ν : Type}

/-- What is the client's own, with notes beside it. -/
structure Noted (ν ε : Type) where
  own : ε
  notes : ν

/-- An ensemble without the notes. -/
def Ensemble.bare (w : Ensemble σ (Noted ν ε)) : Ensemble σ ε := { w with client := w.client.own }

namespace Action

/-- The same action beside notes. -/
def beside (ν : Type) : Action σ ε → Action σ (Noted ν ε)
  | connect s slot delivery => connect s slot delivery
  | disconnect s id => disconnect s id
  | disconnectAll s => disconnectAll s
  | block s blocked => block s blocked
  | emit s notice => emit s notice
  | close s => close s
  | release subscription => release subscription
  | post d code => post d code
  | drain d => drain d
  | perform code => perform code
  | inBackground a => inBackground (a.beside ν)
  | write m hooked name value => write m hooked name value
  | setProperty m name value => setProperty m name value
  | setSilently m name value => setSilently m name value
  | replaceAll m pairs => replaceAll m pairs
  | clear m => clear m
  | initializeModel m => initializeModel m
  | resetModel m => resetModel m
  | setModel c m => setModel c m
  | setView c v => setView c v
  | initializeController c => initializeController c
  | handleAction c name data => handleAction c name data
  | refresh c => refresh c
  | handleClosing c => handleClosing c
  | reportError c message => reportError c message
  | reportDone c message => reportDone c message
  | dropController c => dropController c
  | initializeView v => initializeView v
  | enable v enabled => enable v enabled
  | report v name data => report v name data
  | announceClosing v => announceClosing v
  | attach v c => attach v c
  | displayView v => displayView v
  | finishUpdate v => finishUpdate v
  | showError v message => showError v message
  | showInfo v message => showInfo v message
  | dropView v => dropView v
  | change f => change fun c => { c with own := f c.own }

theorem result_beside (a : Action σ ε) : (a.beside ν).Result = a.Result := by
  induction a with
  | inBackground a ih => exact ih
  | _ => rfl

/-- What an action gave beside notes, it gives. -/
def result (a : Action σ ε) : (a.beside ν).Result → a.Result := cast a.result_beside

end Action

/-- The same code beside notes. -/
def Program.beside {ρ : Type} (ν : Type) : Client σ ε ρ → Client σ (Noted ν ε) ρ
  | .done r => .done r
  | .look next => .look fun w => (next w.bare).beside ν
  | .act a next => .act (a.beside ν) fun r => (next (a.result r)).beside ν

/-- The same behaviour beside notes. -/
def Behaviour.beside (β : Behaviour σ ε) (ν : Type) : Behaviour σ (Noted ν ε) where
  accepts m name value := (β.accepts m name value).beside ν
  afterSet m name old new := (β.afterSet m name old new).beside ν
  populate m := (β.populate m).beside ν
  validates := β.validates
  setup c := (β.setup c).beside ν
  connect c := (β.connect c).beside ν
  handles c name data := (β.handles c name data).beside ν
  isValid c w := β.isValid c w.bare
  derive c := (β.derive c).beside ν
  dataChanged c := (β.dataChanged c).beside ν
  updateRequested c := (β.updateRequested c).beside ν
  closing c := (β.closing c).beside ν
  viewSetup v := (β.viewSetup v).beside ν
  display v := (β.display v).beside ν
  showError v message := (β.showError v message).beside ν
  showInfo v message := (β.showInfo v message).beside ν
  slot code notice := (β.slot code notice).beside ν
  job code := (β.job code).beside ν

namespace Ensemble

/-! ## What a state without notes shows -/

section Parts

variable (w : Ensemble σ (Noted ν ε))

@[simp] theorem model_bare (m : Nat) : w.bare.model m = w.model m := rfl

@[simp] theorem view_bare (v : Nat) : w.bare.view v = w.view v := rfl

@[simp] theorem controller_bare (c : Nat) : w.bare.controller c = w.controller c := rfl

@[simp] theorem dispatcher_bare (d : Nat) : w.bare.dispatcher d = w.dispatcher d := rfl

@[simp] theorem thread_bare : w.bare.thread = w.thread := rfl

@[simp] theorem signal_bare (s : SignalRef) : w.bare.signal s = w.signal s := by
  cases s <;> rfl

@[simp] theorem isViewAlive_bare (v : Nat) : w.bare.isViewAlive v = w.isViewAlive v := rfl

@[simp] theorem isControllerAlive_bare (c : Nat) :
    w.bare.isControllerAlive c = w.isControllerAlive c := rfl

@[simp] theorem viewController?_bare (v : Nat) : w.bare.viewController? v = w.viewController? v :=
  rfl

theorem bare_setSignal (s : SignalRef) (x : Signal (Slot σ)) :
    (setSignal s x w).bare = setSignal s x w.bare := by
  cases s <;> rfl

end Parts

/-! ## Notes beside a state -/

/-- The same ensemble, with notes. -/
def noted (w : Ensemble σ ε) (notes : ν) : Ensemble σ (Noted ν ε) :=
  { w with client := ⟨w.client, notes⟩ }

@[simp] theorem signal_noted (w : Ensemble σ ε) (notes : ν) (s : SignalRef) :
    (w.noted notes).signal s = w.signal s := by
  cases s <;> rfl

/-! ## Doing the same without the notes -/

open Proc

variable {α α' γ γ' : Type}

/-- Without the notes, the first procedure does what the second does. -/
def Bares (f : α' → α) (p' : Proc (Ensemble σ (Noted ν ε)) α') (p : Proc (Ensemble σ ε) α) :
    Prop :=
  ∀ w, (p' w).map (fun x => (f x.1, x.2.bare)) = p w.bare

namespace Bares

theorem pure {f : α' → α} (r : α') :
    Bares (σ := σ) (ε := ε) (ν := ν) f (pure r) (pure (f r)) := fun _ => rfl

theorem tooDeep {f : α' → α} :
    Bares (σ := σ) (ε := ε) (ν := ν) f Proc.tooDeep Proc.tooDeep := fun _ => rfl

theorem bind {f : α' → α} {g : γ' → γ} {p' : Proc (Ensemble σ (Noted ν ε)) α'}
    {p : Proc (Ensemble σ ε) α} {next' : α' → Proc (Ensemble σ (Noted ν ε)) γ'}
    {next : α → Proc (Ensemble σ ε) γ} (first : Bares f p' p)
    (rest : ∀ r, Bares g (next' r) (next (f r))) : Bares g (p' >>= next') (p >>= next) := by
  intro w
  show ((p' w).bind fun x => next' x.1 x.2).map _ = (p w.bare).bind fun x => next x.1 x.2
  rw [← first w]
  cases h : p' w with
  | none => rfl
  | some x => exact rest x.1 x.2

/-- The state may be looked at. -/
theorem look {g : α' → α} {next' : Ensemble σ (Noted ν ε) → Proc (Ensemble σ (Noted ν ε)) α'}
    {next : Ensemble σ ε → Proc (Ensemble σ ε) α} (rest : ∀ w, Bares g (next' w) (next w.bare)) :
    Bares g (get >>= next') (get >>= next) := fun w => rest w w

/-- What is noted is not seen. -/
theorem note {g : Ensemble σ (Noted ν ε) → Ensemble σ (Noted ν ε)} {f : α' → α}
    {next : Unit → Proc (Ensemble σ (Noted ν ε)) α'} {p : Proc (Ensemble σ ε) α}
    (unseen : (fun w => (g w).bare) = Ensemble.bare) (rest : Bares f (next ()) p) :
    Bares f (modify g >>= next) p := by
  intro w
  rw [← congrFun unseen w]
  exact rest (g w)

theorem modify {f' : Ensemble σ (Noted ν ε) → Ensemble σ (Noted ν ε)}
    {f : Ensemble σ ε → Ensemble σ ε} (same : ∀ w, (f' w).bare = f w.bare) :
    Bares id (modify f' : Proc _ Unit) (modify f) := by
  intro w
  show some ((), (f' w).bare) = some ((), f w.bare)
  rw [same]

theorem ite {c : Prop} [Decidable c] {f : α' → α} {p' q' : Proc (Ensemble σ (Noted ν ε)) α'}
    {p q : Proc (Ensemble σ ε) α} (yes : Bares f p' p) (no : Bares f q' q) :
    Bares f (if c then p' else q') (if c then p else q) := by
  split
  · exact yes
  · exact no

end Bares

/-- Without the notes, the first runner does what the second does. -/
structure BareRunner (run' : Runner σ (Noted ν ε)) (run : Runner σ ε) : Prop where
  slot : ∀ slot notice, Bares id (run' (.slot slot notice)) (run (.slot slot notice))
  task : ∀ task, Bares id (run' (.task task)) (run (.task task))
  subscription : ∀ code, Bares id (run' (.subscription code)) (run (.subscription code))
  action : ∀ a, Bares a.result (run' (.action (a.beside ν))) (run (.action a))

/-! ## Operations -/

theorem bares_connect (s : SignalRef) (slot : Slot σ) (delivery : Delivery) :
    Bares id (connect (ε := Noted ν ε) s slot delivery) (connect (ε := ε) s slot delivery) := by
  refine .look fun w => ?_
  simp only [signal_bare]
  exact .bind (.modify fun w => bare_setSignal w s _) fun _ => .pure _

theorem bares_disconnect (s : SignalRef) (i : ConnectionId) :
    Bares id (disconnect (σ := σ) (ε := Noted ν ε) s i) (disconnect (ε := ε) s i) := by
  refine .look fun w => ?_
  simp only [signal_bare]
  exact .bind (.modify fun w => bare_setSignal w s _) fun _ => .pure _

theorem bares_changeSignal (s : SignalRef) (f : Signal (Slot σ) → Signal (Slot σ)) :
    Bares id (changeSignal (ε := Noted ν ε) s f) (changeSignal (ε := ε) s f) :=
  .modify fun w => by rw [bare_setSignal, signal_bare]

section Operations

variable {run' : Runner σ (Noted ν ε)} {run : Runner σ ε} (calls : BareRunner run' run)
  (β : Behaviour σ ε)
include calls

theorem bares_client {ρ : Type} (code : Client σ ε ρ) :
    Bares id (run'.client (code.beside ν)) (run.client code) := by
  induction code with
  | done r => exact .pure r
  | look next ih => exact .look fun w => ih w.bare
  | act a next ih => exact .bind (calls.action a) fun r => ih (a.result r)

/-- A run of client code is there beside notes, too. -/
theorem exists_beside {ρ : Type} {code : Client σ ε ρ} {w w' : Ensemble σ ε} {r : ρ}
    (ran : run.client code w = some (r, w')) (notes : ν) :
    ∃ notes', run'.client (code.beside ν) (w.noted notes) = some (r, w'.noted notes') := by
  have bares := bares_client calls code (w.noted notes)
  have same : (w.noted notes).bare = w := rfl
  rw [same, ran] at bares
  obtain ⟨⟨r', v⟩, noted, eq⟩ := Option.map_eq_some_iff.mp bares
  obtain ⟨rfl, rfl⟩ := Prod.mk.inj eq
  exact ⟨v.client.notes, noted⟩

/-! ### Emission -/

theorem bares_deliver (s : SignalRef) (notice : Notice) (i : ConnectionId)
    (connection : Connection (Slot σ)) :
    Bares id (deliver run' s notice i connection) (deliver run s notice i connection) := by
  unfold deliver
  cases connection.delivery with
  | direct => exact calls.slot _ _
  | dispatched mode d =>
      exact .look fun w => .ite (calls.slot _ _) (.modify fun w => rfl)

theorem bares_visit (s : SignalRef) (notice : Notice)
    (connections : List (ConnectionId × Connection (Slot σ))) :
    Bares id (visit run' s notice connections) (visit run s notice connections) := by
  induction connections with
  | nil => exact .pure ()
  | cons first rest ih =>
      refine .look fun w => ?_
      rw [signal_bare]
      split
      · exact .bind (bares_deliver calls s notice _ _) fun _ => ih
      · exact .bind (.pure ()) fun _ => ih

theorem bares_emit (s : SignalRef) (notice : Notice) :
    Bares id (emit run' s notice) (emit run s notice) := by
  refine .look fun w => ?_
  simp only [signal_bare]
  exact .ite (.pure ()) (bares_visit calls s notice _)

theorem bares_release (subscription : Subscription σ) :
    Bares id (release run' subscription) (release run subscription) := by
  cases subscription with
  | connection s i => exact .bind (bares_disconnect s i) fun _ => .pure ()
  | client code => exact calls.subscription code

theorem bares_releaseAll (subscriptions : List (Subscription σ)) :
    Bares id (releaseAll run' subscriptions) (releaseAll run subscriptions) := by
  induction subscriptions with
  | nil => exact .pure ()
  | cons first rest ih => exact .bind (bares_release calls first) fun _ => ih

theorem bares_runTask (task : Task σ) :
    Bares id (runTask run' (β.beside ν) task) (runTask run β task) := by
  cases task with
  | delivery s i slot notice =>
      refine .look fun w => ?_
      rw [signal_bare]
      exact .ite (calls.slot _ _) (.pure ())
  | client code => exact bares_client calls _

theorem bares_drain (d fuel : Nat) : Bares id (drain run' d fuel) (drain run d fuel) := by
  induction fuel with
  | zero => exact .tooDeep
  | succ fuel ih =>
      refine .look fun w => ?_
      rw [dispatcher_bare]
      cases (w.dispatcher d).next? with
      | none => exact .pure 0
      | some next =>
          refine .bind (.modify fun w => rfl) fun _ => ?_
          refine .bind (calls.task next.1) fun _ => ?_
          exact .bind (.modify fun w => rfl) fun _ => .bind ih fun n => .pure (n + 1)

omit calls in
theorem bares_inBackground {f : α' → α} {p' : Proc (Ensemble σ (Noted ν ε)) α'}
    {p : Proc (Ensemble σ ε) α} (inner : Bares f p' p) :
    Bares f (inBackground p') (inBackground p) := by
  refine .look fun w => .bind (.modify fun w => rfl) fun _ => ?_
  exact .bind inner fun r => .bind (.modify fun w => rfl) fun _ => .pure r

/-! ### Lifetimes -/

theorem bares_collectView (v : Nat) : Bares id (collectView run' v) (collectView run v) := by
  refine .look fun w => ?_
  rw [isViewAlive_bare]
  refine .ite (.pure ()) ?_
  exact .bind (.modify fun w => rfl) fun _ => bares_releaseAll calls _

theorem bares_collectController (c : Nat) :
    Bares id (collectController run' c) (collectController run c) := by
  refine .look fun w => ?_
  simp only [controller_bare]
  refine .ite (.pure ()) (.bind (.modify fun w => rfl) fun _ => ?_)
  have shut : Bares id
      (do
        releaseAll run' ((w.controller c).modelSubscriptions ++
          (w.controller c).viewSubscriptions ++ (w.controller c).bindings)
        modify (updateController c fun o =>
          { o with
            phaseChanged := o.phaseChanged.close
            errorOccurred := o.errorOccurred.close
            operationCompleted := o.operationCompleted.close }))
      (do
        releaseAll run ((w.controller c).modelSubscriptions ++
          (w.controller c).viewSubscriptions ++ (w.controller c).bindings)
        modify (updateController c fun o =>
          { o with
            phaseChanged := o.phaseChanged.close
            errorOccurred := o.errorOccurred.close
            operationCompleted := o.operationCompleted.close })) :=
    .bind (bares_releaseAll calls _) fun _ => .modify fun w => rfl
  cases (w.controller c).view with
  | some v => exact .bind (bares_collectView calls v) fun _ => shut
  | none => exact shut

theorem bares_holdingController {f : α' → α} (c : Nat) {p' : Proc (Ensemble σ (Noted ν ε)) α'}
    {p : Proc (Ensemble σ ε) α} (inner : Bares f p' p) :
    Bares f (holdingController run' c p') (holdingController run c p) := by
  refine .bind (.modify fun w => rfl) fun _ => .bind inner fun r => ?_
  exact .bind (.modify fun w => rfl) fun _ =>
    .bind (bares_collectController calls c) fun _ => .pure r

theorem bares_holdingView {f : α' → α} (v : Nat) {p' : Proc (Ensemble σ (Noted ν ε)) α'}
    {p : Proc (Ensemble σ ε) α} (inner : Bares f p' p) :
    Bares f (holdingView run' v p') (holdingView run v p) := by
  refine .bind (.modify fun w => rfl) fun _ => .bind inner fun r => ?_
  exact .bind (.modify fun w => rfl) fun _ => .bind (bares_collectView calls v) fun _ => .pure r

theorem bares_holdingView? {f : α' → α} (v : Option Nat) {p' : Proc (Ensemble σ (Noted ν ε)) α'}
    {p : Proc (Ensemble σ ε) α} (inner : Bares f p' p) :
    Bares f (holdingView? run' v p') (holdingView? run v p) := by
  cases v with
  | some v => exact bares_holdingView calls v inner
  | none => exact inner

theorem bares_dropController (c : Nat) :
    Bares id (dropController run' c) (dropController run c) := by
  refine .look fun w => .ite ?_ (.pure ())
  exact .bind (.modify fun w => rfl) fun _ => bares_collectController calls c

theorem bares_dropView (v : Nat) : Bares id (dropView run' v) (dropView run v) := by
  refine .look fun w => .ite ?_ (.pure ())
  exact .bind (.modify fun w => rfl) fun _ => bares_collectView calls v

/-! ### Models -/

theorem bares_write (m : Nat) (hooked : Bool) (name : String) (value : Value) :
    Bares id (write run' (β.beside ν) m hooked name value) (write run β m hooked name value) := by
  unfold write
  have announce : Bares id
      (do
        emit run' (.modelProperty m) (.property name value)
        emit run' (.modelData m) .dataChanged
        return SetOutcome.changed)
      (do
        emit run (.modelProperty m) (.property name value)
        emit run (.modelData m) .dataChanged
        return SetOutcome.changed) :=
    .bind (bares_emit calls _ _) fun _ => .bind (bares_emit calls _ _) fun _ => .pure _
  cases hooked with
  | false =>
      refine .bind (.pure true) fun accepted => .ite (.pure _) (.look fun w => ?_)
      exact .ite (.pure _) (.bind (.modify fun w => rfl) fun _ => announce)
  | true =>
      refine .bind (f := id) (bares_client calls _) fun accepted => ?_
      refine .ite (.pure _) (.look fun w => ?_)
      refine .ite (.pure _) (.bind (.modify fun w => rfl) fun _ => ?_)
      exact .bind (bares_client calls _) fun _ => announce

theorem bares_emitValidity (m : Nat) :
    Bares id (emitValidity run' (β.beside ν) m) (emitValidity run β m) :=
  .look fun _ => bares_emit calls _ _

theorem bares_setProperty (m : Nat) (name : String) (value : Value) :
    Bares id (setProperty run' (β.beside ν) m name value) (setProperty run β m name value) := by
  refine .bind (bares_write calls β m true name value) fun outcome => ?_
  cases outcome with
  | changed => exact .bind (bares_emitValidity calls β m) fun _ => .pure _
  | unchanged | rejected => exact .bind (.pure ()) fun _ => .pure _

theorem bares_emitReloaded (m : Nat) :
    Bares id (emitReloaded run' (β.beside ν) m) (emitReloaded run β m) :=
  .bind (bares_emit calls _ _) fun _ => bares_emitValidity calls β m

theorem bares_initializeModel (m : Nat) :
    Bares id (initializeModel run' (β.beside ν) m) (initializeModel run β m) := by
  refine .look fun w => .ite (.pure _) ?_
  refine .bind (bares_client calls _) fun populated => ?_
  cases populated with
  | error e => exact .pure _
  | ok defaults =>
      refine .look fun w => .ite (.pure _) (.bind (.modify fun w => rfl) fun _ => ?_)
      exact .bind (bares_emitReloaded calls β m) fun _ => .pure _

theorem bares_resetModel (m : Nat) :
    Bares id (resetModel run' (β.beside ν) m) (resetModel run β m) := by
  refine .bind (bares_client calls _) fun populated => ?_
  cases populated with
  | error e => exact .pure _
  | ok defaults =>
      refine .bind (.modify fun w => rfl) fun _ => ?_
      exact .bind (bares_emitReloaded calls β m) fun _ => .pure _

/-! ### Views -/

omit calls in
theorem bares_subscribeToController (v c : Nat) :
    Bares id (subscribeToController (σ := σ) (ε := Noted ν ε) v c)
      (subscribeToController (ε := ε) v c) := by
  refine .bind (bares_connect _ _ _) fun _ => .bind (bares_connect _ _ _) fun _ => ?_
  exact .bind (bares_connect _ _ _) fun _ => .pure _

theorem bares_attach (v : Nat) (c : Option Nat) :
    Bares id (attach run' v c) (attach run v c) := by
  refine .look fun w => ?_
  simp only [view_bare]
  refine .ite (.pure ()) (.bind (.modify fun w => rfl) fun _ => ?_)
  refine .bind (bares_releaseAll calls _) fun _ => ?_
  cases c with
  | none => exact .pure ()
  | some c =>
      exact .bind (bares_subscribeToController v c) fun _ => .modify fun w => rfl

theorem bares_initializeView (v : Nat) :
    Bares id (initializeView run' (β.beside ν) v) (initializeView run β v) := by
  refine .look fun w => .ite (.pure _) (.bind (bares_client calls _) fun result => ?_)
  cases result with
  | error e => exact .pure _
  | ok r => exact .bind (.modify fun w => rfl) fun _ => .pure _

theorem bares_report (v : Nat) (name : String) (data : Value) :
    Bares id (report run' v name data) (report run v name data) :=
  .look fun _ => .ite (bares_emit calls _ _) (.pure ())

theorem bares_announceClosing (v : Nat) :
    Bares id (announceClosing run' v) (announceClosing run v) :=
  .look fun _ => .ite (.pure ()) (.bind (.modify fun _ => rfl) fun _ => bares_emit calls _ _)

/-! ### Controllers -/

theorem bares_emitPhase (c : Nat) : Bares id (emitPhase run' c) (emitPhase run c) :=
  .look fun _ => bares_emit calls _ _

theorem bares_establishBindings (c : Nat) :
    Bares id (establishBindings run' (β.beside ν) c) (establishBindings run β c) := by
  refine .bind (bares_client calls _) fun bindings => .look fun w => ?_
  exact .bind (.modify fun w => rfl) fun _ => bares_releaseAll calls _

theorem bares_rebindIfReady (c : Nat) :
    Bares id (rebindIfReady run' (β.beside ν) c) (rebindIfReady run β c) :=
  .look fun _ => .ite (bares_establishBindings calls β c) (.pure ())

/-- Bindings are made anew if they can be, and the phase is announced. -/
theorem bares_rebindAndTell (c : Nat) :
    Bares id (do rebindIfReady run' (β.beside ν) c; emitPhase run' c)
      (do rebindIfReady run β c; emitPhase run c) :=
  .bind (bares_rebindIfReady calls β c) fun _ => bares_emitPhase calls c

omit calls in
theorem bares_subscribeToModel (c m : Nat) :
    Bares id (subscribeToModel (σ := σ) (ε := Noted ν ε) c m)
      (subscribeToModel (ε := ε) c m) :=
  .look fun _ => .bind (bares_connect _ _ _) fun _ => .pure _

omit calls in
theorem bares_subscribeToView (c v : Nat) :
    Bares id (subscribeToView (σ := σ) (ε := Noted ν ε) c v) (subscribeToView (ε := ε) c v) := by
  refine .bind (bares_connect _ _ _) fun _ => .bind (bares_connect _ _ _) fun _ => ?_
  exact .bind (bares_connect _ _ _) fun _ => .pure _

theorem bares_setModel (c : Nat) (m : Option Nat) :
    Bares id (setModel run' (β.beside ν) c m) (setModel run β c m) := by
  refine .look fun w => ?_
  simp only [controller_bare]
  refine .ite (.pure ()) (.bind (.modify fun w => rfl) fun _ => ?_)
  refine .bind (bares_releaseAll calls _) fun _ => .bind (bares_releaseAll calls _) fun _ => ?_
  cases m with
  | none => exact bares_rebindAndTell calls β c
  | some m =>
      refine .bind (bares_subscribeToModel c m) fun _ => .look fun w => ?_
      refine .bind (.modify fun w => rfl) fun _ => ?_
      exact .bind (bares_releaseAll calls _) fun _ => bares_rebindAndTell calls β c

theorem bares_unbindView (c v : Nat) : Bares id (unbindView run' c v) (unbindView run c v) := by
  refine .look fun w => ?_
  rw [viewController?_bare]
  exact .ite (bares_attach calls v none) (.pure ())

theorem bares_setView (c : Nat) (v : Option Nat) :
    Bares id (setView run' (β.beside ν) c v) (setView run β c v) := by
  refine .look fun w => ?_
  simp only [controller_bare]
  refine .ite (.pure ()) (.bind (f := id) (bares_holdingView? calls _ ?_) fun _ => ?_)
  · refine .bind (.modify fun w => rfl) fun _ => .bind (bares_releaseAll calls _) fun _ => ?_
    refine .bind (bares_releaseAll calls _) fun _ => ?_
    cases (w.controller c).view with
    | none => exact .pure ()
    | some old => exact bares_unbindView calls c old
  · cases v with
    | none => exact bares_rebindAndTell calls β c
    | some v =>
        refine .bind (bares_subscribeToView c v) fun _ => .look fun w => ?_
        refine .bind (.modify fun w => rfl) fun _ => .bind (bares_releaseAll calls _) fun _ => ?_
        exact .bind (bares_attach calls v (some c)) fun _ => bares_rebindAndTell calls β c

theorem bares_initializeController (c : Nat) :
    Bares id (initializeController run' (β.beside ν) c) (initializeController run β c) := by
  refine .look fun w => .ite (.pure _) (.bind (bares_client calls _) fun result => ?_)
  cases result with
  | error e => exact .pure _
  | ok r =>
      refine .bind (.modify fun w => rfl) fun _ => ?_
      refine .bind (bares_rebindIfReady calls β c) fun _ => ?_
      exact .bind (bares_emitPhase calls c) fun _ => .pure _

theorem bares_refresh (c : Nat) :
    Bares id (refresh run' (β.beside ν) c) (refresh run β c) := by
  refine .look fun w => ?_
  simp only [controller_bare]
  cases (w.controller c).view with
  | none => exact .pure ()
  | some v =>
      exact bares_holdingView calls v (.bind (bares_client calls _) fun _ => bares_client calls _)

theorem bares_handleAction (c : Nat) (name : String) (data : Value) :
    Bares id (handleAction run' (β.beside ν) c name data) (handleAction run β c name data) := by
  refine .look fun w => .ite (bares_emit calls _ _) ?_
  refine .bind (bares_client calls _) fun handled => .ite (.pure ()) ?_
  exact .ite (.bind (bares_refresh calls β c) fun _ => bares_emit calls _ _) (.pure ())

theorem bares_handleClosing (c : Nat) :
    Bares id (handleClosing run' (β.beside ν) c) (handleClosing run β c) := by
  refine .look fun w => .ite (.pure ()) (.bind (bares_client calls _) fun _ => ?_)
  exact .bind (.modify fun w => rfl) fun _ => bares_emitPhase calls c

/-! ### Calls -/

theorem bares_ifControllerAlive (c : Nat) {p' : Proc (Ensemble σ (Noted ν ε)) Unit}
    {p : Proc (Ensemble σ ε) Unit} (inner : Bares id p' p) :
    Bares id (ifControllerAlive run' c p') (ifControllerAlive run c p) :=
  .look fun _ => .ite (bares_holdingController calls c inner) (.pure ())

theorem bares_ifViewAlive (v : Nat) {p' : Proc (Ensemble σ (Noted ν ε)) Unit}
    {p : Proc (Ensemble σ ε) Unit} (inner : Bares id p' p) :
    Bares id (ifViewAlive run' v p') (ifViewAlive run v p) :=
  .look fun _ => .ite (bares_holdingView calls v inner) (.pure ())

theorem bares_serve (slot : Slot σ) (notice : Notice) :
    Bares id (serve run' (β.beside ν) slot notice) (serve run β slot notice) := by
  cases slot with
  | client code => cases notice <;> exact bares_client calls _
  | controllerData c =>
      cases notice with
      | dataChanged => exact bares_ifControllerAlive calls c (bares_client calls _)
      | _ => exact .pure ()
  | controllerAction c =>
      cases notice with
      | action name data =>
          exact bares_ifControllerAlive calls c (bares_handleAction calls β c name data)
      | _ => exact .pure ()
  | controllerClosing c =>
      cases notice with
      | closing => exact bares_ifControllerAlive calls c (bares_handleClosing calls β c)
      | _ => exact .pure ()
  | controllerUpdate c =>
      cases notice with
      | updateRequested => exact bares_ifControllerAlive calls c (bares_client calls _)
      | _ => exact .pure ()
  | viewError v =>
      cases notice with
      | text message => exact bares_ifViewAlive calls v (bares_client calls _)
      | _ => exact .pure ()
  | viewInfo v =>
      cases notice with
      | text message =>
          exact .ite (.pure ()) (bares_ifViewAlive calls v (bares_client calls _))
      | _ => exact .pure ()
  | viewPhase v =>
      cases notice with
      | phase phase => exact .ite (.pure ()) (bares_ifViewAlive calls v (bares_client calls _))
      | _ => exact .pure ()

theorem bares_performAction (fuel : Nat) (a : Action σ ε) :
    Bares a.result (performAction run' (β.beside ν) fuel (a.beside ν))
      (performAction run β fuel a) := by
  cases a with
  | connect s slot delivery => exact bares_connect s slot delivery
  | disconnect s i => exact bares_disconnect s i
  | disconnectAll s => exact bares_changeSignal s Signal.disconnectAll
  | block s blocked => exact bares_changeSignal s (·.setBlocked blocked)
  | emit s notice => exact bares_emit calls s notice
  | close s => exact bares_changeSignal s Signal.close
  | release subscription => exact bares_release calls subscription
  | post d code => exact .modify fun w => rfl
  | drain d => exact bares_drain calls d fuel
  | perform code => exact bares_client calls _
  | inBackground a => exact bares_inBackground (calls.action a)
  | write m hooked name value => exact bares_write calls β m hooked name value
  | setProperty m name value => exact bares_setProperty calls β m name value
  | setSilently m name value => exact .modify fun w => rfl
  | replaceAll m pairs => exact .modify fun w => rfl
  | clear m => exact .modify fun w => rfl
  | initializeModel m => exact bares_initializeModel calls β m
  | resetModel m => exact bares_resetModel calls β m
  | setModel c m => exact bares_holdingController calls c (bares_setModel calls β c m)
  | setView c v =>
      exact bares_holdingController calls c
        (bares_holdingView? calls v (bares_setView calls β c v))
  | initializeController c =>
      exact bares_holdingController calls c (bares_initializeController calls β c)
  | handleAction c name data =>
      exact bares_holdingController calls c (bares_handleAction calls β c name data)
  | refresh c => exact bares_holdingController calls c (bares_refresh calls β c)
  | handleClosing c => exact bares_holdingController calls c (bares_handleClosing calls β c)
  | reportError c message => exact bares_holdingController calls c (bares_emit calls _ _)
  | reportDone c message => exact bares_holdingController calls c (bares_emit calls _ _)
  | dropController c => exact bares_dropController calls c
  | initializeView v => exact bares_holdingView calls v (bares_initializeView calls β v)
  | enable v enabled => exact .modify fun w => rfl
  | report v name data => exact bares_holdingView calls v (bares_report calls v name data)
  | announceClosing v => exact bares_holdingView calls v (bares_announceClosing calls v)
  | attach v c => exact bares_holdingView calls v (bares_attach calls v c)
  | displayView v => exact bares_holdingView calls v (bares_client calls _)
  | finishUpdate v => exact bares_emit calls _ _
  | showError v message => exact bares_holdingView calls v (bares_client calls _)
  | showInfo v message => exact bares_holdingView calls v (bares_client calls _)
  | dropView v => exact bares_dropView calls v
  | change f => exact .modify fun w => rfl

/-- What a call does beside notes it does without them, if the calls do that it sets off. -/
theorem bares_body (fuel : Nat) : BareRunner (body run' (β.beside ν) fuel) (body run β fuel) where
  slot := bares_serve calls β
  task := bares_runTask calls β
  subscription _ := bares_client calls _
  action := bares_performAction calls β fuel

end Operations

end Ensemble

end Mvc
