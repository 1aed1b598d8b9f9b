import Mvc.Proofs.Notes
import Mvc.Proofs.Traffic

/-! # A controller and its logbook

A logbook is kept of one controller: when it turns to another model or view, which bindings
were made for which of them, and which were ended; how its setup came out; which model it
listens to; and what is announced of its phase, and to whom. It stands beside everything else,
so a run that is logged does what it does otherwise (`bare_logged`).

Client code may do to the controller what it likes, wherever it runs. It only leaves the
controller its handle and the announcing of its phase.
-/

namespace Mvc

variable {σ ε : Type}

/-- The model and the view that are bound to a controller. -/
structure Pair where
  model : Option Nat
  view : Option Nat
  deriving DecidableEq

/-- What happens to a controller. -/
inductive Happening (σ : Type) where
  /-- It turns to another model or view, while something is being done to it or not. -/
  | turned (pair : Pair) (nested : Bool)
  /-- It comes to listen to a model, and this model is bound at that time, or none. -/
  | joined (model : Nat) (bound : Option Nat)
  /-- Its setup begins. -/
  | tried
  /-- Its setup comes to an end. -/
  | setUp (outcome : Except ControllerError Unit)
  /-- Bindings were made. One pair was bound when this began, and one when it came to an end. -/
  | made (first last : Pair) (bindings : List (Subscription σ))
  /-- Bindings have come to an end. -/
  | ended (bindings : List (Subscription σ))
  /-- It begins to close. -/
  | closes
  /-- Its phase is announced, while an announcement is going on or not, and with the signal
      blocked or not. -/
  | told (phase : Phase) (nested blocked : Bool)
  /-- Somebody who is connected is given the phase. -/
  | given (listener : ConnectionId) (phase : Phase)

/-- What is written down of a controller. -/
structure Logbook (σ : Type) where
  /-- What happened, the latest last. -/
  entries : List (Happening σ)
  /-- Whether something is just being done to it. -/
  busy : Bool
  /-- Whether its phase is just being announced. -/
  telling : Bool

/-- Nothing is written down. -/
def Logbook.empty : Logbook σ := ⟨[], false, false⟩

/-- What is bound to a controller. -/
def Controller.pair (o : Controller σ) : Pair := ⟨o.model, o.view⟩

namespace Ensemble

/-- What client code may do that minds a controller. -/
def minds (c : Nat) (w : Ensemble σ ε) : Action σ ε → Bool
  | .setModel b m => b ≠ c || m.all fun i => !(w.signal (.modelData i)).closed
  | .setView .. | .attach .. => true
  | .dropController b => b ≠ c
  | .emit s _ => s ≠ .controllerPhase c
  | a => w.traffic a

/-- The discipline of client code that minds a controller. -/
def minding (c : Nat) : Discipline σ ε := ⟨minds c, minds c⟩

/-! ## Keeping the logbook -/

section Logging

variable (run : Runner σ (Noted (Logbook σ) ε)) (β : Behaviour σ (Noted (Logbook σ) ε)) (c : Nat)

/-- Write something down. -/
def enter (e : Happening σ) (w : Ensemble σ (Noted (Logbook σ) ε)) :
    Ensemble σ (Noted (Logbook σ) ε) :=
  let notes := { w.client.notes with entries := w.client.notes.entries ++ [e] }
  { w with client := { w.client with notes } }

omit run β c in
theorem controller_enter (e : Happening σ) (w : Ensemble σ (Noted (Logbook σ) ε)) (b : Nat) :
    (enter e w).controller b = w.controller b := rfl

/-- Something begins to be done to the controller, or ends. -/
def setBusy (busy : Bool) (w : Ensemble σ (Noted (Logbook σ) ε)) :
    Ensemble σ (Noted (Logbook σ) ε) :=
  { w with client := { w.client with notes := { w.client.notes with busy } } }

/-- Do something to the controller. -/
def occupied {α : Type} (p : Proc (Ensemble σ (Noted (Logbook σ) ε)) α) :
    Proc (Ensemble σ (Noted (Logbook σ) ε)) α := do
  let w ← get
  modify (setBusy true)
  let r ← p
  modify (setBusy w.client.notes.busy)
  return r

/-- An announcement begins or ends. -/
def setTelling (telling : Bool) (w : Ensemble σ (Noted (Logbook σ) ε)) :
    Ensemble σ (Noted (Logbook σ) ε) :=
  { w with client := { w.client with notes := { w.client.notes with telling } } }

/-- Visit those who are connected to the phase. -/
def logVisit (phase : Phase) : List (ConnectionId × Connection (Slot σ)) →
    Proc (Ensemble σ (Noted (Logbook σ) ε)) Unit
  | [] => pure ()
  | (id, connection) :: rest => do
    if ((← get).signal (.controllerPhase c)).isConnected id then
      modify (enter (.given id phase))
      deliver run (.controllerPhase c) (.phase phase) id connection
    logVisit phase rest

/-- Emit the phase. -/
def logEmission (phase : Phase) : Proc (Ensemble σ (Noted (Logbook σ) ε)) Unit := do
  let s := (← get).signal (.controllerPhase c)
  if s.blocked then pure () else logVisit run c phase s.connections

/-- `emitPhase`, logged. -/
def logPhase : Proc (Ensemble σ (Noted (Logbook σ) ε)) Unit := do
  let w ← get
  let phase := (w.controller c).phase
  modify (enter (.told phase w.client.notes.telling (w.signal (.controllerPhase c)).blocked))
  modify (setTelling true)
  logEmission run c phase
  modify (setTelling w.client.notes.telling)

/-- `establishBindings`, logged. -/
def logBindings : Proc (Ensemble σ (Noted (Logbook σ) ε)) Unit := do
  let first := ((← get).controller c).pair
  let bindings ← run.client (β.connect c)
  let w ← get
  let previous := (w.controller c).bindings
  modify (enter (.made first (w.controller c).pair bindings))
  modify (updateController c fun o => { o with bindings })
  releaseAll run previous
  modify (enter (.ended previous))

/-- `rebindIfReady`, logged. -/
def logRebind : Proc (Ensemble σ (Noted (Logbook σ) ε)) Unit := do
  if isReady ((← get).controller c) then logBindings run β c

/-- Bindings are made anew if they can be, and the phase is announced; all of it logged. -/
def logRebinding : Proc (Ensemble σ (Noted (Logbook σ) ε)) Unit := do
  logRebind run β c
  logPhase run c

/-- Another model is bound, or none, where there was what a controller had. -/
def logTurn (o : Controller σ) (m : Option Nat) :
    Proc (Ensemble σ (Noted (Logbook σ) ε)) Unit := do
  modify (updateController c fun o =>
    { o with model := m, modelSubscriptions := [], bindings := [] })
  releaseAll run o.modelSubscriptions
  releaseAll run o.bindings
  modify (enter (.ended o.bindings))
  match m with
  | none => pure ()
  | some m =>
    let subscriptions ← subscribeToModel c m
    let previous := ((← get).controller c).modelSubscriptions
    modify (updateController c fun o => { o with modelSubscriptions := subscriptions })
    releaseAll run previous
    let w ← get
    modify (enter (.joined m (w.controller c).model))
  logRebinding run β c

/-- `setModel`, logged. -/
def logModel (m : Option Nat) : Proc (Ensemble σ (Noted (Logbook σ) ε)) Unit := do
  let w ← get
  let o := w.controller c
  if o.model = m then pure ()
  else
    modify (enter (.turned ⟨m, o.view⟩ w.client.notes.busy))
    occupied (logTurn run β c o m)

/-- Another view is bound, or none, where there was what a controller had. -/
def logFacing (o : Controller σ) (v : Option Nat) :
    Proc (Ensemble σ (Noted (Logbook σ) ε)) Unit := do
  holdingView? run o.view do
    modify (updateController c fun o =>
      { o with closing := false, view := v, viewSubscriptions := [], bindings := [] })
    releaseAll run o.viewSubscriptions
    releaseAll run o.bindings
    match o.view with
    | none => pure ()
    | some old => unbindView run c old
  modify (enter (.ended o.bindings))
  match v with
  | none => pure ()
  | some v =>
    let subscriptions ← subscribeToView c v
    let previous := ((← get).controller c).viewSubscriptions
    modify (updateController c fun o => { o with viewSubscriptions := subscriptions })
    releaseAll run previous
    attach run v (some c)
  logRebinding run β c

/-- `setView`, logged. -/
def logView (v : Option Nat) : Proc (Ensemble σ (Noted (Logbook σ) ε)) Unit := do
  let w ← get
  let o := w.controller c
  if o.view = v then pure ()
  else
    modify (enter (.turned ⟨o.model, v⟩ w.client.notes.busy))
    occupied (logFacing run β c o v)

/-- The controller's setup, and what follows if it succeeds. -/
def logTrial : Proc (Ensemble σ (Noted (Logbook σ) ε)) (Except ControllerError Unit) := do
  match ← run.client (β.setup c) with
  | .error e =>
    modify (enter (.setUp (.error e)))
    return .error e
  | .ok () =>
    modify (updateController c fun o => { o with initialized := true })
    modify (enter (.setUp (.ok ())))
    logRebinding run β c
    return .ok ()

/-- `initializeController`, logged. -/
def logSetup : Proc (Ensemble σ (Noted (Logbook σ) ε)) (Except ControllerError Unit) := do
  if ((← get).controller c).initialized then pure (.ok ())
  else
    modify (enter .tried)
    occupied (logTrial run β c)

/-- What the controller does before it closes, and the closing. -/
def logEnd : Proc (Ensemble σ (Noted (Logbook σ) ε)) Unit := do
  run.client (β.closing c)
  modify (updateController c fun o => { o with closing := true })
  logPhase run c

/-- `handleClosing`, logged. -/
def logClosing : Proc (Ensemble σ (Noted (Logbook σ) ε)) Unit := do
  if ((← get).controller c).closing then pure ()
  else
    modify (enter .closes)
    occupied (logEnd run β c)

/-- `body`, with a logbook of one controller. Client code does not write into it. -/
def loggedBody (fuel : Nat) : Runner σ (Noted (Logbook σ) ε)
  | .slot (.controllerClosing b) .closing =>
    ifControllerAlive run b (if b = c then logClosing run β c else handleClosing run β b)
  | .action (.setModel b m) =>
    holdingController run b (if b = c then logModel run β c m else setModel run β b m)
  | .action (.setView b v) =>
    holdingController run b (holdingView? run v
      (if b = c then logView run β c v else setView run β b v))
  | .action (.initializeController b) =>
    holdingController run b (if b = c then logSetup run β c else initializeController run β b)
  | .action (.handleClosing b) =>
    holdingController run b (if b = c then logClosing run β c else handleClosing run β b)
  | .action (.change f) =>
    modify fun w => { w with client := { f w.client with notes := w.client.notes } }
  | call => body run β fuel call

end Logging

/-- Run a call and keep a logbook of a controller that client code minds. -/
def logged (β : Behaviour σ ε) (c : Nat) : Nat → Runner σ (Noted (Logbook σ) ε)
  | 0 => fun _ => Proc.tooDeep
  | depth + 1 => fun call w =>
      if (minding c).admits w call then
        loggedBody (logged β c depth) (β.beside (Logbook σ)) c depth call w
      else none

/-! ## A logged run is a run -/

open Proc

/-- What is noted in the end is not seen. -/
theorem bares_noteLast {ν α : Type} {p' : Proc (Ensemble σ (Noted ν ε)) α}
    {p : Proc (Ensemble σ ε) α} {g : Ensemble σ (Noted ν ε) → Ensemble σ (Noted ν ε)}
    (unseen : (fun w => (g w).bare) = Ensemble.bare) (first : Bares id p' p) :
    Bares id (do let r ← p'; modify g; pure r) p := by
  have same : p = p >>= fun r => Pure.pure r := (bind_pure p).symm
  rw [same]
  exact .bind first fun r => .note unseen (.pure r)

/-- What is only looked at for the notes is not seen. -/
theorem bares_peek {ν α α' : Type} {g : α' → α}
    {next : Ensemble σ (Noted ν ε) → Proc (Ensemble σ (Noted ν ε)) α'} {p : Proc (Ensemble σ ε) α}
    (rest : ∀ w, Bares g (next w) p) : Bares g (get >>= next) p := fun w => rest w w

/-- That something is being done is not seen. -/
theorem bares_occupied {α : Type} {p' : Proc (Ensemble σ (Noted (Logbook σ) ε)) α}
    {p : Proc (Ensemble σ ε) α} (inner : Bares id p' p) : Bares id (occupied p') p :=
  bares_peek fun _ => .note rfl (bares_noteLast rfl inner)

section Unlogged

variable {run' : Runner σ (Noted (Logbook σ) ε)} {run : Runner σ ε} (calls : BareRunner run' run)
  (β : Behaviour σ ε) (c : Nat)
include calls

theorem bares_logVisit (phase : Phase) (connections : List (ConnectionId × Connection (Slot σ))) :
    Bares id (logVisit run' c phase connections)
      (visit run (.controllerPhase c) (.phase phase) connections) := by
  induction connections with
  | nil => exact .pure ()
  | cons first rest ih =>
      refine .look fun w => ?_
      rw [signal_bare]
      split
      · exact .note rfl (.bind (bares_deliver calls _ _ _ _) fun _ => ih)
      · exact .bind (.pure ()) fun _ => ih

theorem bares_logPhase : Bares id (logPhase run' c) (emitPhase run c) := by
  refine .look fun w => .note rfl (.note rfl (bares_noteLast rfl (.look fun v => ?_)))
  rw [signal_bare]
  exact .ite (.pure ()) (bares_logVisit calls c _ _)

theorem bares_logBindings : Bares id (logBindings run' (β.beside (Logbook σ)) c)
    (establishBindings run β c) := by
  refine bares_peek fun _ => ?_
  refine .bind (bares_client calls _) fun bindings => .look fun w => .note rfl ?_
  exact .bind (.modify fun w => rfl) fun _ => bares_noteLast rfl (bares_releaseAll calls _)

theorem bares_logRebind : Bares id (logRebind run' (β.beside (Logbook σ)) c)
    (rebindIfReady run β c) :=
  .look fun _ => .ite (bares_logBindings calls β c) (.pure ())

theorem bares_logRebinding : Bares id (logRebinding run' (β.beside (Logbook σ)) c)
    (do rebindIfReady run β c; emitPhase run c) :=
  .bind (bares_logRebind calls β c) fun _ => bares_logPhase calls c

theorem bares_logModel (m : Option Nat) : Bares id
    (logModel run' (β.beside (Logbook σ)) c m) (setModel run β c m) := by
  refine .look fun w => ?_
  simp only [controller_bare]
  refine .ite (.pure ()) (.note rfl (bares_occupied (.bind (.modify fun w => rfl) fun _ => ?_)))
  refine .bind (bares_releaseAll calls _) fun _ => .bind (bares_releaseAll calls _) fun _ => ?_
  refine .note rfl ?_
  cases m with
  | none => exact bares_logRebinding calls β c
  | some m =>
      refine .bind (bares_subscribeToModel c m) fun _ => .look fun w => ?_
      refine .bind (.modify fun w => rfl) fun _ => .bind (bares_releaseAll calls _) fun _ => ?_
      exact bares_peek fun _ => .note rfl (bares_logRebinding calls β c)

theorem bares_logView (v : Option Nat) : Bares id
    (logView run' (β.beside (Logbook σ)) c v) (setView run β c v) := by
  refine .look fun w => ?_
  simp only [controller_bare]
  refine .ite (.pure ()) (.note rfl (bares_occupied ?_))
  refine .bind (f := id) (bares_holdingView? calls _ ?_) fun _ => .note rfl ?_
  · refine .bind (.modify fun w => rfl) fun _ => .bind (bares_releaseAll calls _) fun _ => ?_
    refine .bind (bares_releaseAll calls _) fun _ => ?_
    cases (w.controller c).view with
    | none => exact .pure ()
    | some old => exact bares_unbindView calls c old
  · cases v with
    | none => exact bares_logRebinding calls β c
    | some v =>
        refine .bind (bares_subscribeToView c v) fun _ => .look fun w => ?_
        refine .bind (.modify fun w => rfl) fun _ => .bind (bares_releaseAll calls _) fun _ => ?_
        exact .bind (bares_attach calls v (some c)) fun _ => bares_logRebinding calls β c

theorem bares_logSetup : Bares id (logSetup run' (β.beside (Logbook σ)) c)
    (initializeController run β c) := by
  refine .look fun w => .ite (.pure _) (.note rfl (bares_occupied ?_))
  refine .bind (bares_client calls _) fun result => ?_
  cases result with
  | error e => exact .note rfl (.pure _)
  | ok r =>
      refine .bind (.modify fun w => rfl) fun _ => .note rfl ?_
      have same : ∀ {γ : Type} (q : Proc (Ensemble σ (Noted (Logbook σ) ε)) γ),
          (logRebinding run' (β.beside (Logbook σ)) c >>= fun _ => q) =
            logRebind run' (β.beside (Logbook σ)) c >>= fun _ => logPhase run' c >>= fun _ => q :=
        fun q => bind_assoc _ _ _
      rw [same]
      refine .bind (bares_logRebind calls β c) fun _ => ?_
      exact .bind (bares_logPhase calls c) fun _ => .pure _

theorem bares_logClosing : Bares id (logClosing run' (β.beside (Logbook σ)) c)
    (handleClosing run β c) := by
  refine .look fun w => .ite (.pure ()) (.note rfl (bares_occupied ?_))
  refine .bind (bares_client calls _) fun _ => ?_
  exact .bind (.modify fun w => rfl) fun _ => bares_logPhase calls c

theorem bare_loggedBody (fuel : Nat) :
    BareRunner (loggedBody run' (β.beside (Logbook σ)) c fuel) (body run β fuel) := by
  have plain := bares_body calls β fuel
  have closing (b : Nat) : Bares id
      (if b = c then logClosing run' (β.beside (Logbook σ)) c
        else handleClosing run' (β.beside (Logbook σ)) b) (handleClosing run β b) := by
    split
    · next here => exact here ▸ bares_logClosing calls β c
    · exact bares_handleClosing calls β b
  refine ⟨fun slot notice => ?_, plain.task, plain.subscription, fun a => ?_⟩
  · have unlogged := plain.slot slot notice
    cases slot with
    | controllerClosing b =>
        cases notice with
        | closing => exact bares_ifControllerAlive calls b (closing b)
        | _ => exact unlogged
    | _ => exact unlogged
  · have unlogged := plain.action a
    cases a with
    | setModel b m =>
        refine bares_holdingController calls b (f := id) ?_
        split
        · next here => exact here ▸ bares_logModel calls β c m
        · exact bares_setModel calls β b m
    | setView b v =>
        refine bares_holdingController calls b (f := id) (bares_holdingView? calls v ?_)
        split
        · next here => exact here ▸ bares_logView calls β c v
        · exact bares_setView calls β b v
    | initializeController b =>
        refine bares_holdingController calls b (f := id) ?_
        split
        · next here => exact here ▸ bares_logSetup calls β c
        · exact bares_initializeController calls β b
    | handleClosing b => exact bares_holdingController calls b (closing b)
    | _ => exact unlogged

end Unlogged

theorem minds_beside {ν : Type} (c : Nat) (w : Ensemble σ (Noted ν ε))
    (a : Action σ ε) : w.minds c (a.beside ν) = w.bare.minds c a := by
  cases a with
  | disconnect s id | disconnectAll s | close s => cases s <;> rfl
  | release subscription =>
      cases subscription with
      | connection s id => cases s <;> rfl
      | client code => rfl
  | _ => rfl

theorem logged_action (β : Behaviour σ ε) (c : Nat) (depth : Nat)
    (a : Action σ (Noted (Logbook σ) ε)) (w : Ensemble σ (Noted (Logbook σ) ε)) :
    logged β c (depth + 1) (.action a) w =
      if w.minds c a then
        loggedBody (logged β c depth) (β.beside (Logbook σ)) c depth (.action a) w
      else none :=
  rfl

theorem minding_action (β : Behaviour σ ε) (c : Nat) (depth : Nat) (a : Action σ ε)
    (w : Ensemble σ ε) : runUnder β (depth + 1) (minding c) (.action a) w =
      if w.minds c a then body (runUnder β depth (minding c)) β depth (.action a) w
      else none :=
  rfl

/-- A logged run is a run in which client code minds the controller, with a logbook beside it. -/
theorem bare_logged (β : Behaviour σ ε) (c : Nat) (depth : Nat) :
    BareRunner (logged β c depth) (runUnder β depth (minding c)) := by
  induction depth with
  | zero => exact ⟨fun _ _ => .tooDeep, fun _ => .tooDeep, fun _ => .tooDeep, fun _ => .tooDeep⟩
  | succ depth ih =>
      have inner := bare_loggedBody ih β c depth
      refine ⟨fun slot notice w => ?_, fun task w => ?_, fun code w => ?_, fun a w => ?_⟩
      · exact inner.slot slot notice w
      · exact inner.task task w
      · exact inner.subscription code w
      · show (logged β c (depth + 1) (.action (a.beside (Logbook σ))) w).map _ =
          runUnder β (depth + 1) (minding c) (.action a) w.bare
        rw [logged_action, minding_action, minds_beside]
        split
        · exact inner.action a w
        · rfl

end Ensemble

end Mvc
