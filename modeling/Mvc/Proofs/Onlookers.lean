import Mvc.Proofs.Discipline

/-! # Onlookers

An onlooker puts up with objects being held for a while, with closing, and with what is posted,
but it may mind who is bound to whom, who is connected, and what waits. So it cannot answer for
binding, but for what the client's code answers to: notices that are served, user actions, and
requests to show something or to close.

What is said of user actions may be left out, by a proposition `acts` that nobody has to show.
-/

namespace Mvc

variable {σ ε : Type}

/-- Whether a notice is a user action. -/
def Notice.isAction : Notice → Bool
  | action .. => true
  | _ => false

namespace Action

/-- What binds, connects, writes and queues nothing by itself. -/
def isPassing : Action σ ε → Bool
  | emit .. | handleAction .. | refresh .. | handleClosing .. | reportError .. | reportDone .. => true
  | report .. | announceClosing .. | displayView .. | finishUpdate .. => true
  | showError .. | showInfo .. => true
  | _ => false

/-- Whether an action hands on a user action. -/
def isAct : Action σ ε → Bool
  | emit _ notice => notice.isAction
  | handleAction .. | report .. => true
  | _ => false

end Action

namespace Ensemble

open Proc

/-- The client's code keeps a relation wherever it answers to something. -/
structure Answers (R : Ensemble σ ε → Ensemble σ ε → Prop) (acts : Prop) (β : Behaviour σ ε)
    (run : Runner σ ε) : Prop where
  handles : acts → ∀ c name data, Keeps R (run.client (β.handles c name data))
  derive : ∀ c, Keeps R (run.client (β.derive c))
  dataChanged : ∀ c, Keeps R (run.client (β.dataChanged c))
  updateRequested : ∀ c, Keeps R (run.client (β.updateRequested c))
  closing : ∀ c, Keeps R (run.client (β.closing c))
  display : ∀ v, Keeps R (run.client (β.display v))
  showError : ∀ v message, Keeps R (run.client (β.showError v message))
  showInfo : ∀ v message, Keeps R (run.client (β.showInfo v message))
  slot : ∀ code notice, Keeps R (run.client (β.slot code notice))

/-- What has to be known of a relation before operations keep it that answer to something. -/
structure Onlooker (R : Ensemble σ ε → Ensemble σ ε → Prop) (acts : Prop) (run : Runner σ ε) :
    Prop where
  order : Composes R
  slot : ∀ slot notice, (notice.isAction = true → acts) → Keeps R (run (.slot slot notice))
  post : ∀ w d t, R w (updateDispatcher d (fun q => q.post t) w)
  pins : ∀ w c (pins : Controller σ → Nat),
    R w (updateController c (fun o => { o with pins := pins o }) w)
  closing : ∀ w c, R w (updateController c (fun o => { o with closing := true }) w)
  view : ∀ w v (pins : View σ → Nat) (closing : View σ → Bool),
    R w (updateView v (fun o => { o with pins := pins o, closing := closing o }) w)
  collectController : ∀ c, Keeps R (collectController run c)
  collectView : ∀ v, Keeps R (collectView run v)

namespace Onlooker

variable {R : Ensemble σ ε → Ensemble σ ε → Prop} {acts : Prop} {run : Runner σ ε}
  (o : Onlooker R acts run)
include o

theorem emit (s : SignalRef) (notice : Notice) (fair : notice.isAction = true → acts) :
    Keeps R (emit run s notice) :=
  (emit_tracks o.order s notice (fun slot => (tracks_self _).mpr (o.slot slot notice fair))
    o.post).keeps

/-! ## Holding -/

section Holding

variable {α : Type} {p : Proc (Ensemble σ ε) α}

theorem holdingController (c : Nat) (inner : Keeps R p) : Keeps R (holdingController run c p) := by
  refine .bind o.order (.modify fun w => o.pins w c _) fun _ => .bind o.order inner fun r => ?_
  refine .bind o.order (.modify fun w => o.pins w c _) fun _ => ?_
  exact .bind o.order (o.collectController c) fun _ => .pure o.order r

theorem holdingView (v : Nat) (inner : Keeps R p) : Keeps R (holdingView run v p) := by
  have held : ∀ w (pins : View σ → Nat),
      R w (updateView v (fun o => { o with pins := pins o }) w) := fun w pins =>
    o.view w v pins (·.closing)
  refine .bind o.order (.modify fun w => held w _) fun _ => .bind o.order inner fun r => ?_
  refine .bind o.order (.modify fun w => held w _) fun _ => ?_
  exact .bind o.order (o.collectView v) fun _ => .pure o.order r

theorem holdingView? (v : Option Nat) (inner : Keeps R p) : Keeps R (holdingView? run v p) := by
  cases v with
  | some v => exact o.holdingView v inner
  | none => exact inner

theorem ifControllerAlive (c : Nat) {p : Proc (Ensemble σ ε) Unit} (inner : Keeps R p) :
    Keeps R (ifControllerAlive run c p) :=
  .look fun _ => .ite (o.holdingController c inner) (.pure o.order ())

theorem ifViewAlive (v : Nat) {p : Proc (Ensemble σ ε) Unit} (inner : Keeps R p) :
    Keeps R (ifViewAlive run v p) :=
  .look fun _ => .ite (o.holdingView v inner) (.pure o.order ())

end Holding

/-! ## Answering -/

theorem emitPhase (c : Nat) : Keeps R (emitPhase run c) := .look fun _ => o.emit _ _ nofun

theorem report (permitted : acts) (v : Nat) (name : String) (data : Value) :
    Keeps R (report run v name data) :=
  .look fun _ => .ite (o.emit _ _ fun _ => permitted) (.pure o.order ())

theorem announceClosing (v : Nat) : Keeps R (announceClosing run v) :=
  .look fun _ => .ite (.pure o.order ())
    (.bind o.order (.modify fun w => o.view w v (·.pins) fun _ => true) fun _ => o.emit _ _ nofun)

variable {β : Behaviour σ ε} (answers : Answers R acts β run)
include answers

theorem refresh (c : Nat) : Keeps R (refresh run β c) := by
  refine .look fun w => ?_
  cases (w.controller c).view with
  | none => exact .pure o.order ()
  | some v => exact o.holdingView v (.bind o.order (answers.derive c) fun _ => answers.display v)

theorem handleAction (permitted : acts) (c : Nat) (name : String) (data : Value) :
    Keeps R (handleAction run β c name data) := by
  refine .look fun w => .ite (o.emit _ _ nofun) ?_
  refine .bind o.order (answers.handles permitted c name data) fun r => ?_
  refine .ite (.pure o.order ()) (.ite ?_ (.pure o.order ()))
  exact .bind o.order (o.refresh answers c) fun _ => o.emit _ _ nofun

theorem handleClosing (c : Nat) : Keeps R (handleClosing run β c) := by
  refine .look fun w => .ite (.pure o.order ()) (.bind o.order (answers.closing c) fun _ => ?_)
  exact .bind o.order (.modify fun w => o.closing w c) fun _ => o.emitPhase c

theorem serve (slot : Slot σ) (notice : Notice) (fair : notice.isAction = true → acts) :
    Keeps R (serve run β slot notice) := by
  cases slot with
  | client code => cases notice <;> exact answers.slot code _
  | controllerData c =>
      cases notice with
      | dataChanged => exact o.ifControllerAlive c (answers.dataChanged c)
      | _ => exact .pure o.order ()
  | controllerAction c =>
      cases notice with
      | action name data =>
          exact o.ifControllerAlive c (o.handleAction answers (fair rfl) c name data)
      | _ => exact .pure o.order ()
  | controllerClosing c =>
      cases notice with
      | closing => exact o.ifControllerAlive c (o.handleClosing answers c)
      | _ => exact .pure o.order ()
  | controllerUpdate c =>
      cases notice with
      | updateRequested => exact o.ifControllerAlive c (answers.updateRequested c)
      | _ => exact .pure o.order ()
  | viewError v =>
      cases notice with
      | text message => exact o.ifViewAlive v (answers.showError v message)
      | _ => exact .pure o.order ()
  | viewInfo v =>
      cases notice with
      | text message =>
          exact .ite (.pure o.order ()) (o.ifViewAlive v (answers.showInfo v message))
      | _ => exact .pure o.order ()
  | viewPhase v =>
      cases notice with
      | phase phase => exact .ite (.pure o.order ()) (o.ifViewAlive v (answers.display v))
      | _ => exact .pure o.order ()

theorem performAction (fuel : Nat) {a : Action σ ε} (passing : a.isPassing = true)
    (fair : a.isAct = true → acts) : Keeps R (performAction run β fuel a) := by
  cases a with
  | emit s notice => exact o.emit s notice fair
  | handleAction c name data =>
      exact o.holdingController c (o.handleAction answers (fair rfl) c name data)
  | refresh c => exact o.holdingController c (o.refresh answers c)
  | handleClosing c => exact o.holdingController c (o.handleClosing answers c)
  | reportError c message | reportDone c message =>
      exact o.holdingController c (o.emit _ _ nofun)
  | report v name data => exact o.holdingView v (o.report (fair rfl) v name data)
  | announceClosing v => exact o.holdingView v (o.announceClosing v)
  | displayView v => exact o.holdingView v (answers.display v)
  | finishUpdate v => exact o.emit _ _ nofun
  | showError v message => exact o.holdingView v (answers.showError v message)
  | showInfo v message => exact o.holdingView v (answers.showInfo v message)
  | _ => cases passing

end Onlooker

end Ensemble

end Mvc
