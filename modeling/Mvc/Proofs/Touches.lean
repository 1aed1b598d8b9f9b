import Mvc.Proofs.Bystanders
import Mvc.Proofs.Notes

/-! # Touches of views

A view is touched when it is shown anew, when it shows an error or a message, and when it is
enabled or disabled. Each touch is noted beside the run, with the thread that is running, and the
run does what it does without the notes (`bare_touched`).
-/

namespace Mvc

variable {σ ε : Type}

/-- How a view is touched. -/
inductive Gesture where
  | display
  | error
  | info
  | enable
  deriving DecidableEq

/-- A view is touched by a thread. -/
structure Touch where
  view : Nat
  gesture : Gesture
  thread : Thread
  deriving DecidableEq

namespace Ensemble

/-- An ensemble with the touches of its views beside it. -/
abbrev Touched (σ ε : Type) := Ensemble σ (Noted (List Touch) ε)

/-- Note that a view is touched by the thread that is running. -/
def touch (v : Nat) (g : Gesture) (w : Touched σ ε) : Touched σ ε :=
  { w with client := { w.client with notes := w.client.notes ++ [⟨v, g, w.thread⟩] } }

section Touching

variable (run : Runner σ (Noted (List Touch) ε)) (β : Behaviour σ (Noted (List Touch) ε))

/-- A view is touched, and then it does its part. -/
def touching (v : Nat) (g : Gesture) (code : Client σ (Noted (List Touch) ε) Unit) :
    Proc (Touched σ ε) Unit := do
  modify (touch v g)
  run.client code

/-- `refresh`, with touches noted. -/
def touchRefresh (c : Nat) : Proc (Touched σ ε) Unit := do
  match ((← get).controller c).view with
  | none => pure ()
  | some v =>
    holdingView run v do
      run.client (β.derive c)
      touching run v .display (β.display v)

/-- `handleAction`, with touches noted. -/
def touchAction (c : Nat) (name : String) (data : Value) : Proc (Touched σ ε) Unit := do
  if ((← get).controller c).phase ≠ .initialized then reportError run c notInitialized
  else if ← run.client (β.handles c name data) then pure ()
  else if name = "refresh" ∨ name = "update" then
    touchRefresh run β c
    reportDone run c viewUpdated

/-- `serve`, with touches noted. -/
def touchServe : Slot σ → Notice → Proc (Touched σ ε) Unit
  | .controllerAction c, .action name data =>
    ifControllerAlive run c (touchAction run β c name data)
  | .viewError v, .text message =>
    ifViewAlive run v (touching run v .error (β.showError v message))
  | .viewInfo v, .text message =>
    if message.isEmpty then pure ()
    else ifViewAlive run v (touching run v .info (β.showInfo v message))
  | .viewPhase v, .phase phase =>
    if phase = .viewClosing then pure ()
    else ifViewAlive run v (touching run v .display (β.display v))
  | slot, notice => serve run β slot notice

/-- `body`, with touches noted. Client code does not change the notes. -/
def touchedBody (fuel : Nat) : Runner σ (Noted (List Touch) ε)
  | .slot slot notice => touchServe run β slot notice
  | .action (.handleAction c name data) => holdingController run c (touchAction run β c name data)
  | .action (.refresh c) => holdingController run c (touchRefresh run β c)
  | .action (.displayView v) => holdingView run v (touching run v .display (β.display v))
  | .action (.showError v message) =>
    holdingView run v (touching run v .error (β.showError v message))
  | .action (.showInfo v message) =>
    holdingView run v (touching run v .info (β.showInfo v message))
  | .action (.enable v enabled) => do
    modify (touch v .enable)
    modify (updateView v fun o => { o with enabled })
  | .action (.change f) =>
    modify fun w => { w with client := { f w.client with notes := w.client.notes } }
  | call => body run β fuel call

end Touching

/-- Run a call and note how views are touched. -/
def touched (β : Behaviour σ ε) : Nat → Runner σ (Noted (List Touch) ε)
  | 0 => fun _ => Proc.tooDeep
  | depth + 1 => touchedBody (touched β depth) (β.beside _) depth

/-! ## Without the notes -/

open Proc

section Untouched

variable {run' : Runner σ (Noted (List Touch) ε)} {run : Runner σ ε}
  (calls : BareRunner run' run) (β : Behaviour σ ε)
include calls

theorem bares_touching (v : Nat) (g : Gesture) (code : Client σ ε Unit) :
    Bares id (touching run' v g (code.beside _)) (run.client code) :=
  .note rfl (bares_client calls code)

theorem bares_touchRefresh (c : Nat) :
    Bares id (touchRefresh run' (β.beside _) c) (refresh run β c) := by
  refine .look fun w => ?_
  simp only [controller_bare]
  cases (w.controller c).view with
  | none => exact .pure ()
  | some v =>
      refine bares_holdingView calls v (.bind (bares_client calls _) fun _ => ?_)
      exact bares_touching calls v .display (β.display v)

theorem bares_touchAction (c : Nat) (name : String) (data : Value) :
    Bares id (touchAction run' (β.beside _) c name data) (handleAction run β c name data) := by
  refine .look fun w => .ite (bares_emit calls _ _) ?_
  refine .bind (bares_client calls _) fun handled => .ite (.pure ()) (.ite ?_ (.pure ()))
  exact .bind (bares_touchRefresh calls β c) fun _ => bares_emit calls _ _

theorem bares_touchServe (slot : Slot σ) (notice : Notice) :
    Bares id (touchServe run' (β.beside _) slot notice) (serve run β slot notice) := by
  have untouched := bares_serve calls β slot notice
  cases slot with
  | controllerAction c =>
      cases notice with
      | action name data =>
          exact bares_ifControllerAlive calls c (bares_touchAction calls β c name data)
      | _ => exact untouched
  | viewError v =>
      cases notice with
      | text message =>
          exact bares_ifViewAlive calls v (bares_touching calls v .error (β.showError v message))
      | _ => exact untouched
  | viewInfo v =>
      cases notice with
      | text message =>
          refine .ite (.pure ()) (bares_ifViewAlive calls v ?_)
          exact bares_touching calls v .info (β.showInfo v message)
      | _ => exact untouched
  | viewPhase v =>
      cases notice with
      | phase phase =>
          refine .ite (.pure ()) (bares_ifViewAlive calls v ?_)
          exact bares_touching calls v .display (β.display v)
      | _ => exact untouched
  | client code => cases notice <;> exact untouched
  | _ => exact untouched

theorem bare_touchedBody (fuel : Nat) :
    BareRunner (touchedBody run' (β.beside _) fuel) (body run β fuel) := by
  have plain := bares_body calls β fuel
  refine ⟨bares_touchServe calls β, plain.task, plain.subscription, fun a => ?_⟩
  have untouched := plain.action a
  cases a with
  | handleAction c name data =>
      exact bares_holdingController calls c (bares_touchAction calls β c name data)
  | refresh c => exact bares_holdingController calls c (bares_touchRefresh calls β c)
  | displayView v => exact bares_holdingView calls v (bares_touching calls v .display _)
  | showError v message => exact bares_holdingView calls v (bares_touching calls v .error _)
  | showInfo v message => exact bares_holdingView calls v (bares_touching calls v .info _)
  | enable v enabled => exact .note rfl (.modify fun _ => rfl)
  | _ => exact untouched

end Untouched

/-- Without the notes, a run with its touches noted is a run. -/
theorem bare_touched (β : Behaviour σ ε) (depth : Nat) :
    BareRunner (touched β depth) (run β depth) := by
  induction depth with
  | zero => exact ⟨fun _ _ => .tooDeep, fun _ => .tooDeep, fun _ => .tooDeep, fun _ => .tooDeep⟩
  | succ depth ih => exact bare_touchedBody ih β depth

/-! ## Touches among bystanders -/

namespace Bystander

variable {R : Touched σ ε → Touched σ ε → Prop} {may : Action σ (Noted (List Touch) ε) → Prop}
  {run : Runner σ (Noted (List Touch) ε)} {β : Behaviour σ (Noted (List Touch) ε)}
  (b : Bystander R may run) (hooks : Hooked R β run) (touches : ∀ v g w, R w (touch v g w))
include b touches

theorem touching {code : Client σ (Noted (List Touch) ε) Unit} (v : Nat) (g : Gesture)
    (inner : Keeps R (run.client code)) : Keeps R (touching run v g code) :=
  .bind b.order (.modify (touches v g)) fun _ => inner

include hooks

theorem touchRefresh (c : Nat) : Keeps R (touchRefresh run β c) := by
  refine .look fun w => ?_
  cases (w.controller c).view with
  | none => exact .pure b.order ()
  | some v =>
      refine b.onlooker.holdingView v (.bind b.order (hooks.derive c) fun _ => ?_)
      exact b.touching touches v .display (hooks.display v)

theorem touchAction (c : Nat) (name : String) (data : Value) :
    Keeps R (touchAction run β c name data) := by
  refine .look fun w => .ite (b.emit _ _) (.bind b.order (hooks.handles trivial c name data) fun r => ?_)
  refine .ite (.pure b.order ()) (.ite ?_ (.pure b.order ()))
  exact .bind b.order (b.touchRefresh hooks touches c) fun _ => b.emit _ _

theorem touchServe (slot : Slot σ) (notice : Notice) :
    Keeps R (touchServe run β slot notice) := by
  have untouched := b.onlooker.serve hooks.toAnswers slot notice fun _ => trivial
  cases slot with
  | controllerAction c =>
      cases notice with
      | action name data =>
          exact b.onlooker.ifControllerAlive c (b.touchAction hooks touches c name data)
      | _ => exact untouched
  | viewError v =>
      cases notice with
      | text message =>
          exact b.onlooker.ifViewAlive v (b.touching touches v .error (hooks.showError v message))
      | _ => exact untouched
  | viewInfo v =>
      cases notice with
      | text message =>
          refine .ite (.pure b.order ()) (b.onlooker.ifViewAlive v ?_)
          exact b.touching touches v .info (hooks.showInfo v message)
      | _ => exact untouched
  | viewPhase v =>
      cases notice with
      | phase phase =>
          refine .ite (.pure b.order ()) (b.onlooker.ifViewAlive v ?_)
          exact b.touching touches v .display (hooks.display v)
      | _ => exact untouched
  | client code => cases notice <;> exact untouched
  | _ => exact untouched

theorem touchedBody (fuel : Nat) (call : Call σ (Noted (List Touch) ε))
    (allowed : ∀ a, call = .action a → may a)
    (noticed : ∀ a, call = .action a → a.isNoticed = true →
      Keeps R (touchedBody run β fuel (.action a))) : Keeps R (touchedBody run β fuel call) := by
  cases call with
  | slot slot notice => exact b.touchServe hooks touches slot notice
  | task t => exact b.runTask hooks t
  | subscription code => exact hooks.job code
  | action a =>
      cases a with
      | handleAction c name data =>
          exact b.onlooker.holdingController c (b.touchAction hooks touches c name data)
      | refresh c => exact b.onlooker.holdingController c (b.touchRefresh hooks touches c)
      | displayView v => exact b.onlooker.holdingView v (b.touching touches v .display (hooks.display v))
      | showError v message =>
          exact b.onlooker.holdingView v (b.touching touches v .error (hooks.showError v message))
      | showInfo v message =>
          exact b.onlooker.holdingView v (b.touching touches v .info (hooks.showInfo v message))
      | enable v enabled =>
          exact .bind b.order (.modify (touches v .enable)) fun _ => b.viewAside v fun _ => rfl
      | connect | inBackground | change | write | setProperty | setSilently | replaceAll | clear
      | initializeModel | resetModel => exact noticed _ rfl rfl
      | _ => exact b.performAction hooks fuel _ (allowed _ rfl) nofun

end Bystander

end Ensemble

end Mvc
