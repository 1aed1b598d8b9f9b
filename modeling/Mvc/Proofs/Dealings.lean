import Mvc.Proofs.Requests
import Mvc.Proofs.Rules
import Mvc.Proofs.Turns

/-! # Turns and requests under rules

Whoever keeps a relation in everything that rules allow, in user actions, when views close, when
the dispatcher is drained, and when the model is filled, keeps it in every turn and in whatever
is asked of the model, as long as the rules let all properties be written.
-/

namespace Mvc.App

open Ensemble Proc

/-! ## Programs -/

section Programs

variable {rules : Rules} (lax : rules.Lax)
include lax

theorem piece_allowed (operation : Operation) (piece : Piece) :
    (piece.code operation).All rules.Allow := by
  cases piece with
  | begins | ends => exact setBusy_allowed lax _
  | tells =>
      exact .bind (set_allowed (lax.writes _ (by decide)) _) fun _ => trivial
  | stamps =>
      refine .bind (readClock_allowed lax) fun _ => ?_
      exact .bind (set_allowed (lax.writes _ (by decide)) _) fun _ => trivial
  | reports =>
      refine .bind (see_allowed _) fun d => ?_
      split
      · exact ⟨trivial, fun _ => trivial⟩
      · exact complete_allowed lax _

theorem bits_allowed (operation : Operation) (pieces : List Piece) :
    (bits operation pieces).All rules.Allow := by
  induction pieces with
  | nil => trivial
  | cons piece rest ih => exact .bind (piece_allowed lax operation piece) fun _ => ih

theorem leave_allowed : leave.All rules.Allow := quiet_allowed lax fun _ => ⟨rfl, rfl, rfl⟩

end Programs

/-! ## Turns and requests -/

/-- A relation is kept when views close, when the application stops, and when the worker works. -/
structure Tends (rules : Rules) (R : Whole → Whole → Prop) (run : Runner Code State) : Prop where
  order : Composes R
  program : ∀ {code : Program Unit}, code.All rules.Allow → Keeps R (run.client code)
  stop : Keeps R (run.client App.stop)
  close : ∀ v, Keeps R (run (.action (.announceClosing v)))
  thread : ∀ w thread, R w { w with thread }

/-- And in whatever else the application's owner and its user may set off. -/
structure Deals (rules : Rules) (R : Whole → Whole → Prop) (run : Runner Code State) : Prop
    extends Tends rules R run where
  handle : ∀ name data, Keeps R (run (.action (.handleAction controller name data)))
  drain : Keeps R (run (.action (.drain dispatcher)))
  fill : Keeps R (run (.action (.initializeModel model)))
  refill : Keeps R (run (.action (.resetModel model)))

/-- A view closes, the application stops, or the worker works. -/
def Turn.IsCalm : Turn → Prop
  | close _ | stop | halt | work => True
  | _ => False

instance : DecidablePred Turn.IsCalm := fun t => by
  cases t <;> first | exact isTrue trivial | exact isFalse id

variable {rules : Rules} {R : Whole → Whole → Prop} {run : Runner Code State} {depth : Nat}

namespace Tends

theorem inBackground (tends : Tends rules R run) {p : Proc Whole Unit} (inner : Keeps R p) :
    Keeps R (inBackground p) :=
  (inBackground_tracks tends.order tends.thread ((tracks_self _).mpr inner)).keeps

variable (tends : Tends rules R (runs depth)) (lax : rules.Lax)
include tends lax

theorem halt : Keeps R ((runs depth).client App.halt) := by
  have closed : Keeps R
      ((runs depth).client (change fun s => { s with worker := s.worker.stop })) :=
    tends.program (quiet_allowed lax fun _ => ⟨rfl, rfl, rfl⟩)
  unfold Runner.client App.halt
  rw [Program.run_bind]
  exact .bind tends.order tends.stop fun _ => closed

theorem workOn (pieces : List Piece) : Keeps R (workOn depth pieces) := by
  refine .look fun w => ?_
  cases w.client.worker.queue with
  | nil => exact .pure tends.order ()
  | cons operation rest =>
      exact tends.inBackground (tends.program (bits_allowed lax operation pieces))

theorem turn {t : Turn} (calm : t.IsCalm) (left : Option (List Piece)) :
    Keeps R (t.perform depth left) := by
  have order := tends.order
  cases t with
  | close v =>
      exact .bind order (keeps_perform (tends.close v)) fun _ => .pure order left
  | stop => exact .bind order tends.stop fun _ => .pure order left
  | halt => exact .bind order (tends.halt lax) fun _ => .pure order left
  | work =>
      match left with
      | none => exact .look fun _ => .pure order _
      | some [] => exact .bind order (tends.program (leave_allowed lax)) fun _ => .pure order none
      | some (piece :: left) =>
          exact .bind order (tends.workOn lax [piece]) fun _ => .pure order (some left)
  | _ => exact calm.elim

end Tends

namespace Deals

variable (deals : Deals rules R (runs depth)) (lax : rules.Lax)
include deals lax

theorem turn (acts : rules.acts) (t : Turn) (left : Option (List Piece)) :
    Keeps R (t.perform depth left) := by
  have order := deals.order
  cases t with
  | act name data => exact .bind order (deals.handle name data) fun _ => .pure order left
  | report v name data =>
      have reported := deals.program
        (show (Program.perform (Action.report v name data)).All rules.Allow from
          ⟨acts, fun _ => trivial⟩)
      unfold Runner.client at reported
      rw [Program.run_perform] at reported
      exact .bind order reported fun _ => .pure order left
  | drain => exact .bind order deals.drain fun _ => .pure order left
  | wait =>
      cases left with
      | none =>
          exact .bind order (deals.program (awaitWorker_allowed lax acts)) fun _ =>
            .pure order none
      | some left =>
          have rest := deals.program
            (.bind (leave_allowed lax) fun _ => awaitWorker_allowed lax acts)
          refine .bind order (deals.workOn lax left) fun _ => ?_
          exact .bind order rest fun _ => .pure order none
  | close | stop | halt | work =>
      refine deals.toTends.turn lax ?_ left
      trivial

theorem request (writes : ∀ name, rules.writes name) (r : Request)
    (saves : r = .saveSettings → saveSettings.All rules.Allow) :
    Keeps R ((runs depth).client r.program) := by
  have filled {a : Action Code State} (kept : Keeps R (runs depth (.action a))) :
      Keeps R ((runs depth).client (Program.perform a >>= fun _ => pure ())) := by
    unfold Runner.client
    rw [Program.run_bind, Program.run_perform]
    exact .bind deals.order kept fun _ => .pure deals.order ()
  cases r with
  | set name value =>
      exact deals.program (.bind (set_allowed (writes name) value) fun _ => trivial)
  | updateStatus message => exact deals.program (updateStatus_allowed lax message)
  | loadSettings => exact deals.program (loadSettings_allowed (writes _) (writes _))
  | saveSettings => exact deals.program (saves rfl)
  | fill => exact filled deals.fill
  | refill => exact filled deals.refill

end Deals

end Mvc.App
