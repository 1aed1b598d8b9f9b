import Mvc.Proofs.Ordinary
import Mvc.Proofs.Works

/-! # Turns of the application and its worker

The presentation thread and the worker take turns. The worker takes an operation up, does its
part of it piece by piece, and leaves it, so that user actions, closing, stopping and draining
may come between any two of these. Waiting for the worker has it do all that it has left;
shutting down is halting and then waiting (`shutDown_eq`).

A turn has one outcome at most (`turned_unique`). A mounted application can take any turn, and
what the turn does can be read off the gist (`turned_mounted`).
-/

namespace Mvc.App

open Ensemble Proc

/-! ## Turns -/

/-- What the presentation thread or the worker does next. -/
inductive Turn where
  /-- A user action is handed to the controller. -/
  | act (name : String) (data : Value)
  /-- A user action is reported by a view. -/
  | report (view : Nat) (name : String) (data : Value)
  /-- A view closes. -/
  | close (view : Nat)
  /-- The application stops. -/
  | stop
  /-- The application stops, and the worker accepts no more. -/
  | halt
  /-- The dispatcher is drained. -/
  | drain
  /-- The worker takes an operation up, does the next piece of it, or leaves it. -/
  | work
  /-- The worker does all that it has left, and the presentation thread waits for it. -/
  | wait
  deriving DecidableEq

/-- Where the application stands, and the pieces that the worker has left of the operation at
    hand, if it has taken one up. -/
@[ext]
structure Moment where
  whole : Whole
  left : Option (List Piece)

/-- Stop, and have the worker accept no more. -/
def halt : Program Unit := do
  App.stop
  change fun s => { s with worker := s.worker.stop }

/-- Shutting down is halting and then waiting for the worker. -/
theorem shutDown_eq : shutDown = (do halt; awaitWorker) :=
  (Program.bind_bind App.stop _ _).symm

/-- The worker leaves the operation at hand. -/
def leave : Program Unit := change fun s => { s with worker := s.worker.finish }

/-- The worker does some pieces of the operation at hand. -/
def workOn (depth : Nat) (pieces : List Piece) : Proc Whole Unit := do
  match (← get).client.worker.queue with
  | [] => pure ()
  | operation :: _ => inBackground ((runs depth).client (bits operation pieces))

/-- What is done in a turn; it tells which pieces are left to the worker. -/
def Turn.perform (depth : Nat) : Turn → Option (List Piece) → Proc Whole (Option (List Piece))
  | act name data, left => do
    runs depth (.action (.handleAction controller name data))
    return left
  | report view name data, left => do
    runs depth (.action (.report view name data))
    return left
  | close view, left => do
    (runs depth).client (App.close view)
    return left
  | stop, left => do
    (runs depth).client App.stop
    return left
  | halt, left => do
    (runs depth).client App.halt
    return left
  | drain, left => do
    let _ ← runs depth (.action (.drain dispatcher))
    return left
  | work, none => do return if (← get).client.worker.queue.isEmpty then none else some Piece.all
  | work, some [] => do
    (runs depth).client leave
    return none
  | work, some (piece :: left) => do
    workOn depth [piece]
    return some left
  | wait, none => do
    (runs depth).client awaitWorker
    return none
  | wait, some left => do
    workOn depth left
    (runs depth).client (do leave; awaitWorker)
    return none

/-- A turn is taken. -/
def Turned (t : Turn) (m m' : Moment) : Prop :=
  ∃ depth, t.perform depth m.left m.whole = some (m'.left, m'.whole)

/-! ## There is one outcome at most -/

theorem workOn_mono {depth depth' : Nat} (le : depth ≤ depth') (pieces : List Piece) :
    Tracks Anyhow (workOn depth pieces) (workOn depth' pieces) := by
  have covers : Covers (runs depth) (runs depth') := run_mono le
  refine .bind anyhow_composes (.get anyhow_composes) fun w => ?_
  cases w.client.worker.queue with
  | nil => exact .pure anyhow_composes ()
  | cons operation _ => exact (covers.keeper behaviour).inBackground (covers.client _)

/-- What ends when calls may nest to some depth ends the same way when they may nest deeper. -/
theorem Turn.perform_mono {depth depth' : Nat} (le : depth ≤ depth') (t : Turn)
    (left : Option (List Piece)) : Tracks Anyhow (t.perform depth left) (t.perform depth' left) := by
  have covers : Covers (runs depth) (runs depth') := run_mono le
  cases t with
  | act | report | drain =>
      exact .bind anyhow_composes (covers (.action _)) fun _ => .pure anyhow_composes left
  | close | stop | halt =>
      exact .bind anyhow_composes (covers.client _) fun _ => .pure anyhow_composes left
  | work =>
      match left with
      | none => exact .bind anyhow_composes (.get anyhow_composes) fun w => .pure anyhow_composes _
      | some [] => exact .bind anyhow_composes (covers.client _) fun _ => .pure anyhow_composes none
      | some (piece :: left) =>
          exact .bind anyhow_composes (workOn_mono le _) fun _ => .pure anyhow_composes (some left)
  | wait =>
      cases left with
      | none => exact .bind anyhow_composes (covers.client _) fun _ => .pure anyhow_composes none
      | some left =>
          refine .bind anyhow_composes (workOn_mono le _) fun _ => ?_
          exact .bind anyhow_composes (covers.client _) fun _ => .pure anyhow_composes none

/-- What is granted any depth that is enough comes to one end. -/
theorem outcome_unique {α : Type} {p : Nat → Proc Whole α} {w : Whole} {r r' : α × Whole}
    (mono : ∀ {depth depth' : Nat}, depth ≤ depth' → Tracks Anyhow (p depth) (p depth'))
    (first : ∃ depth, p depth w = some r) (second : ∃ depth, p depth w = some r') : r = r' := by
  obtain ⟨depth, first⟩ := first
  obtain ⟨depth', second⟩ := second
  have deeper := (mono (Nat.le_max_left depth depth') w _ _ first).1
  have deeper' := (mono (Nat.le_max_right depth depth') w _ _ second).1
  exact Option.some.inj (deeper.symm.trans deeper')

theorem turned_unique {t : Turn} {m m₁ m₂ : Moment} (first : Turned t m m₁)
    (second : Turned t m m₂) : m₁ = m₂ := by
  have same := outcome_unique (fun le => t.perform_mono le m.left) first second
  exact Moment.ext (congrArg Prod.snd same) (congrArg Prod.fst same)

/-! ## What turns do -/

namespace Gist

/-- The worker does some pieces of the operation at hand. -/
def workOn (pieces : List Piece) (g : Gist) : Gist :=
  match g.worker.queue with
  | [] => g
  | operation :: _ => g.behind operation pieces

/-- The worker leaves the operation at hand. -/
def leave (g : Gist) : Gist := { g with worker := g.worker.finish }

/-- The worker does all operations that it has. -/
def workOff (g : Gist) : Gist := g.worker.queue.foldl work g

/-- The worker accepts no more. -/
def halt (g : Gist) : Gist := { g with worker := g.worker.stop }

/-- What a turn may do, and which pieces it may leave to the worker. -/
def Turns (g : Gist) (left left' : Option (List Piece)) (g' : Gist) : Turn → Prop
  | .act name data => left' = left ∧ g.Acts name data g'
  | .report view name data => left' = left ∧ g.Reports view name data g'
  | .close _ => left' = left ∧ g.Closes g'
  | .stop => left' = left ∧ ∃ texts, g' = g.setTexts texts
  | .halt => left' = left ∧ ∃ texts, g' = (g.setTexts texts).halt
  | .drain => left' = left ∧ g' = g.drain
  | .work =>
    match left with
    | none => left' = (if g.worker.queue.isEmpty then none else some Piece.all) ∧ g' = g
    | some [] => left' = none ∧ g' = g.leave
    | some (piece :: rest) => left' = some rest ∧ g' = g.workOn [piece]
  | .wait =>
    match left with
    | none => left' = none ∧ g' = g.workOff
    | some rest => left' = none ∧ g' = (g.workOn rest).leave.workOff

end Gist

variable {n : Nat} {w : Whole}

theorem workOn_moves (mounted : Mounted w) (pieces : List Piece) :
    Moves (workOn (n + 6) pieces) w fun _ g => g = (gist w).workOn pieces := by
  refine moves_get ?_
  have worker : (gist w).worker = w.client.worker := rfl
  unfold Gist.workOn
  rw [worker]
  cases w.client.worker.queue with
  | nil => exact Goes.moves (goes_pure rfl)
  | cons operation later => exact bits_moves mounted operation pieces

theorem leave_goes : Goes ((runs (n + 1)).client leave) w fun _ g => g = (gist w).leave :=
  changeTo_goes _ (fun _ => rfl) fun _ _ => rfl

theorem halt_goes (mounted : Mounted w) :
    Goes ((runs (n + 6)).client halt) w fun _ g =>
      ∃ texts, g = ((gist w).setTexts texts).halt := by
  refine (stop_goes mounted).program fun _ w₁ _ ⟨texts, same⟩ => ?_
  have halted : Goes ((runs (n + 6)).client
      (change fun s => { s with worker := s.worker.stop })) w₁ fun _ g => g = (gist w₁).halt :=
    changeTo_goes (n := n + 5) _ (fun _ => rfl) fun _ _ => rfl
  exact halted.mono fun _ g same' => ⟨texts, same ▸ same'⟩

/-- Every turn can be taken, and it does what it may do. -/
theorem perform_moves (mounted : Mounted w) (presentation : w.thread = .presentation)
    (enough : (queue w).length < n) (t : Turn) (left : Option (List Piece)) :
    Moves (t.perform (n + 11) left) w fun left' g => (gist w).Turns left left' g t := by
  cases t with
  | act name data =>
      refine (Goes.moves ?_).bind fun _ w₁ _ done => Goes.moves (goes_pure ⟨rfl, done⟩)
      exact holdingController_goes mounted fun w₁ onward same =>
        same ▸ handleAction_goes (n := n + 1) (onward.mounted mounted) name data
  | report v name data =>
      refine (report_goes mounted v name data).moves.bind fun _ w₁ _ done => ?_
      exact Goes.moves (goes_pure ⟨rfl, done⟩)
  | close v =>
      refine (announceClosing_goes (n := n + 3) mounted v).moves.bind fun _ w₁ _ done => ?_
      exact Goes.moves (goes_pure ⟨rfl, done⟩)
  | stop =>
      refine (stop_goes (n := n + 5) mounted).moves.bind fun _ w₁ _ done => ?_
      exact Goes.moves (goes_pure ⟨rfl, done⟩)
  | halt =>
      refine (halt_goes (n := n + 5) mounted).moves.bind fun _ w₁ _ done => ?_
      exact Goes.moves (goes_pure ⟨rfl, done⟩)
  | drain =>
      refine (drainAll_moves (n := n + 4) mounted presentation (by omega)).bind fun _ w₁ _ done => ?_
      exact Goes.moves (goes_pure ⟨rfl, done⟩)
  | work =>
      match left with
      | none => exact moves_get (Goes.moves (goes_pure ⟨rfl, rfl⟩))
      | some [] =>
          refine (leave_goes (n := n + 10)).moves.bind fun _ w₁ _ done => ?_
          exact Goes.moves (goes_pure ⟨rfl, done⟩)
      | some (piece :: rest) =>
          refine (workOn_moves (n := n + 5) mounted _).bind fun _ w₁ _ done => ?_
          exact Goes.moves (goes_pure ⟨rfl, done⟩)
  | wait =>
      cases left with
      | none =>
          refine (awaitWorker_moves (n := n + 3) mounted).bind fun _ w₁ _ done => ?_
          exact Goes.moves (goes_pure ⟨rfl, done⟩)
      | some rest =>
          refine (workOn_moves (n := n + 5) mounted _).bind fun _ w₁ steady same => ?_
          have rested : Moves ((runs (n + 11)).client (do leave; awaitWorker)) w₁ fun _ g =>
              g = (gist w₁).leave.workOff := by
            refine (leave_goes (n := n + 10)).moves.program fun _ w₂ steady' same' => ?_
            rw [← same']
            exact awaitWorker_moves (n := n + 3) ((steady.trans steady').mounted mounted)
          refine rested.bind fun _ w₃ _ done => ?_
          exact Goes.moves (goes_pure ⟨rfl, same ▸ done⟩)

/-- A mounted application on its presentation thread takes any turn, and however it does, it does
    what it may do. -/
theorem turned_mounted (mounted : Mounted w) (presentation : w.thread = .presentation)
    (left : Option (List Piece)) (t : Turn) :
    (∃ m', Turned t ⟨w, left⟩ m') ∧ ∀ m', Turned t ⟨w, left⟩ m' →
      Steady w m'.whole ∧ (gist w).Turns left m'.left (gist m'.whole) t := by
  obtain ⟨left', w', ended, steady, turns⟩ :=
    perform_moves mounted presentation (Nat.lt_succ_self _) t left
  have turned : Turned t ⟨w, left⟩ ⟨w', left'⟩ := ⟨_, ended⟩
  refine ⟨⟨_, turned⟩, fun m' turned' => ?_⟩
  obtain rfl := turned_unique turned turned'
  exact ⟨steady, turns⟩

end Mvc.App
