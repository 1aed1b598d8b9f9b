import Mvc.Ensemble.Run
import Mvc.Proofs.Procedure

/-! # A record of one signal

What happens to one signal is written down while it happens: who is connected and removed, what
is emitted, and what becomes of each connection when its turn comes and when its task is taken
from a queue. A recorded run is a run with a record (`recorded_run`): without the record it is
what `run` does. Of calls that have nothing to do with the signal there is no record.

Emissions are numbered in the order in which they began. A task in a queue does not say which
emission it comes from; the record takes the tasks of a dispatcher to be those that were posted
to it, in this order, and whether they are is a matter of proof.
-/

namespace Mvc

variable {σ ε : Type}

/-- What becomes of a connection when its turn comes or its task is taken. -/
inductive Fate (σ : Type) where
  /-- It is not there any more. -/
  | passed
  /-- Its slot is run. -/
  | served (slot : Slot σ) (notice : Notice)
  /-- Its slot waits for a dispatcher. -/
  | posted (dispatcher : Nat)

/-- An emission of an open signal, as it begins. -/
structure Emission (σ : Type) where
  notice : Notice
  thread : Thread
  /-- The connections, in the order in which they will be visited. -/
  table : List (ConnectionId × Connection (Slot σ))

/-- What can happen to a signal. -/
inductive Event (σ : Type) where
  | connected (id : ConnectionId) (connection : Connection (Slot σ))
  | disconnected (id : ConnectionId)
  | cleared
  | closed
  | blocked (blocked : Bool)
  /-- A notice was emitted while the signal was blocked. -/
  | dropped (notice : Notice)
  | began (emission : Emission σ)
  | turn (emission : Nat) (id : ConnectionId) (fate : Fate σ)
  | ended (emission : Nat)
  | taken (dispatcher emission : Nat) (id : ConnectionId) (fate : Fate σ)

namespace Event

/-- How many emissions have begun. The latest event comes first. -/
def begun : List (Event σ) → Nat
  | [] => 0
  | .began _ :: past => begun past + 1
  | _ :: past => begun past

/-- What was posted to a dispatcher and is not taken yet, the oldest first. -/
def waiting (d : Nat) : List (Event σ) → List (Nat × ConnectionId)
  | [] => []
  | .turn e id (.posted d') :: past =>
      if d' = d then waiting d past ++ [(e, id)] else waiting d past
  | .taken d' _ _ _ :: past => if d' = d then (waiting d past).tail else waiting d past
  | _ :: past => waiting d past

end Event

/-- The state with a record. -/
structure Record (σ ε : Type) where
  now : Ensemble σ ε
  /-- What has happened to the signal, the latest first. -/
  past : List (Event σ)

/-- The same program for a state of which it sees a part. -/
def Program.within {ω ω' κ ρ : Type} {R : κ → Type} (part : ω' → ω) :
    Program ω R ρ → Program ω' R ρ
  | .done r => .done r
  | .look next => .look fun c => (next (part c)).within part
  | .act a next => .act a fun r => (next r).within part

/-- A way to run calls with a record. -/
abbrev Recorder (σ ε : Type) := (call : Call σ ε) → Proc (Record σ ε) call.Result

namespace Record

open Event

/-- A procedure of which there is no record. -/
def silently {α : Type} (p : Proc (Ensemble σ ε) α) : Proc (Record σ ε) α := fun c =>
  (p c.now).map fun (r, now) => (r, { c with now })

/-- Write an event down. -/
def note (event : Event σ) : Proc (Record σ ε) Unit :=
  modify fun c => { c with past := event :: c.past }

section Operations

variable (run : Recorder σ ε) (s : SignalRef)

/-- Run client code. -/
def client {ρ : Type} (code : Client σ ε ρ) : Proc (Record σ ε) ρ :=
  (code.within Record.now).run fun a => run (.action a)

/-- The turn of a connection that is still there. -/
def deliver (e : Nat) (notice : Notice) (id : ConnectionId) (connection : Connection (Slot σ)) :
    Proc (Record σ ε) Unit := do
  match connection.delivery with
  | .direct =>
    note (.turn e id (.served connection.slot notice))
    run (.slot connection.slot notice)
  | .dispatched mode d =>
    if Ensemble.servesInline (.dispatched mode d) (← get).now.thread then
      note (.turn e id (.served connection.slot notice))
      run (.slot connection.slot notice)
    else
      note (.turn e id (.posted d))
      silently (modify (Ensemble.updateDispatcher d fun q =>
        q.post (.delivery s id connection.slot notice)))

/-- The turns of connections, and the end of the emission. -/
def visit (e : Nat) (notice : Notice) :
    List (ConnectionId × Connection (Slot σ)) → Proc (Record σ ε) Unit
  | [] => note (.ended e)
  | (id, connection) :: rest => do
    if ((← get).now.signal s).isConnected id then deliver run s e notice id connection
    else note (.turn e id .passed)
    visit e notice rest

/-- Emit a notice. -/
def emit (notice : Notice) : Proc (Record σ ε) Unit := do
  let c ← get
  let x := c.now.signal s
  if x.blocked then note (.dropped notice)
  else
    note (.began ⟨notice, c.now.thread, x.connections⟩)
    visit run s (begun c.past) notice x.connections

/-- Connect a slot; a closed signal takes none. -/
def connect (slot : Slot σ) (delivery : Delivery) : Proc (Record σ ε) ConnectionId := do
  let closed := ((← get).now.signal s).closed
  let id ← silently (Ensemble.connect s slot delivery)
  if closed then return id
  note (.connected id ⟨slot, delivery⟩)
  return id

/-- Remove a connection. -/
def disconnect (id : ConnectionId) : Proc (Record σ ε) Bool := do
  let found ← silently (Ensemble.disconnect s id)
  if found then note (.disconnected id)
  return found

/-- Change the signal. -/
def change (f : Signal (Slot σ) → Signal (Slot σ)) (event : Event σ) :
    Proc (Record σ ε) Unit := do
  silently (Ensemble.changeSignal s f)
  note event

/-- Write down that a task is taken, and whether its connection is still there. -/
def noteTaken (d : Nat) : Task σ → Proc (Record σ ε) Unit
  | .delivery s' id slot notice => do
    let c ← get
    if s' = s then
      match waiting d c.past with
      | (e, _) :: _ =>
        if (c.now.signal s).isConnected id then note (.taken d e id (.served slot notice))
        else note (.taken d e id .passed)
      | [] => pure ()
  | .client _ => pure ()

/-- Run a task. -/
def runTask (β : Behaviour σ ε) : Task σ → Proc (Record σ ε) Unit
  | .delivery s' id slot notice => do
    if ((← get).now.signal s').isConnected id then run (.slot slot notice)
  | .client code => client run (β.job code)

/-- Run waiting tasks until there are none, at most `fuel`, and count them. -/
def drain (d : Nat) : Nat → Proc (Record σ ε) Nat
  | 0 => Proc.tooDeep
  | fuel + 1 => do
    match ((← get).now.dispatcher d).next? with
    | none => return 0
    | some (task, rest) =>
      silently (modify (Ensemble.updateDispatcher d fun _ => rest))
      noteTaken s d task
      run (.task task)
      silently (modify (Ensemble.updateDispatcher d Dispatcher.finish))
      return (← drain d fuel) + 1

/-- Run a procedure on a background thread. -/
def inBackground {α : Type} (p : Proc (Record σ ε) α) : Proc (Record σ ε) α := do
  let thread := (← get).now.thread
  silently (modify fun w => { w with thread := .background })
  let result ← p
  silently (modify fun w => { w with thread })
  return result

/-- Perform an action; `plain` performs those of which there is no record. -/
def performAction (plain : (a : Action σ ε) → Proc (Ensemble σ ε) a.Result) (fuel : Nat) :
    (a : Action σ ε) → Proc (Record σ ε) a.Result
  | .connect t slot delivery =>
    if t = s then connect s slot delivery else silently (plain (.connect t slot delivery))
  | .disconnect t id => if t = s then disconnect s id else silently (plain (.disconnect t id))
  | .disconnectAll t =>
    if t = s then change s Signal.disconnectAll .cleared else silently (plain (.disconnectAll t))
  | .block t b =>
    if t = s then change s (fun x => x.setBlocked b) (.blocked b)
    else silently (plain (.block t b))
  | .emit t notice => if t = s then emit run s notice else silently (plain (.emit t notice))
  | .close t => if t = s then change s Signal.close .closed else silently (plain (.close t))
  | .drain d => drain run s d fuel
  | .inBackground a => inBackground (run (.action a))
  | a => silently (plain a)

end Operations

end Record

open Record in
/-- Run a call with a record of a signal. -/
def recorded (β : Behaviour σ ε) (s : SignalRef) : Nat → Recorder σ ε
  | 0 => fun _ => Proc.tooDeep
  | depth + 1 => fun call =>
    match call with
    | .slot (.client code) notice => client (recorded β s depth) (β.slot code notice)
    | .task task => runTask (recorded β s depth) β task
    | .action a =>
      performAction (recorded β s depth) s (fun a => Ensemble.run β (depth + 1) (.action a)) depth a
    | call => silently (Ensemble.run β (depth + 1) call)

/-! ## Forgetting the record -/

namespace Record

open Proc

/-- Without the record, the first procedure does what the second does. -/
def Erases {α : Type} (p : Proc (Record σ ε) α) (q : Proc (Ensemble σ ε) α) : Prop :=
  ∀ c, (p c).map (fun x => (x.1, x.2.now)) = q c.now

namespace Erases

variable {α γ : Type}

theorem pure (r : α) : Erases (σ := σ) (ε := ε) (pure r) (pure r) := fun _ => rfl

theorem tooDeep : Erases (σ := σ) (ε := ε) (α := α) Proc.tooDeep Proc.tooDeep := fun _ => rfl

theorem silently (q : Proc (Ensemble σ ε) α) : Erases (silently q) q := by
  intro c
  cases h : q c.now <;> simp [Record.silently, h]

theorem bind {p : Proc (Record σ ε) α} {q : Proc (Ensemble σ ε) α}
    {f : α → Proc (Record σ ε) γ} {g : α → Proc (Ensemble σ ε) γ} (first : Erases p q)
    (rest : ∀ r, Erases (f r) (g r)) : Erases (p >>= f) (q >>= g) := by
  intro c
  show ((p c).bind fun x => f x.1 x.2).map _ = (q c.now).bind fun x => g x.1 x.2
  rw [← first c]
  cases h : p c with
  | none => rfl
  | some x => exact rest x.1 x.2

/-- What comes afterwards only adds to the record. -/
theorem after {p : Proc (Record σ ε) α} {q : Proc (Ensemble σ ε) α}
    {f : α → Proc (Record σ ε) α} (first : Erases p q)
    (rest : ∀ r, Erases (f r) (Pure.pure r)) : Erases (p >>= f) q := by
  have both := bind first rest
  rwa [bind_pure] at both

/-- The state may be looked at. -/
theorem look {f : Record σ ε → Proc (Record σ ε) α} {g : Ensemble σ ε → Proc (Ensemble σ ε) α}
    (rest : ∀ c, Erases (f c) (g c.now)) : Erases (get >>= f) (get >>= g) := fun c => rest c c

/-- What comes before only adds to the record. -/
theorem before {p : Proc (Record σ ε) Unit} {f : Unit → Proc (Record σ ε) α}
    {q : Proc (Ensemble σ ε) α} (first : Erases p (Pure.pure ())) (rest : Erases (f ()) q) :
    Erases (p >>= f) q := by
  have both := bind first fun _ => rest
  rwa [pure_bind] at both

theorem justNote (event : Event σ) :
    Erases (Record.note (ε := ε) event) (Pure.pure ()) := fun _ => rfl

theorem note (event : Event σ) {f : Unit → Proc (Record σ ε) α} {q : Proc (Ensemble σ ε) α}
    (rest : Erases (f ()) q) : Erases (Record.note event >>= f) q :=
  .before (.justNote event) rest

theorem program {ρ : Type} {step : (a : Action σ ε) → Proc (Record σ ε) a.Result}
    {step' : (a : Action σ ε) → Proc (Ensemble σ ε) a.Result}
    (actions : ∀ a, Erases (step a) (step' a)) (code : Client σ ε ρ) :
    Erases ((code.within Record.now).run step) (code.run step') := by
  induction code with
  | done r => exact .pure r
  | look next ih => exact .look fun c => ih c.now
  | act a next ih => exact .bind (actions a) fun r => ih r

end Erases

section Operations

variable {run : Recorder σ ε} {run' : Runner σ ε} (calls : ∀ call, Erases (run call) (run' call))
  (s : SignalRef)
include calls

theorem erases_client {ρ : Type} (code : Client σ ε ρ) :
    Erases (client run code) (run'.client code) :=
  .program (fun a => calls (.action a)) code

theorem erases_deliver (e : Nat) (notice : Notice) (id : ConnectionId)
    (connection : Connection (Slot σ)) :
    Erases (deliver run s e notice id connection)
      (Ensemble.deliver run' s notice id connection) := by
  unfold deliver Ensemble.deliver
  cases connection.delivery with
  | direct => exact .note _ (calls _)
  | dispatched mode d =>
      refine .look fun c => ?_
      split
      · exact .note _ (calls _)
      · exact .note _ (.silently _)

theorem erases_visit (e : Nat) (notice : Notice)
    (connections : List (ConnectionId × Connection (Slot σ))) :
    Erases (visit run s e notice connections)
      (Ensemble.visit run' s notice connections) := by
  induction connections with
  | nil => exact .justNote _
  | cons first rest ih =>
      refine .look fun c => ?_
      split
      · exact .bind (erases_deliver calls s e notice _ _) fun _ => ih
      · exact .bind (.justNote _) fun _ => ih

theorem erases_emit (notice : Notice) :
    Erases (emit run s notice) (Ensemble.emit run' s notice) := by
  refine .look fun c => ?_
  dsimp only
  split
  · exact .justNote _
  · exact .note _ (erases_visit calls s _ notice _)

omit calls in
theorem erases_connect (slot : Slot σ) (delivery : Delivery) :
    Erases (connect (ε := ε) s slot delivery) (Ensemble.connect s slot delivery) := by
  refine .look (g := fun _ => Ensemble.connect s slot delivery) fun c => ?_
  refine .after (.silently _) fun id => ?_
  split
  · exact .pure id
  · exact .note _ (.pure id)

omit calls in
theorem erases_disconnect (id : ConnectionId) :
    Erases (disconnect (σ := σ) (ε := ε) s id) (Ensemble.disconnect s id) := by
  refine .after (.silently _) fun found => ?_
  split
  · exact .note _ (.pure found)
  · exact .pure found

omit calls in
theorem erases_change (f : Signal (Slot σ) → Signal (Slot σ)) (event : Event σ) :
    Erases (change (ε := ε) s f event) (Ensemble.changeSignal s f) :=
  .after (.silently _) fun _ => .justNote _

omit calls in
theorem erases_noteTaken (d : Nat) (task : Task σ) :
    Erases (noteTaken (ε := ε) s d task) (pure ()) := by
  intro c
  cases task with
  | client code => rfl
  | delivery s' id slot notice =>
      simp only [noteTaken, get_bind]
      split
      · cases Event.waiting d c.past with
        | nil => rfl
        | cons first rest =>
            dsimp only
            split <;> rfl
      · rfl

theorem erases_runTask (β : Behaviour σ ε) (task : Task σ) :
    Erases (runTask run β task) (Ensemble.runTask run' β task) := by
  cases task with
  | client code => exact erases_client calls _
  | delivery s' id slot notice =>
      refine .look fun c => ?_
      split
      · exact calls _
      · exact .pure ()

theorem erases_drain (d fuel : Nat) :
    Erases (drain run s d fuel) (Ensemble.drain run' d fuel) := by
  induction fuel with
  | zero => exact .tooDeep
  | succ fuel ih =>
      refine .look fun c => ?_
      cases (c.now.dispatcher d).next? with
      | none => exact .pure 0
      | some next =>
          refine .bind (.silently _) fun _ => ?_
          refine .before (erases_noteTaken s d next.1) (.bind (calls _) fun _ => ?_)
          exact .bind (.silently _) fun _ => .bind ih fun n => .pure (n + 1)

omit calls in
theorem erases_inBackground {α : Type} {p : Proc (Record σ ε) α} {q : Proc (Ensemble σ ε) α}
    (inner : Erases p q) : Erases (inBackground p) (Ensemble.inBackground q) := by
  refine .look fun c => ?_
  refine .bind (.silently _) fun _ => .bind inner fun r => ?_
  exact .bind (.silently _) fun _ => .pure r

theorem erases_performAction (β : Behaviour σ ε) (fuel : Nat)
    {plain : (a : Action σ ε) → Proc (Ensemble σ ε) a.Result}
    (same : ∀ a, plain a = Ensemble.performAction run' β fuel a) (a : Action σ ε) :
    Erases (performAction run s plain fuel a) (Ensemble.performAction run' β fuel a) := by
  have silent : Erases (silently (plain a)) (Ensemble.performAction run' β fuel a) :=
    same a ▸ .silently _
  cases a with
  | connect t slot delivery =>
      simp only [performAction]
      split
      · next here => exact here ▸ erases_connect s slot delivery
      · exact silent
  | disconnect t id =>
      simp only [performAction]
      split
      · next here => exact here ▸ erases_disconnect s id
      · exact silent
  | disconnectAll t =>
      simp only [performAction]
      split
      · next here => exact here ▸ erases_change s _ _
      · exact silent
  | block t b =>
      simp only [performAction]
      split
      · next here => exact here ▸ erases_change s _ _
      · exact silent
  | emit t notice =>
      simp only [performAction]
      split
      · next here => exact here ▸ erases_emit calls s notice
      · exact silent
  | close t =>
      simp only [performAction]
      split
      · next here => exact here ▸ erases_change s _ _
      · exact silent
  | drain d => exact erases_drain calls s d fuel
  | inBackground a => exact erases_inBackground (calls _)
  | _ => exact silent

end Operations

end Record

open Record in
/-- A recorded run is a run with a record. -/
theorem recorded_run (β : Behaviour σ ε) (s : SignalRef) (depth : Nat) (call : Call σ ε) :
    Erases (recorded β s depth call) (Ensemble.run β depth call) := by
  induction depth generalizing call with
  | zero => exact .tooDeep
  | succ depth ih =>
      cases call with
      | slot slot notice =>
          cases slot with
          | client code => exact erases_client ih _
          | _ => exact .silently _
      | task task => exact erases_runTask ih β task
      | subscription code => exact .silently _
      | action a => exact erases_performAction ih s β depth (fun _ => rfl) a

end Mvc
