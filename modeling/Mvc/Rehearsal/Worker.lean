import Mvc.Rehearsal.Basic
import Mvc.Worker.Workshop

/-! # Rehearsing a worker

One worker, with a dispatcher for the answers to its tasks or without. The worker runs ahead
as far as it can: until it waits for letters, or at a task that waits at a closed gate.
-/

namespace Mvc.Rehearsal.Worker

/-- What a task does. -/
inductive Deed where
  /-- Say that it runs. -/
  | tell
  /-- Stop the worker and tell whether it is running. -/
  | stop
  /-- Wait for the end of the worker's thread and tell whether it came. -/
  | join
  /-- Send a task and tell whether it was accepted. -/
  | send (deeds : List Deed)
  /-- Crash. -/
  | crash

/-- The code of a task. -/
structure Code where
  tag : String
  /-- The gate that it waits at before it does anything. -/
  gate : Option Nat
  deeds : List Deed

/-- What is noticed. -/
inductive Event where
  | ran (tag : String)
  | told (tag : String) (result : Bool)
  | answered (tag : String) (onPresentation : Bool)

/-- A worker with what was noticed and not yet reported. The result of a task is its tag. -/
abbrev Shop := Workshop Code String (List Event)

/-- Write down an event. -/
def note (e : Event) : Craft Code String (List Event) Unit :=
  Program.perform (Order.change (· ++ [e]))

/-- Do the deeds of a task. -/
def perform (tag : String) : List Deed → Craft Code String (List Event) (Option String)
  | [] => return some tag
  | .tell :: rest => do
    note (.ran tag)
    perform tag rest
  | .stop :: rest => do
    Program.perform Order.stop
    note (.told tag (← Program.see (·.thread.running)))
    perform tag rest
  | .join :: rest => do
    note (.told tag (← Program.perform Order.joinInside))
    perform tag rest
  | .send deeds :: rest => do
    note (.told tag (← Program.perform (Order.send ⟨⟨tag, none, deeds⟩, false⟩)))
    perform tag rest
  | .crash :: _ => return none

/-- The client code. -/
def trade : Trade Code String (List Event) where
  body code := perform code.tag code.deeds
  callback _ tag onPresentation log := log ++ [.answered tag onPresentation]

/-- A worker and the gates of its tasks. -/
structure State where
  shop : Shop
  /-- The gates that can be opened by their tags. -/
  gates : List (String × Nat)
  /-- The gates that are closed. -/
  closed : List Nat
  /-- The number of gates so far. -/
  made : Nat

/-- Whether the task at hand waits at a closed gate. -/
def State.isHeld (s : State) : Bool :=
  s.shop.thread.current.any fun task => task.code.gate.any s.closed.contains

mutual

/-- The number of tasks that a deed may send, tasks sent by those included. -/
def Deed.sends : Deed → Nat
  | .send deeds => 1 + sendsOf deeds
  | _ => 0

/-- The number of tasks that deeds may send. -/
def sendsOf : List Deed → Nat
  | [] => 0
  | d :: rest => d.sends + sendsOf rest

end

/-- Let the thread go on as long as possible; `fuel` bounds the number of its steps. -/
def State.advanceBy (s : State) : Nat → State
  | 0 => s
  | fuel + 1 =>
    if s.isHeld then s
    else
      match s.shop.step? trade with
      | some shop => { s with shop }.advanceBy fuel
      | none => s

/-- A bound on the steps that a task leads to: to be taken and to run, for it and all that are
    sent; and one to shut down for each. -/
def steps (task : Assignment Code) : Nat := 3 * (1 + sendsOf task.code.deeds)

/-- A bound on the steps that letters lead to. -/
def stepsOf : List (Letter (Assignment Code)) → Nat
  | [] => 0
  | .execute task :: rest => steps task + stepsOf rest
  | .shutdown :: rest => 1 + stepsOf rest

/-- Let the thread go on as long as possible. -/
def State.advance (s : State) : State :=
  let t := s.shop.thread
  s.advanceBy ((t.current.map steps).getD 0 + stepsOf t.letters + 1)

/-- Open all gates. -/
def State.openGates (s : State) : State := { s with gates := [], closed := [] }.advance

/-- Steps with the worker. -/
inductive Step where
  /-- Send a task, perhaps behind a gate of its own. -/
  | send (tag : String) (gated : Bool) (deeds : List Deed) (answers : Bool)
  | release (tag : String)
  | stop
  | join
  | stopAndJoin
  | wait
  | drain
  | query
  | drop

/-- Make a gate for a tag; an older one of the tag opens. -/
def State.makeGate (s : State) (tag : String) : State :=
  { s with
    gates := (tag, s.made) :: s.gates.filter fun g => g.1 ≠ tag
    closed := s.made :: s.closed.filter fun g => some g ≠ s.gates.lookup tag
    made := s.made + 1 }

/-- Have the worker's owner do something. -/
def State.order (s : State) (o : Order Code (List Event)) : o.Result × State :=
  let (result, shop) := s.shop.order o
  (result, { s with shop }.advance)

/-- Wait for the end of the worker's thread. -/
def State.join (s : State) : Report × State :=
  match s.shop.join? with
  | some (result, shop) => (.flag result, { s with shop })
  | none => (.nothing, s)

/-- Whether a step reports what was noticed. -/
def Step.reports : Step → Bool
  | .join | .stopAndJoin | .wait | .drain | .drop => true
  | _ => false

/-- What a step does. -/
def Step.perform (s : State) : Step → Report × State
  | send tag gated deeds answers =>
    let gate := if gated then some s.made else none
    let s := if gated then s.makeGate tag else s
    let (accepted, s) := s.order (.send ⟨⟨tag, gate, deeds⟩, answers⟩)
    (.flag accepted, s)
  | release tag =>
    match s.gates.lookup tag with
    | none => (.flag false, s)
    | some gate =>
      (.flag true,
        { s with
          gates := s.gates.filter fun g => g.1 ≠ tag
          closed := s.closed.filter fun g => g ≠ gate }.advance)
  | stop => (.nothing, (s.order .stop).2)
  | join => s.openGates.join
  | stopAndJoin => (s.openGates.order .stop).2.join
  | wait => (.nothing, s.openGates)
  | drain =>
    match s.shop.drain? trade with
    | some (count, shop) => (.number count, { s with shop })
    | none => (.nothing, s)
  | query =>
    let t := s.shop.thread
    (.group [.flag t.running, .number t.pending, .text t.diagnostic], s)
  | drop => (.nothing, (s.openGates.order .stop).2)

/-- The report of a step and, if it reports them, the events since the last such step. -/
structure Outcome where
  report : Report
  events : Option (List Event)

/-- Forget what was noticed. -/
def State.clear (s : State) : State := { s with shop := { s.shop with client := [] } }

/-- Run steps; none has an outcome once the worker is dropped. -/
def play (s : State) : List Step → List (Option Outcome)
  | [] => []
  | step :: rest =>
    let (report, s) := step.perform s
    let outcome := if step.reports then ⟨report, some s.shop.client⟩ else ⟨report, none⟩
    let s := if step.reports then s.clear else s
    match step with
    | .drop => some outcome :: rest.map fun _ => none
    | _ => some outcome :: play s rest

/-- Rehearse a worker. -/
def rehearse (hasDispatcher : Bool) (steps : List Step) : List (Option Outcome) :=
  play ⟨.new hasDispatcher [], [], [], 0⟩ steps

end Mvc.Rehearsal.Worker
