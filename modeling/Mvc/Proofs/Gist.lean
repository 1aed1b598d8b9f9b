import Mathlib.Logic.Function.Basic
import Mvc.App.Behaviour
import Mvc.Proofs.Contents
import Mvc.Proofs.Rebinding

/-! # The gist of the application

Most of what the application does is shown on a screen or written to the journal and matters to
nobody else. The gist of its state is the rest: the busy flag and the status line, the operation
in flight, what the worker and the dispatcher still have to do, which views are enabled, and
which errors, completed operations and status lines were heard.

A frame is what stays as it is while nothing is bound: who is connected, and where to. Steps that
keep the frame are steady; they are described by what they do to the gist.
-/

namespace Mvc.App

/-! ## What was heard -/

/-- The text that an entry of the journal has of a signal. -/
def Entry.text? (s : SignalRef) : Entry → Option String
  | .heard t (.text message) => if t = s then some message else none
  | _ => none

/-- The texts that were heard of a signal, in order. -/
def heard (s : SignalRef) (w : Whole) : List String :=
  w.client.journal.filterMap (Entry.text? s)

/-! ## What waits -/

/-- What a task in the queue does that matters. -/
inductive Errand where
  /-- Report the end of an operation. -/
  | complete (message : String)
  /-- Tell a view whether an operation is at work, if it is still connected for this. -/
  | tell (id : ConnectionId) (view : Nat) (busy : Bool)

/-- The errand of a task, if it has one. -/
def Errand.ofTask? : Task Code → Option Errand
  | .client (.complete message) => some (.complete message)
  | .delivery _ id (.client (.followBusy view)) (.flag busy) => some (.tell id view busy)
  | _ => none

/-- What waits for the presentation thread. -/
def queue (w : Whole) : List (Task Code) := (w.dispatcher dispatcher).queue

/-- The tasks that the application has for its dispatcher. -/
inductive IsChore : Task Code → Prop
  | data (s : SignalRef) (id : ConnectionId) :
      IsChore (.delivery s id (.controllerData controller) .dataChanged)
  | busy (id : ConnectionId) (view : Nat) (busy : Bool) :
      IsChore (.delivery Channel.busy id (.client (.followBusy view)) (.flag busy))
  | complete (message : String) : IsChore (.client (.complete message))

/-! ## Frames -/

/-- Whether a connection only listens. -/
def isListener (k : Connection (Slot Code)) : Bool :=
  match k.slot with
  | .client (.listen _) => true
  | _ => false

/-- The view that is told by a connection whether an operation is at work. -/
def follower? (e : ConnectionId × Connection (Slot Code)) : Option (ConnectionId × Nat) :=
  match e.2.slot with
  | .client (.followBusy view) => some (e.1, view)
  | _ => none

/-- Whether the controller hears of user actions by a connection. -/
def isHandler (k : Connection (Slot Code)) : Bool :=
  match k.slot with
  | .controllerAction _ => true
  | _ => false

/-- What stays as it is while nothing is bound. -/
structure Frame where
  /-- Whether there is a dispatcher. -/
  routed : Bool
  /-- How many listeners a signal has. -/
  ears : SignalRef → Nat
  /-- By which connections which views are told whether an operation is at work. -/
  followers : List (ConnectionId × Nat)
  /-- Whether an id names a connection of this kind. -/
  connected : ConnectionId → Bool
  /-- How often the controller hears of a user action on a view. -/
  handlers : Nat → Nat
  config : Config

/-- The frame of the application. -/
def frame (w : Whole) : Frame where
  routed := (w.controller controller).dispatcher.isSome
  ears s := (w.signal s).connections.countP fun e => isListener e.2
  followers := (w.signal Channel.busy).connections.filterMap follower?
  connected := (w.signal Channel.busy).isConnected
  handlers v := (w.signal (.viewAction v)).connections.countP fun e => isHandler e.2
  config := w.client.config

/-! ## Gists -/

/-- What matters of the application. -/
structure Gist where
  frame : Frame
  thread : Thread
  /-- Whether the controller takes user actions. -/
  serving : Bool
  /-- The property that says whether an operation is at work. -/
  busy : Value
  /-- The property with the status line. -/
  status : Value
  /-- Whether an operation was accepted and is not complete. -/
  inFlight : Bool
  worker : Worker Operation
  /-- Which views pass user actions on. -/
  enabled : Nat → Bool
  waiting : List Errand
  /-- The errors that were heard. -/
  errors : List String
  /-- What was heard to be completed. -/
  dones : List String
  /-- The status lines that were heard. -/
  lines : List String

/-- The gist of the application. -/
def gist (w : Whole) : Gist where
  frame := frame w
  thread := w.thread
  serving := (w.controller controller).phase = .initialized
  busy := (properties w).get Property.busy
  status := (properties w).get Property.status
  inFlight := w.client.inFlight
  worker := w.client.worker
  enabled v := (w.view v).enabled
  waiting := (queue w).filterMap Errand.ofTask?
  errors := heard (.controllerError controller) w
  dones := heard (.controllerDone controller) w
  lines := heard Channel.status w

namespace Gist

/-- Whether the thread that emits tells the views at once. -/
def inline (g : Gist) : Bool := !g.frame.routed || g.thread = .presentation

/-- An entry is written to the journal. -/
def enter (e : Entry) (g : Gist) : Gist :=
  { g with
    errors := g.errors ++ (e.text? (.controllerError controller)).toList
    dones := g.dones ++ (e.text? (.controllerDone controller)).toList
    lines := g.lines ++ (e.text? Channel.status).toList }

/-- An error is reported. -/
def complain (message : String) (g : Gist) : Gist :=
  { g with
    errors := g.errors ++ List.replicate (g.frame.ears (.controllerError controller)) message }

/-- Something is reported to be completed. -/
def confirm (message : String) (g : Gist) : Gist :=
  { g with
    dones := g.dones ++ List.replicate (g.frame.ears (.controllerDone controller)) message }

/-- The status line is announced. -/
def announceStatus (text : String) (g : Gist) : Gist :=
  { g with lines := g.lines ++ List.replicate (g.frame.ears Channel.status) text }

/-- A view is enabled exactly while no operation is at work. -/
def follow (view : Nat) (busy : Bool) (g : Gist) : Gist :=
  { g with enabled := Function.update g.enabled view (!busy) }

/-- A view is told, now or later, whether an operation is at work. -/
def tell (busy : Bool) (g : Gist) (follower : ConnectionId × Nat) : Gist :=
  if g.inline then g.follow follower.2 busy
  else { g with waiting := g.waiting ++ [.tell follower.1 follower.2 busy] }

/-- Whether an operation is at work is announced. -/
def announceBusy (busy : Bool) (g : Gist) : Gist := g.frame.followers.foldl (tell busy) g

/-- The status line is written. -/
def setStatus (value : Value) (g : Gist) : Gist :=
  if g.status = value then g else { g with status := value }.announceStatus value.lossyText

/-- Whether an operation is at work is written. -/
def setBusy (value : Value) (g : Gist) : Gist :=
  if g.busy = value then g
  else { g with busy := value }.announceBusy (value.asBool?.getD false)

/-- A property has another value. -/
def written (name : String) (value : Value) (g : Gist) : Gist :=
  { g with
    busy := if name = Property.busy then value else g.busy
    status := if name = Property.status then value else g.status }

/-- A property that is not the theme is written. -/
def set (name : String) (value : Value) (g : Gist) : Gist :=
  if name = Property.status then g.setStatus value
  else if name = Property.busy then g.setBusy value
  else g

/-- Texts are written to the status line, one after another. -/
def setTexts (texts : List String) (g : Gist) : Gist :=
  texts.foldl (fun g text => g.setStatus (.string text)) g

/-- An operation is to be done, if none is in flight. -/
def run (operation : Operation) (g : Gist) : Gist :=
  if g.inFlight then g.complain operationInProgress
  else
    let g := { g with inFlight := true }.setStatus (.string operation.started)
    if g.worker.accepts then { g with worker := g.worker.send operation }
    else { g with inFlight := false }.complain workerStopped

/-- The end of an operation is reported. -/
def complete (message : String) (g : Gist) : Gist := { g with inFlight := false }.confirm message

/-- The end of an operation is reported, now or later. -/
def report (message : String) (g : Gist) : Gist :=
  if g.frame.routed then { g with waiting := g.waiting ++ [.complete message] }
  else g.complete message

/-- What a user action may come to. -/
def Acts (name : String) (data : Value) (g g' : Gist) : Prop :=
  if g.serving then
    match Operation.ofAction? g.frame.config.work name data with
    | some operation => g' = g.run operation
    | none =>
      if name = "theme" then
        (∃ texts, g' = g.setTexts texts) ∨ g' = g.complain ("Invalid theme: " ++ data.lossyText)
      else if name = "refresh" ∨ name = "update" then g' = g.confirm Ensemble.viewUpdated
      else g' = g
  else g' = g.complain Ensemble.notInitialized

/-- An errand is done. -/
def perform (g : Gist) : Errand → Gist
  | .complete message => g.complete message
  | .tell id view busy => if g.frame.connected id then g.follow view busy else g

/-- All errands are done. -/
def drain (g : Gist) : Gist := g.waiting.foldl perform { g with waiting := [] }

end Gist

end Mvc.App
