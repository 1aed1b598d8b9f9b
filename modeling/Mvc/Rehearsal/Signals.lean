import Mvc.Ensemble.Handle
import Mvc.Rehearsal.Basic

/-! # Rehearsing one signal

One signal, some dispatchers, and listeners with scripts. A label names the connection made
last under it. Once the signal is given up, scripts do nothing.
-/

namespace Mvc.Rehearsal.Signals

/-- What a script can do. -/
inductive Cue where
  | disconnect (label : String)
  /-- Connect a listener without a script. -/
  | connect (label : String)
  /-- Emit one less than what was heard, if that was positive. -/
  | emitLess
  | emit (value : Int64)
  | block (blocked : Bool)
  | disconnectAll
  /-- Queue a task without a script. -/
  | post (dispatcher : Nat) (tag : String)

/-- The client code. -/
inductive Code where
  | listener (label : String) (script : List Cue)
  | task (tag : String) (script : List Cue)

/-- What is noticed. -/
inductive Event where
  /-- A listener heard a number, on the owner's thread or not. -/
  | heard (label : String) (value : Int64) (onOwner : Bool)
  /-- A task ran. -/
  | ran (tag : String)

/-- The client state. -/
structure State where
  /-- How many dispatchers there are. -/
  dispatchers : Nat
  /-- The connection made last under each label. -/
  labels : List (String × ConnectionId)
  /-- The handles on subscriptions, by name. -/
  handles : List (String × Handle Code)
  /-- Whether the signal is given up. -/
  isDropped : Bool
  /-- What was noticed. -/
  log : List Event

/-- The steps. -/
inductive Step where
  | connect (label : String) (delivery : Delivery) (script : List Cue)
  | emit (value : Int64) (background : Bool)
  | disconnect (label : String)
  | isConnected (label : String)
  | disconnectAll
  | block (blocked : Bool)
  | describe
  | subscribe (name label : String)
  /-- End a subscription, or forget it and leave its connection. -/
  | unsubscribe (name : String) (forget : Bool)
  | describeSubscription (name : String)
  | drop
  | drain (dispatcher : Nat) (background : Bool)
  | counts (dispatcher : Nat)
  | sameQueue (a b : Nat)
  | isOwner (background : Bool)
  | post (dispatcher : Nat) (tag : String) (script : List Cue) (background : Bool)
  /-- Describe a task and queue it. -/
  | postTask (dispatcher : Nat) (tag : String)
  | runTask (tag : String)

/-- The code of signal rehearsals. -/
abbrev Program (ρ : Type) := Client Code State ρ

/-- The signal under rehearsal. -/
def signal : SignalRef := .channel 0

/-- Write down an event. -/
def note (e : Event) : Program Unit :=
  .perform (Action.change fun s => { s with log := s.log ++ [e] })

/-- The connection that a label names. -/
def State.find (s : State) (label : String) : ConnectionId :=
  (s.labels.lookup label).getD .unused

/-- Connect a listener under a label. -/
def connect (label : String) (delivery : Delivery) (script : List Cue) : Program Unit := do
  let id ← Program.perform (Action.connect signal (.client (.listener label script)) delivery)
  Program.perform (Action.change fun s => { s with labels := (label, id) :: s.labels })

/-- What a cue does after `value` was heard. -/
def Cue.perform (value : Int64) : Cue → Program Unit
  | .disconnect label => do
    let id ← Program.see fun w : Ensemble Code State => w.client.find label
    let _ ← Program.perform (Action.disconnect signal id)
  | .connect label => Signals.connect label .direct []
  | .emitLess =>
    if 0 < value then .perform (Action.emit signal (.number (value - 1))) else pure ()
  | .emit v => .perform (Action.emit signal (.number v))
  | .block b => .perform (Action.block signal b)
  | .disconnectAll => .perform (Action.disconnectAll signal)
  | .post d tag => .perform (Action.post d (.task tag []))

/-- Run a script. -/
def runScript (value : Int64) : List Cue → Program Unit
  | [] => pure ()
  | cue :: rest => do
    let isDropped ← Program.see fun w : Ensemble Code State => w.client.isDropped
    if isDropped then pure () else cue.perform value
    runScript value rest

/-- Listeners and tasks say that they run, and then follow their scripts. -/
def behaviour : Behaviour Code State :=
  { Behaviour.plain with
    slot := fun code notice =>
      match code, notice with
      | .listener label script, .number value => do
        let onOwner ← Program.see fun w : Ensemble Code State =>
          w.client.dispatchers = 0 || w.thread = .presentation
        note (.heard label value onOwner)
        runScript value script
      | _, _ => pure ()
    job := fun code =>
      match code with
      | .task tag script => do
        note (.ran tag)
        runScript 0 script
      | .listener .. => pure () }

/-- Perform an action here or on a background thread. -/
def onThread (background : Bool) (a : Action Code State) : Program Unit := do
  if background then
    let _ ← Program.perform (Action.inBackground a)
  else
    let _ ← Program.perform a

/-- What a step does while the signal is there. -/
def performLive : Step → Program Report
  | .connect label delivery script => do
    Signals.connect label delivery script
    return .nothing
  | .emit value background => do
    onThread background (.emit signal (.number value))
    return .nothing
  | .disconnect label => do
    let id ← Program.see fun w : Ensemble Code State => w.client.find label
    let found ← Program.perform (Action.disconnect signal id)
    return .flag found
  | .isConnected label =>
    Program.see fun w => .flag ((w.signal signal).isConnected (w.client.find label))
  | .disconnectAll => do
    Program.perform (Action.disconnectAll signal)
    return .nothing
  | .block blocked => do
    Program.perform (Action.block signal blocked)
    Program.see fun w => .flag (w.signal signal).blocked
  | .describe => Program.see fun w => .text (w.signal signal).diagnostic
  | .subscribe name label => do
    let old ← Program.see fun w : Ensemble Code State => w.client.handles.lookup name
    Program.perform (Action.change fun s =>
      { s with
        handles := (name, .new (.connection signal (s.find label))) ::
          s.handles.filter (·.1 != name) })
    match old with
    | some old => old.drop
    | none => pure ()
    return .nothing
  | .drop => do
    Program.perform (Action.change fun s => { s with isDropped := true })
    Program.perform (Action.close signal)
    return .nothing
  | _ => return .nothing

/-- What a step does. -/
def Step.perform : Step → Program Report
  | .unsubscribe name forget => do
    let found ← Program.see fun w : Ensemble Code State => w.client.handles.lookup name
    Program.perform (Action.change fun s =>
      { s with handles := s.handles.filter (·.1 != name) })
    match found with
    | some handle =>
      if forget then handle.forget else handle.disconnect
      return .flag true
    | none => return .flag false
  | .describeSubscription name =>
    Program.see fun w =>
      (w.client.handles.lookup name).elim .nothing fun handle => .text handle.diagnostic
  | .drain d background => do
    if background then
      let n ← Program.perform (Action.inBackground (.drain d))
      return .number n
    else
      let n ← Program.perform (Action.drain d)
      return .number n
  | .counts d =>
    Program.see fun w =>
      let q := w.dispatcher d
      .group [.number q.pending, .number q.posted, .number q.executed]
  | .sameQueue a b => return .flag (a = b)
  | .isOwner background => return .flag !background
  | .post d tag script background => do
    onThread background (.post d (.task tag script))
    return .nothing
  | .postTask d tag => do
    Program.perform (Action.post d (.task tag []))
    return .text "QueuedTask \x7b .. \x7d"
  | .runTask tag => do
    Program.perform (Action.perform (.task tag []))
    return .nothing
  | step => do
    let isDropped ← Program.see fun w : Ensemble Code State => w.client.isDropped
    if isDropped then return .dropped else performLive step

/-- The rehearsal of one signal. -/
def stage : Stage Code State Event Step where
  behaviour := behaviour
  perform := Step.perform
  collect s := (s.log, { s with log := [] })
  standing w := if w.client.isDropped then .nothing else .number (w.signal signal).connectionCount

/-- Rehearse one signal with some dispatchers. -/
def rehearse (dispatchers : Nat) (steps : List Step) : Option (List (StepResult Event)) :=
  play stage steps (.new ⟨dispatchers, [], [], false, []⟩)

end Mvc.Rehearsal.Signals
