import Mvc.Ensemble.Behaviour

/-! # Emission

An emission takes a list of the signal's connections and visits them in order. A connection
that an earlier slot removed is passed over, one made in the meantime is not on the list.
A direct slot runs before the next connection is visited. A slot that has to wait for the
owner thread of its dispatcher becomes a task, which looks again whether its connection is
still there.
-/

namespace Mvc.Ensemble

variable {σ ε : Type}

/-- Whether a connection is served by the thread that emits. -/
def servesInline (delivery : Delivery) (thread : Thread) : Bool :=
  match delivery with
  | .direct => true
  | .dispatched .direct _ => true
  | .dispatched .queued _ => false
  | .dispatched .auto _ => thread = .presentation

/-- Serve one connection. -/
def deliver (run : Runner σ ε) (signal : SignalRef) (notice : Notice) (id : ConnectionId)
    (connection : Connection (Slot σ)) : Proc (Ensemble σ ε) Unit := do
  match connection.delivery with
  | .direct => run (.slot connection.slot notice)
  | .dispatched mode d =>
    if servesInline (.dispatched mode d) (← get).thread then run (.slot connection.slot notice)
    else
      modify (updateDispatcher d fun q => q.post (.delivery signal id connection.slot notice))

/-- Visit connections in order. -/
def visit (run : Runner σ ε) (signal : SignalRef) (notice : Notice) :
    List (ConnectionId × Connection (Slot σ)) → Proc (Ensemble σ ε) Unit
  | [] => pure ()
  | (id, connection) :: rest => do
    if ((← get).signal signal).isConnected id then deliver run signal notice id connection
    visit run signal notice rest

/-- Emit a notice. -/
def emit (run : Runner σ ε) (signal : SignalRef) (notice : Notice) : Proc (Ensemble σ ε) Unit := do
  let s := (← get).signal signal
  if s.blocked then pure () else visit run signal notice s.connections

/-- Connect a slot. -/
def connect (signal : SignalRef) (slot : Slot σ) (delivery : Delivery) :
    Proc (Ensemble σ ε) ConnectionId := do
  let (id, s) := ((← get).signal signal).connect slot delivery
  modify (setSignal signal s)
  return id

/-- Remove a connection and tell whether there was one. -/
def disconnect (signal : SignalRef) (id : ConnectionId) : Proc (Ensemble σ ε) Bool := do
  let (found, s) := ((← get).signal signal).disconnect id
  modify (setSignal signal s)
  return found

/-- Change a signal. -/
def changeSignal (signal : SignalRef) (f : Signal (Slot σ) → Signal (Slot σ)) :
    Proc (Ensemble σ ε) Unit :=
  modify fun w => w.setSignal signal (f (w.signal signal))

/-- End a subscription. -/
def release (run : Runner σ ε) : Subscription σ → Proc (Ensemble σ ε) Unit
  | .connection signal id => do let _ ← disconnect signal id
  | .client code => run (.subscription code)

/-- End subscriptions in order. -/
def releaseAll (run : Runner σ ε) : List (Subscription σ) → Proc (Ensemble σ ε) Unit
  | [] => pure ()
  | s :: rest => do
    release run s
    releaseAll run rest

/-- Run a task. -/
def runTask (run : Runner σ ε) (β : Behaviour σ ε) : Task σ → Proc (Ensemble σ ε) Unit
  | .delivery signal id slot notice => do
    if ((← get).signal signal).isConnected id then run (.slot slot notice)
  | .client code => run.client (β.job code)

/-- Run waiting tasks until there are none, at most `fuel`, and count them. -/
def drain (run : Runner σ ε) (d : Nat) : Nat → Proc (Ensemble σ ε) Nat
  | 0 => Proc.tooDeep
  | fuel + 1 => do
    match ((← get).dispatcher d).next? with
    | none => return 0
    | some (task, rest) =>
      modify (updateDispatcher d fun _ => rest)
      run (.task task)
      modify (updateDispatcher d Dispatcher.finish)
      return (← drain run d fuel) + 1

/-- Run a procedure on a background thread. -/
def inBackground {α : Type} (p : Proc (Ensemble σ ε) α) : Proc (Ensemble σ ε) α := do
  let thread := (← get).thread
  modify fun w => { w with thread := .background }
  let result ← p
  modify fun w => { w with thread }
  return result

end Mvc.Ensemble
