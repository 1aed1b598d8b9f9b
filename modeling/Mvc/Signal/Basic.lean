import Mvc.Signal.Registry

/-! # Signals

A signal is a channel to which any number of slots are connected. Each connection says how
its slot is reached: directly, or by way of a dispatcher, whose queue the owner thread
drains. A blocked signal drops what is emitted, and a closed one, whose owner is gone, has
no connections and takes none.

`κ` is the type of slots; a signal only keeps them, it does not know what they do.
-/

namespace Mvc

/-- When a connection to a dispatcher is served at once. -/
inductive DispatchMode where
  /-- Always. -/
  | direct
  /-- Never: its slot waits in the queue. -/
  | queued
  /-- On the dispatcher's owner thread. -/
  | auto
  deriving DecidableEq, Repr

/-- How the slot of a connection is reached. -/
inductive Delivery where
  /-- On the thread that emits. -/
  | direct
  /-- By way of a dispatcher. -/
  | dispatched (mode : DispatchMode) (dispatcher : Nat)
  deriving DecidableEq, Repr

/-- A slot and how it is reached. -/
structure Connection (κ : Type) where
  slot : κ
  delivery : Delivery

/-- A channel with connected slots. -/
structure Signal (κ : Type) where
  /-- The connections. -/
  registry : Registry (Connection κ)
  /-- Whether emissions are dropped. -/
  blocked : Bool
  /-- Whether the signal's owner is gone. -/
  closed : Bool

namespace Signal

variable {κ : Type}

/-- A new signal. -/
def new : Signal κ := ⟨.empty, false, false⟩

instance : Inhabited (Signal κ) := ⟨new⟩

/-- Connect a slot and tell the connection's id. -/
def connect (s : Signal κ) (slot : κ) (delivery : Delivery) : ConnectionId × Signal κ :=
  if s.closed then (.unused, s)
  else
    let (id, registry) := s.registry.insert ⟨slot, delivery⟩
    (id, { s with registry })

/-- Remove a connection, and tell whether there was one. -/
def disconnect (s : Signal κ) (id : ConnectionId) : Bool × Signal κ :=
  let (found, registry) := s.registry.erase id
  (found, { s with registry })

/-- Remove all connections. -/
def disconnectAll (s : Signal κ) : Signal κ := { s with registry := s.registry.clear }

/-- Whether an id names a connection. -/
def isConnected (s : Signal κ) (id : ConnectionId) : Bool := s.registry.contains id

/-- The connections in the order in which an emission visits them. -/
def connections (s : Signal κ) : List (ConnectionId × Connection κ) := s.registry.entries

/-- The number of connections. -/
def connectionCount (s : Signal κ) : Nat := s.registry.size

/-- Drop or pass what is emitted from now on. -/
def setBlocked (s : Signal κ) (blocked : Bool) : Signal κ := { s with blocked }

/-- The signal after its owner is gone. -/
def close (s : Signal κ) : Signal κ := { s with registry := .empty, closed := true }

/-- The diagnostic text. -/
def diagnostic (s : Signal κ) : String :=
  "Signal \x7b connections: " ++ toString s.connectionCount ++ ", blocked: " ++
    (if s.blocked then "true" else "false") ++ " \x7d"

end Signal

end Mvc
