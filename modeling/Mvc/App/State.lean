import Mvc.App.Operation
import Mvc.App.Screen
import Mvc.Ensemble.Run
import Mvc.Service
import Mvc.Worker

/-! # The state of the application

The application is client code of an ensemble with one model, one controller, any number of
console views, and one dispatcher if it was made with one. Beside these it has a service, a
worker for its operations, and a clock. Each reading of the clock gives a later time.

The journal holds what was heard of the signals that somebody listens to and what the
service announced, in order.
-/

namespace Mvc

/-- The nanosecond that follows; leap seconds are passed over. -/
def Instant.next (t : Instant) : Instant :=
  if h : t.nano + 1 < 1000000000 then ⟨t.second, t.nano + 1, by omega, by omega⟩
  else ⟨t.second + 1, 0, by omega, by omega⟩

namespace App

/-- The application's own code. -/
inductive Code where
  /-- Write down what a signal carries. -/
  | listen (signal : SignalRef)
  /-- Keep a view enabled exactly while no operation is at work. -/
  | followBusy (view : Nat)
  /-- Tell of a new theme in the status line. -/
  | followTheme
  /-- The part of an operation that the worker does. -/
  | work (operation : Operation)
  /-- The end of an operation. -/
  | complete (message : String)
  /-- Trigger a user action on the current view. -/
  | trigger (name payload : String)
  /-- Print the commands on the current view. -/
  | help

/-- What the journal holds. -/
inductive Entry where
  /-- A signal carried a notice. -/
  | heard (signal : SignalRef) (notice : Notice)
  /-- The service announced something. -/
  | service (event : ServiceEvent)
  /-- A user action was triggered, or ignored, or there was no view for it. -/
  | triggered (passed : Option Bool)

/-- The application's own state. -/
structure State where
  config : Config
  service : Service
  files : Files
  worker : Worker Operation
  /-- Whether the application was started and not stopped since. -/
  started : Bool
  /-- Whether an operation was accepted and is not complete. -/
  inFlight : Bool
  /-- The title as of the last time that the view was shown anew. -/
  windowTitle : String
  /-- What the console views print to, by their numbers. -/
  screens : Family Screen
  /-- The view that the user sees. -/
  current : Option Nat
  /-- The next reading of the clock. -/
  clock : Instant
  journal : List Entry

/-- The application's programs. -/
abbrev Program (ρ : Type) := Client Code State ρ

/-- The application as a whole. -/
abbrev Whole := Ensemble Code State

/-! ## The parts -/

/-- The application's model. -/
def model : Nat := 0

/-- The application's controller. -/
def controller : Nat := 0

/-- The application's dispatcher, if it has one. -/
def dispatcher : Nat := 0

/-- Emits the status line after it was written. -/
def Channel.status : SignalRef := .channel 0

/-- Emits whether an operation is at work after that was written. -/
def Channel.busy : SignalRef := .channel 1

/-- Emits the theme after it was written. -/
def Channel.theme : SignalRef := .channel 2

/-- Emits that user and theme were taken from the settings. -/
def Channel.settingsLoaded : SignalRef := .channel 3

/-- Emits that user and theme were kept in the settings. -/
def Channel.settingsSaved : SignalRef := .channel 4

/-- What the model knows. -/
def properties (w : Whole) : Store := (w.model model).store

/-! ## Small programs -/

/-- Read something off the whole application. -/
def see {ρ : Type} (f : Whole → ρ) : Program ρ := Program.see f

/-- Change the application's own state. -/
def change (f : State → State) : Program Unit := Program.perform (Action.change f)

/-- Write to the journal. -/
def note (entry : Entry) : Program Unit :=
  change fun s => { s with journal := s.journal ++ [entry] }

/-- Emit a notice. -/
def emit (signal : SignalRef) (notice : Notice) : Program Unit :=
  Program.perform (Action.emit signal notice)

/-- Connect the application's own code to a signal. -/
def connect (signal : SignalRef) (code : Code) (delivery : Delivery) : Program ConnectionId :=
  Program.perform (Action.connect signal (.client code) delivery)

/-- Write down from now on what a signal carries. -/
def listenTo (signal : SignalRef) : Program Unit := do
  let _ ← connect signal (.listen signal) .direct

/-- Read the clock. -/
def readClock : Program Instant := do
  let now ← see (·.client.clock)
  change fun s => { s with clock := now.next }
  return now

/-- Change the service. -/
def changeService (f : Service → Service.Change) : Program Unit :=
  change fun s =>
    let c := f s.service
    { s with service := c.after, journal := s.journal ++ c.events.map .service }

/-- Print to the screen of a view. -/
def print (view : Nat) (p : Printed) : Program Unit :=
  change fun s => { s with screens := s.screens.set view ((s.screens.get view).print p) }

end App

end Mvc
