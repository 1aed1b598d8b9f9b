import Mvc.Ensemble.Run

/-! # Rehearsals

A rehearsal runs scripted client code step by step. Each step has a report, and the clients
write down what they notice while it runs.
-/

namespace Mvc

/-- What a step reports. -/
inductive Report where
  | nothing
  | flag (b : Bool)
  | number (n : Nat)
  | text (s : String)
  | value (v : Value)
  | properties (entries : List (String × Value))
  /-- A value that may have been taken from the clock. -/
  | stamped (v : Value)
  | group (items : List Report)
  | fields (entries : List (String × Report))
  /-- Settings could not be read or written. -/
  | settingsError (e : SettingsError)

namespace Report

/-- The report of what may be missing. -/
def option {α : Type} (f : α → Report) : Option α → Report
  | some a => f a
  | none => nothing

/-- The report of properties that may have been taken from the clock. -/
def stampedProperties (entries : List (String × Value)) : Report :=
  group (entries.map fun (name, v) => group [text name, stamped v])

/-- The report of some texts. -/
def texts (ss : List String) : Report := group (ss.map text)

/-- The step was about something that is gone. -/
def dropped : Report := text "dropped"

/-- The step succeeded. -/
def ok : Report := text "ok"

/-- The report of a failure: the name of its cause and its wording. -/
def failure (kind message : String) : Report :=
  fields [("error", text kind), ("message", text message)]

/-- The report of reading or writing settings. -/
def settingsResult {α : Type} (f : α → Report) : Except SettingsError α → Report
  | .ok a => f a
  | .error e => settingsError e

/-- The report of a call that may fail. -/
def attempt {α : Type} (kind message : α → String) : Except α Unit → Report
  | .ok () => ok
  | .error e => failure (kind e) (message e)

end Report

/-- The name of an outcome. -/
def SetOutcome.name : SetOutcome → String
  | .changed => "Changed"
  | .unchanged => "Unchanged"
  | .rejected => "Rejected"

/-- The report of a write. -/
def SetOutcome.report (o : SetOutcome) : Report :=
  .group [.text o.name, .flag o.isAccepted, .flag o.isChanged]

/-- What became of one step. -/
structure StepResult (η : Type) where
  /-- What the step reports. -/
  report : Report
  /-- What was noticed meanwhile. -/
  events : List η
  /-- How things stand afterwards. -/
  standing : Report

namespace Rehearsal

/-- How deep calls may nest. -/
def depth : Nat := 1000000

/-- What a rehearsal knows of its clients. -/
structure Stage (σ ε η S : Type) where
  /-- The client code. -/
  behaviour : Behaviour σ ε
  /-- What a step does. -/
  perform : S → Client σ ε Report
  /-- What was noticed and not yet collected, and the state without it. -/
  collect : ε → List η × ε
  /-- How things stand before what was noticed is collected. -/
  standing : Ensemble σ ε → Report

/-- Run steps in order. -/
def play {σ ε η S : Type} (stage : Stage σ ε η S) :
    List S → Ensemble σ ε → Option (List (StepResult η))
  | [], _ => some []
  | step :: rest, w => do
    let (report, w) ← Ensemble.runClient stage.behaviour depth (stage.perform step) w
    let (events, client) := stage.collect w.client
    return ⟨report, events, stage.standing w⟩ :: (← play stage rest { w with client })

/-- Run steps that change a state and have a report and events, in order. -/
def trace {τ η S : Type} (perform : S → τ → Report × List η × τ) (standing : τ → Report) :
    List S → τ → List (StepResult η)
  | [], _ => []
  | step :: rest, state =>
    let (report, events, state) := perform step state
    ⟨report, events, standing state⟩ :: trace perform standing rest state

end Rehearsal

end Mvc
