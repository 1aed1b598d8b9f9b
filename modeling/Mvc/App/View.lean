import Mvc.App.State

/-! # Console views

A console view shows a panel each time that it is shown anew, once it was set up; it cannot
be set up before it knows a model. While it is not enabled it ignores user actions.
-/

namespace Mvc.App

/-- Make a view, which the user sees from now on. -/
def makeView (hasModel : Bool) : Program Nat := do
  let view ← see (·.client.screens.members.length)
  change fun s => { s with screens := s.screens.set view (.new hasModel), current := some view }
  return view

/-- The setup of a view. -/
def viewSetup (view : Nat) : Program (Except ViewError Unit) :=
  see fun w =>
    if (w.client.screens.get view).hasModel then .ok ()
    else .error (.initializationFailed "no application model")

/-- Show a view anew. -/
def display (view : Nat) : Program Unit := do
  let ready ← see fun w => (w.view view).initialized && (w.client.screens.get view).hasModel
  if ready then
    let panel ← see fun w => Panel.ofStore (properties w)
    print view (.panel panel)
    Program.perform (Action.finishUpdate view)

/-- Trigger a user action, unless the view is not enabled; tell whether it was passed on. No
    payload is passed on as `null`. -/
def trigger (view : Nat) (name payload : String) : Program Bool := do
  if ← see fun w => (w.view view).enabled then
    let data : Value := if payload.isEmpty then .null else .string payload
    Program.perform (Action.report view name data)
    return true
  else
    print view (.ignored name)
    return false

/-- Announce that a view closes. -/
def close (view : Nat) : Program Unit := Program.perform (Action.announceClosing view)

/-- The diagnostic text of a console view. -/
def viewDiagnostic (w : Whole) (view : Nat) : String :=
  "ConsoleView \x7b base: " ++ w.viewDiagnostic view ++ ", has_model: " ++
    boolText (w.client.screens.get view).hasModel ++ " \x7d"

end Mvc.App
