import Mvc.App.State

/-! # The application's model

Typed writes to the application's properties, and how user and theme come from the settings
and go back to them. Writing the status line, the busy flag or the theme also emits the new
value on a channel of its own.
-/

namespace Mvc.App

/-- Write a property. -/
def set (name : String) (value : Value) : Program SetOutcome :=
  Program.perform (Action.setProperty model name value)

/-- Write a text. -/
def setText (name text : String) : Program SetOutcome := set name (.string text)

/-- Write whether an operation is at work. -/
def setBusy (busy : Bool) : Program Unit := do
  let _ ← set Property.busy (.bool busy)

/-- Write the status line and the time. -/
def updateStatus (message : String) : Program Unit := do
  let _ ← setText Property.status message
  let now ← readClock
  let _ ← set Property.updated (.timestamp now)

/-- Empty the status line. -/
def clearStatus : Program Unit := do
  let _ ← setText Property.status ""

/-- A setting as text, or what stands for it when it is missing. -/
def settingText (s : Settings) (key standard : String) : String :=
  ((s.get? key).getD (.string standard)).lossyText

/-- Take user and theme from the settings. A theme that is none is passed over. -/
def loadSettings : Program Unit := do
  let settings ← see (·.client.service.settings)
  let _ ← setText Property.user (settingText settings userKey "")
  let _ ← setText Property.theme (settingText settings themeKey standardTheme)
  emit Channel.settingsLoaded .plain

/-- Keep a property in the settings as text. -/
def keep (key name : String) : Program Unit := do
  let text ← see fun w => textOf (properties w) name
  changeService fun s => s.adopt (s.settings.set key (.string text))

/-- Keep user and theme in the settings. -/
def saveSettings : Program Unit := do
  keep userKey Property.user
  keep themeKey Property.theme
  emit Channel.settingsSaved .plain

/-- The model's reaction to a change. -/
def afterSet (name : String) (value : Value) : Program Unit :=
  if name = Property.status then emit Channel.status (.text value.lossyText)
  else if name = Property.busy then emit Channel.busy (.flag (value.asBool?.getD false))
  else if name = Property.theme then emit Channel.theme (.text value.lossyText)
  else pure ()

/-- The properties of a fresh model now. -/
def populate : Program (List (String × Value)) := do
  let config ← see (·.client.config)
  return defaults config (← readClock)

/-- The diagnostic text of the application's model. -/
def modelDiagnostic (w : Whole) : String :=
  "ApplicationModel \x7b model: " ++ (w.model model).diagnostic ++ " \x7d"

end Mvc.App
