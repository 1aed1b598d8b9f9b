import Mvc.App.Property

/-! # Screens

A console view prints to a screen: panels with what the model knows, messages, and notices.
A broken screen loses what is printed to it.
-/

namespace Mvc.App

/-- What a view shows of a model. -/
structure Panel where
  title : String
  status : String
  busy : Bool
  theme : String
  deriving DecidableEq, Repr

/-- What there is to show of some properties. -/
def Panel.ofStore (s : Store) : Panel :=
  ⟨windowTitle s, textOf s Property.status, isBusy s, textOf s Property.theme⟩

/-- The lines of a panel. -/
def Panel.text (p : Panel) : String :=
  "== " ++ p.title ++ " ==\nstatus: " ++ p.status ++ (if p.busy then " [busy]" else "") ++
    "\ntheme: " ++ p.theme

/-- What is printed at once. -/
inductive Printed where
  | panel (panel : Panel)
  | error (message : String)
  | info (message : String)
  /-- A user action came while the view was not enabled. -/
  | ignored (action : String)
  /-- The commands that can be given. -/
  | commands
  deriving DecidableEq, Repr

/-- The commands that can be given. -/
def commandLine : String :=
  "commands: new | open | save | test [message] | long | theme <default|dark|light> | " ++
    "refresh | help | quit"

/-- The text that is printed, line ends included. -/
def Printed.text : Printed → String
  | panel p => p.text ++ "\n"
  | error message => "error: " ++ message ++ "\n"
  | info message => "info: " ++ message ++ "\n"
  | ignored action => "busy: '" ++ action ++ "' ignored\n"
  | commands => commandLine ++ "\n"

/-- Where a console view prints. -/
structure Screen where
  /-- Whether the view knows the model that it is to show. -/
  hasModel : Bool
  /-- Whether what is printed gets lost. -/
  broken : Bool
  /-- What has been printed. -/
  printed : List Printed

namespace Screen

/-- A screen without print. -/
def new (hasModel : Bool) : Screen := ⟨hasModel, false, []⟩

instance : Inhabited Screen := ⟨new false⟩

/-- Print something. -/
def print (s : Screen) (p : Printed) : Screen :=
  if s.broken then s else { s with printed := s.printed ++ [p] }

/-- All text on the screen. -/
def text (s : Screen) : String := String.join (s.printed.map Printed.text)

end Screen

end Mvc.App
