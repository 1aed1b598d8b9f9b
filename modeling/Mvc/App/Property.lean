import Mvc.Config
import Mvc.Store
import Mvc.Value.Text

/-! # What the application knows

The application keeps who it is, its status line, whether it is busy, its user and its theme
in the properties of one model. A theme is one of three names, and no other value is taken
for it, so that a model with its defaults always has one of them.
-/

namespace Mvc.App

/-! ## Names -/

/-- The short name of the application. -/
def Property.name : String := "appName"

/-- The version of the application. -/
def Property.version : String := "appVersion"

/-- The name that people see. -/
def Property.title : String := "appTitle"

/-- The status line. -/
def Property.status : String := "statusMessage"

/-- Whether an operation is at work. -/
def Property.busy : String := "isBusy"

/-- When the status line was last written. -/
def Property.updated : String := "lastUpdated"

/-- The name of the user. -/
def Property.user : String := "userName"

/-- The theme. -/
def Property.theme : String := "theme"

/-- The setting that keeps the user. -/
def userKey : String := "application/userName"

/-- The setting that keeps the theme. -/
def themeKey : String := "application/theme"

/-! ## Themes -/

/-- The theme of those who have not chosen one. -/
def standardTheme : String := "default"

/-- The themes that there are. -/
def themes : List String := [standardTheme, "dark", "light"]

/-- Whether a text names a theme. -/
def isTheme (name : String) : Bool := themes.contains name

/-! ## Reading -/

/-- A property as text. -/
def textOf (s : Store) (name : String) : String := (s.get name).lossyText

/-- Whether an operation is at work. -/
def isBusy (s : Store) : Bool := (s.get Property.busy).asBool?.getD false

/-- What stands above everything that is shown: the title and the version. -/
def windowTitle (s : Store) : String :=
  textOf s Property.title ++ " - v" ++ textOf s Property.version

/-! ## Rules -/

/-- Whether a value may be written to a property. -/
def accepts (name : String) (value : Value) : Bool :=
  if name = Property.theme then value.asString?.any isTheme else true

/-- The properties of a fresh model at some time. -/
def defaults (config : Config) (now : Instant) : List (String × Value) :=
  [(Property.name, .string config.application.name),
    (Property.version, .string config.application.version),
    (Property.title, .string config.application.title),
    (Property.status, .string config.status.ready), (Property.busy, .bool false),
    (Property.updated, .timestamp now), (Property.user, .string ""),
    (Property.theme, .string standardTheme)]

/-- Whether a property is a text that is not empty. -/
def hasText (s : Store) (name : String) : Bool :=
  (s.get name).asString?.any fun text => !text.isEmpty

/-- Whether the properties make sense: there are a name, a version and a theme. -/
def validates (s : Store) : Bool :=
  hasText s Property.name && hasText s Property.version &&
    (s.get Property.theme).asString?.any isTheme

end Mvc.App
