/-! # Errors and their causes

Each part of the ensemble has its own type of error with one constructor for each cause.
`message` gives the wording and `causes` what lies beneath, from the nearest on; the layers
that pass an error on either add a heading or repeat its words.
-/

namespace Mvc

/-- What the operating system reports about a file operation. -/
structure IoError where
  /-- The report's text. -/
  message : String
  deriving DecidableEq, Repr

/-- Why a model could not be initialized. -/
inductive ModelError where
  /-- Its default properties could not be determined. -/
  | initializationFailed (reason : String)
  /-- A property that it needs is missing. -/
  | missingProperty (name : String)
  deriving DecidableEq, Repr

/-- The name of a model error's cause. -/
def ModelError.kind : ModelError → String
  | .initializationFailed _ => "InitializationFailed"
  | .missingProperty _ => "MissingProperty"

/-- The wording of a model error. -/
def ModelError.message : ModelError → String
  | .initializationFailed reason => "Model initialization failed: " ++ reason
  | .missingProperty name => "Required property '" ++ name ++ "' is missing"

/-- Why a view could not be initialized. -/
inductive ViewError where
  /-- Its setup failed. -/
  | initializationFailed (reason : String)
  deriving DecidableEq, Repr

/-- The name of a view error's cause. -/
def ViewError.kind : ViewError → String
  | .initializationFailed _ => "InitializationFailed"

/-- The wording of a view error. -/
def ViewError.message : ViewError → String
  | .initializationFailed reason => "View initialization failed: " ++ reason

/-- Why a controller could not be initialized. -/
inductive ControllerError where
  /-- Its own setup failed. -/
  | initializationFailed (reason : String)
  /-- It needs a model and none is bound. -/
  | noModel
  /-- It needs a view and none is bound. -/
  | noView
  /-- Its model could not be initialized. -/
  | model (cause : ModelError)
  /-- Its view could not be initialized. -/
  | view (cause : ViewError)
  deriving DecidableEq, Repr

/-- The name of a controller error's cause. -/
def ControllerError.kind : ControllerError → String
  | .initializationFailed _ => "InitializationFailed"
  | .noModel => "NoModel"
  | .noView => "NoView"
  | .model _ => "Model"
  | .view _ => "View"

/-- The wording of a controller error; an error of its model or view is repeated. -/
def ControllerError.message : ControllerError → String
  | .initializationFailed reason => "Controller initialization failed: " ++ reason
  | .noModel => "No model is bound to the controller"
  | .noView => "No view is bound to the controller"
  | .model cause => cause.message
  | .view cause => cause.message

/-- The messages beneath a controller error. -/
def ControllerError.causes : ControllerError → List String
  | .model cause => [cause.message]
  | .view cause => [cause.message]
  | _ => []

/-- An error of one of the three roles. -/
inductive RoleError where
  | model (cause : ModelError)
  | controller (cause : ControllerError)
  | view (cause : ViewError)
  deriving DecidableEq, Repr

/-- The wording of a role's error names the role. -/
def RoleError.message : RoleError → String
  | .model cause => "Model error: " ++ cause.message
  | .controller cause => "Controller error: " ++ cause.message
  | .view cause => "View error: " ++ cause.message

/-- The messages beneath a role's error. -/
def RoleError.causes : RoleError → List String
  | .model cause => [cause.message]
  | .controller cause => cause.message :: cause.causes
  | .view cause => [cause.message]

/-- Why settings could not be read or written. -/
inductive SettingsError where
  /-- The file could not be read or written. -/
  | io (path : String) (cause : IoError)
  /-- The file's text is not in its format. -/
  | parse (path : String) (detail : String)
  /-- The settings have no text in the format. -/
  | serialize (path : String) (detail : String)
  /-- The file's extension names no format. -/
  | unsupportedFormat (path : String)
  deriving DecidableEq, Repr

/-- The wording of a settings error. -/
def SettingsError.message : SettingsError → String
  | .io path cause => "I/O error on '" ++ path ++ "': " ++ cause.message
  | .parse path detail => "Failed to parse '" ++ path ++ "': " ++ detail
  | .serialize path detail => "Failed to encode settings for '" ++ path ++ "': " ++ detail
  | .unsupportedFormat path =>
    "Unsupported settings format for '" ++ path ++ "' (expected .toml or .json)"

/-- The messages beneath a settings error. -/
def SettingsError.causes : SettingsError → List String
  | .io _ cause => [cause.message]
  | _ => []

/-- The file that a settings error is about. -/
def SettingsError.path : SettingsError → String
  | .io path _ => path
  | .parse path _ => path
  | .serialize path _ => path
  | .unsupportedFormat path => path

/-- Why the application's configuration could not be loaded. -/
inductive ConfigError where
  /-- The file could not be read. -/
  | io (path : String) (cause : IoError)
  /-- The file's text is no configuration. -/
  | parse (path : String) (detail : String)
  deriving DecidableEq, Repr

/-- The wording of a configuration error. -/
def ConfigError.message : ConfigError → String
  | .io path cause => "Failed to read config '" ++ path ++ "': " ++ cause.message
  | .parse path detail => "Invalid config '" ++ path ++ "': " ++ detail

/-- The messages beneath a configuration error. -/
def ConfigError.causes : ConfigError → List String
  | .io _ cause => [cause.message]
  | .parse _ _ => []

/-- Why logging could not be set up. -/
inductive LogError where
  /-- It is set up already. -/
  | alreadyInitialized
  /-- The filter cannot be read. -/
  | invalidFilter (detail : String)
  /-- The log file could not be opened. -/
  | io (path : String) (cause : IoError)
  deriving DecidableEq, Repr

/-- The wording of a logging error. -/
def LogError.message : LogError → String
  | .alreadyInitialized => "Logging is already initialized"
  | .invalidFilter detail => "Invalid log filter: " ++ detail
  | .io path cause => "Failed to open log file '" ++ path ++ "': " ++ cause.message

/-- The messages beneath a logging error. -/
def LogError.causes : LogError → List String
  | .io _ cause => [cause.message]
  | _ => []

/-- An error that ends the application's start. -/
inductive AppError where
  | core (cause : RoleError)
  | settings (cause : SettingsError)
  | config (cause : ConfigError)
  | log (cause : LogError)
  | io (cause : IoError)
  deriving DecidableEq, Repr

/-- The wording of an application error; an error of the three roles is repeated. -/
def AppError.message : AppError → String
  | .core cause => cause.message
  | .settings cause => "Settings error: " ++ cause.message
  | .config cause => "Configuration error: " ++ cause.message
  | .log cause => "Logging error: " ++ cause.message
  | .io cause => "I/O error: " ++ cause.message

/-- The messages beneath an application error. -/
def AppError.causes : AppError → List String
  | .core cause => cause.message :: cause.causes
  | .settings cause => cause.message :: cause.causes
  | .config cause => cause.message :: cause.causes
  | .log cause => cause.message :: cause.causes
  | .io cause => [cause.message]

end Mvc
