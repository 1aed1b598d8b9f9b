import Mvc.Error
import Mvc.Files.Path

/-! # Settings formats

The extension of a settings file names its format; letters of either case will do.
-/

namespace Mvc

/-- The formats in which settings are kept. -/
inductive SettingsFormat where
  | toml | json
  deriving DecidableEq, Repr

/-- The format that a path's extension names. -/
def SettingsFormat.ofPath (path : String) : Except SettingsError SettingsFormat :=
  match (Path.extension? path).map String.toLower with
  | some "toml" => .ok .toml
  | some "json" => .ok .json
  | _ => .error (.unsupportedFormat path)

end Mvc
