import Mvc.Settings.Key
import Mvc.Value.Basic

/-! # Settings

Values by key, in any spelling of the key. Whoever follows the settings hears the normal
form of each key whose entry changed, after the change, and the empty key when all entries
are gone at once.
-/

namespace Mvc

/-- Values by the normal forms of their keys. -/
structure Settings where
  values : Dict Value

/-- What an operation does to settings. -/
structure Settings.Change where
  /-- The settings afterwards. -/
  after : Settings
  /-- The keys that are announced, in order. -/
  announced : List String

namespace Settings

/-- Settings without entries. -/
def empty : Settings := ⟨.empty⟩

instance : Inhabited Settings := ⟨empty⟩

/-- The value under a key. -/
def get? (s : Settings) (key : String) : Option Value := s.values.get? (Key.normalize key)

/-- Whether a key has a value. -/
def contains (s : Settings) (key : String) : Bool := s.values.contains (Key.normalize key)

/-- An operation that leaves the settings as they are. -/
def unchanged (s : Settings) : Change := ⟨s, []⟩

/-- Remove the entry under a key. -/
def remove (s : Settings) (key : String) : Change :=
  let key := Key.normalize key
  if s.values.contains key then ⟨⟨s.values.erase key⟩, [key]⟩ else s.unchanged

/-- Store a value under a key; `null` removes the entry. The empty key has none. -/
def set (s : Settings) (key : String) (value : Value) : Change :=
  let key := Key.normalize key
  if key.isEmpty then s.unchanged
  else if value.isNull then s.remove key
  else if s.values.get? key == some value then s.unchanged
  else ⟨⟨s.values.insert key value⟩, [key]⟩

/-- Store values one after another. -/
def setAll (s : Settings) : List (String × Value) → Change
  | [] => s.unchanged
  | (key, value) :: rest =>
    let first := s.set key value
    let others := first.after.setAll rest
    ⟨others.after, first.announced ++ others.announced⟩

/-- Store values in the order of their keys. -/
def extend (s : Settings) (values : Dict Value) : Change := s.setAll values.entries

/-- Remove all entries. -/
def clear (s : Settings) : Change := if s.values.isEmpty then s.unchanged else ⟨empty, [""]⟩

/-- The keys below a group, in order. -/
def groupKeys (s : Settings) (group : String) : List String :=
  let start := (Key.normalize group ++ "/").toList
  s.values.keys.filter fun key => start.isPrefixOf key.toList

/-- The diagnostic text. -/
def diagnostic (s : Settings) : String :=
  "Settings \x7b entries: " ++ toString s.values.size ++ " \x7d"

end Settings

end Mvc
