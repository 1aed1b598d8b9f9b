import Mvc.Decimal.Binary64
import Mvc.Dict
import Mvc.Time.Rfc3339

/-! # Property values

Models and settings hold values of several kinds side by side. `null` is the value of what
is absent: writing it removes a property, and reading a missing property gives it.

Two values are equal when they have the same structure, so doubles are compared by their
bits, and a NaN equals itself. The entries of a map stand in ascending order of their keys,
each key once; `Value.WellFormed` says so at every depth.
-/

namespace Mvc

/-- A value that can be held by a property. -/
inductive Value where
  /-- No value. -/
  | null
  /-- A truth value. -/
  | bool (b : Bool)
  /-- A 64-bit signed integer. -/
  | integer (i : Int64)
  /-- A double-precision number. -/
  | float (x : Binary64)
  /-- A text. -/
  | string (s : String)
  /-- A point in time. -/
  | timestamp (t : Instant)
  /-- Values in order. -/
  | list (items : List Value)
  /-- Values by key, in key order. -/
  | map (entries : List (String × Value))

namespace Value

instance : Inhabited Value := ⟨null⟩

mutual

/-- Structural equality; doubles agree when their bits do. -/
def equal : Value → Value → Bool
  | null, null => true
  | bool a, bool b => a == b
  | integer a, integer b => a == b
  | float a, float b => a == b
  | string a, string b => a == b
  | timestamp a, timestamp b => a == b
  | list a, list b => equalItems a b
  | map a, map b => equalEntries a b
  | _, _ => false

/-- Equality of lists, item by item. -/
def equalItems : List Value → List Value → Bool
  | [], [] => true
  | a :: as, b :: bs => equal a b && equalItems as bs
  | _, _ => false

/-- Equality of maps, entry by entry in key order. -/
def equalEntries : List (String × Value) → List (String × Value) → Bool
  | [], [] => true
  | (k, a) :: as, (l, b) :: bs => k == l && equal a b && equalEntries as bs
  | _, _ => false

end

instance : BEq Value := ⟨equal⟩

/-- The kinds of values. -/
inductive Kind where
  | null | bool | integer | float | timestamp | string | list | map
  deriving DecidableEq, Repr

/-- The kind of a value. -/
def kind : Value → Kind
  | null => .null
  | bool _ => .bool
  | integer _ => .integer
  | float _ => .float
  | string _ => .string
  | timestamp _ => .timestamp
  | list _ => .list
  | map _ => .map

/-- The name of a kind. -/
def Kind.name : Kind → String
  | .null => "null"
  | .bool => "bool"
  | .integer => "integer"
  | .float => "float"
  | .timestamp => "timestamp"
  | .string => "string"
  | .list => "list"
  | .map => "map"

/-- Whether a value is the absent one. -/
def isNull : Value → Bool
  | null => true
  | _ => false

/-- The truth value held. -/
def asBool? : Value → Option Bool
  | bool b => some b
  | _ => none

/-- The integer held. -/
def asInteger? : Value → Option Int64
  | integer i => some i
  | _ => none

/-- The number held as a double; an integer is rounded to the nearest one. -/
def asFloat? : Value → Option Binary64
  | float x => some x
  | integer i => some (.ofInt i.toInt)
  | _ => none

/-- The text held. -/
def asString? : Value → Option String
  | string s => some s
  | _ => none

/-- The instant held, or the one that a text denotes: stored timestamps come back as text. -/
def asTimestamp? : Value → Option Instant
  | timestamp t => some t
  | string s => Rfc3339.parse? s
  | _ => none

/-- The items of a list. -/
def asList? : Value → Option (List Value)
  | list items => some items
  | _ => none

/-- The entries of a map. -/
def asMap? : Value → Option (List (String × Value))
  | map entries => some entries
  | _ => none

/-- The value of an optional one: nothing is `null`. -/
def ofOption : Option Value → Value
  | some v => v
  | none => null

/-- A map of some pairs; a later pair replaces an earlier one of its key. -/
def ofPairs (pairs : List (String × Value)) : Value := map (Entries.ofList pairs)

mutual

/-- The entries of every map inside ascend. -/
def WellFormed : Value → Prop
  | list items => ItemsWellFormed items
  | map entries => Ascending entries ∧ EntriesWellFormed entries
  | _ => True

/-- Every item is well formed. -/
def ItemsWellFormed : List Value → Prop
  | [] => True
  | v :: rest => WellFormed v ∧ ItemsWellFormed rest

/-- The value of every entry is well formed. -/
def EntriesWellFormed : List (String × Value) → Prop
  | [] => True
  | (_, v) :: rest => WellFormed v ∧ EntriesWellFormed rest

end

end Value

end Mvc
