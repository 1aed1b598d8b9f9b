import Mvc.Value.Basic

/-! # Property stores

A store holds values by name and never holds `null`: writing `null` removes a property, and
reading a missing one gives `null`.
-/

namespace Mvc

/-- What became of a write. -/
inductive SetOutcome where
  /-- The value was stored. -/
  | changed
  /-- The value was the stored one already. -/
  | unchanged
  /-- A hook refused the value. -/
  | rejected
  deriving DecidableEq, Repr

/-- Whether the value was accepted, changed or not. -/
def SetOutcome.isAccepted (o : SetOutcome) : Bool := o ≠ .rejected

/-- Whether the store changed. -/
def SetOutcome.isChanged (o : SetOutcome) : Bool := o = .changed

/-- Named values. -/
structure Store where
  /-- The values, by name. -/
  values : Dict Value

namespace Store

/-- The store without properties. -/
def empty : Store := ⟨.empty⟩

instance : Inhabited Store := ⟨empty⟩

/-- The value of a property; `null` if there is none. -/
def get (s : Store) (name : String) : Value := (s.values.get? name).getD .null

/-- Whether a property exists. -/
def has (s : Store) (name : String) : Bool := s.values.contains name

/-- The names of the properties, in ascending order. -/
def names (s : Store) : List String := s.values.keys

/-- The number of properties. -/
def size (s : Store) : Nat := s.values.size

/-- Write a property; `null` removes it. -/
def write (s : Store) (name : String) (value : Value) : Store :=
  if value.isNull then ⟨s.values.erase name⟩ else ⟨s.values.insert name value⟩

/-- The store with exactly the given properties, those that are `null` left out. -/
def ofPairs (pairs : List (String × Value)) : Store :=
  ⟨(Dict.ofList pairs).filter fun _ v => !v.isNull⟩

end Store

end Mvc
