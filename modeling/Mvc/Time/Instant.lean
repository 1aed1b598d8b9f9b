/-! # Instants

A point of Coordinated Universal Time to the nanosecond. A leap second is written as the
last second of its minute with a second or more of nanoseconds, so it lies between that
second and the next minute.
-/

namespace Mvc

/-- A point in time. -/
structure Instant where
  /-- Whole seconds since 1970, rounded down, leap seconds not counted. -/
  second : Int
  /-- Nanoseconds after it; a second or more inside a leap second. -/
  nano : Nat
  /-- A leap second is one second long. -/
  nano_lt : nano < 2000000000
  /-- A leap second follows the last second of a minute. -/
  leap : 1000000000 ≤ nano → second % 60 = 59
  deriving DecidableEq, Repr

namespace Instant

/-- The instant with the given parts, if they are in range. -/
def of? (second : Int) (nano : Nat) : Option Instant :=
  if h : nano < 2000000000 ∧ (1000000000 ≤ nano → second % 60 = 59) then
    some ⟨second, nano, h.1, h.2⟩
  else none

/-- The start of 1970. -/
def epoch : Instant := ⟨0, 0, by decide, by decide⟩

instance : Inhabited Instant := ⟨epoch⟩

end Instant

end Mvc
