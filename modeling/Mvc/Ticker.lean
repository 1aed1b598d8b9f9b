/-! # Tickers

A ticker calls back once at the end of every interval, until it is stopped.
-/

namespace Mvc

/-- A ticker. -/
structure Ticker where
  /-- Whether it was not stopped yet. -/
  running : Bool

namespace Ticker

/-- A ticker that starts now. -/
def start : Ticker := ⟨true⟩

/-- Stop a ticker. -/
def stop (_ : Ticker) : Ticker := ⟨false⟩

/-- How often a ticker calls back within a number of intervals. -/
def callsWithin (t : Ticker) (intervals : Nat) : Nat := if t.running then intervals else 0

/-- The diagnostic text. -/
def diagnostic (t : Ticker) : String :=
  "Ticker \x7b running: " ++ (if t.running then "true" else "false") ++ " \x7d"

end Ticker

end Mvc
