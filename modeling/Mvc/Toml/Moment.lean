import Mvc.Time.Rfc3339

/-! # Dates and times in TOML

A date, a time of day, or both with a blank or a `T` between them; with both there may be a
UTC offset. They are kept as normalized text: `T` between date and time, `Z` or an offset
of hours and minutes, at most nine fraction digits and no trailing zeros among them.
-/

namespace Mvc.Toml

/-- A number of two digits up to a limit. -/
def twoDigits? (limit : Nat) (s : List Char) : Option (Nat × List Char) :=
  match Rfc3339.digits? 2 s with
  | some (n, s) => if n ≤ limit then some (n, s) else none
  | none => none

/-- A number in two digits. -/
def two (n : Nat) : List Char := Rfc3339.padded 2 n

/-- The date at the front of a text, normalized. -/
def date? (s : List Char) : Option (List Char × List Char) := do
  let (year, s) ← Rfc3339.digits? 4 s
  let s ← Rfc3339.skip? ['-'] s
  let (month, s) ← twoDigits? 12 s
  let s ← Rfc3339.skip? ['-'] s
  let (day, s) ← twoDigits? 31 s
  if (Date.mk year month day).isValid then
    some (Rfc3339.padded 4 year ++ '-' :: two month ++ '-' :: two day, s)
  else none

/-- Drop the zeros at the end. -/
def dropTrailingZeros (digits : List Char) : List Char :=
  (digits.reverse.dropWhile (· = '0')).reverse

/-- The text of a fraction of a second. -/
def fraction (nano : Nat) : List Char :=
  if nano = 0 then [] else '.' :: dropTrailingZeros (Rfc3339.padded 9 nano)

/-- The time of day at the front of a text, normalized. -/
def time? (s : List Char) : Option (List Char × List Char) := do
  let (hour, s) ← twoDigits? 23 s
  let s ← Rfc3339.skip? [':'] s
  let (minute, s) ← twoDigits? 59 s
  let s ← Rfc3339.skip? [':'] s
  let (second, s) ← twoDigits? 60 s
  let (nano, s) ← Rfc3339.fraction? s
  return (two hour ++ ':' :: two minute ++ ':' :: two second ++ fraction nano, s)

/-- The UTC offset at the front of a text, normalized; it may be missing. -/
def offset? : List Char → Option (List Char × List Char)
  | [] => some ([], [])
  | c :: s =>
    if c = 'Z' ∨ c = 'z' then some (['Z'], s)
    else if c = '+' ∨ c = '-' then do
      let (hours, s) ← twoDigits? 23 s
      let s ← Rfc3339.skip? [':'] s
      let (minutes, s) ← twoDigits? 59 s
      let sign := if c = '-' ∧ 0 < hours + minutes then '-' else '+'
      return (sign :: two hours ++ ':' :: two minutes, s)
    else some ([], c :: s)

/-- Whether a text begins as a time of day does: two digits and a colon. -/
def beginsTime (s : List Char) : Bool :=
  match twoDigits? 23 s with
  | some (_, ':' :: _) => true
  | _ => false

/-- Whether a text begins as a date does: four digits and a dash. -/
def beginsDate (s : List Char) : Bool :=
  match Rfc3339.digits? 4 s with
  | some (_, '-' :: _) => true
  | _ => false

/-- The date, perhaps with a time, or the time at the front of a text, normalized. -/
def moment? (s : List Char) : Option (List Char × List Char) := do
  if beginsDate s then
    let (date, s) ← date? s
    match s with
    | c :: rest =>
      if (c = 'T' ∨ c = 't' ∨ c = ' ') ∧ beginsTime rest then
        let (time, s) ← time? rest
        let (zone, s) ← offset? s
        return (date ++ 'T' :: time ++ zone, s)
      else return (date, s)
    | [] => return (date, [])
  else time? s

end Mvc.Toml
