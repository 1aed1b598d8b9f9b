import Mvc.Time.Date
import Mvc.Time.Instant

/-! # Timestamps as text

The date and time format of RFC 3339. Writing uses the fewest of 0, 3, 6 or 9 fraction
digits that are exact and gives years outside 0 to 9999 a sign. Reading takes exactly
four year digits, any UTC offset below a day, any number of fraction digits of which nine
count, and a 60th second at the end of any minute.
-/

namespace Mvc.Rfc3339

/-- A number in at least `width` digits, filled up with zeros. -/
def padded (width n : Nat) : List Char :=
  let digits := Nat.toDigits 10 n
  List.replicate (width - digits.length) '0' ++ digits

/-- A year: four digits, with a sign if it has more or is negative. -/
def year (y : Int) : List Char :=
  if 0 ≤ y ∧ y ≤ 9999 then padded 4 y.toNat
  else (if y < 0 then '-' else '+') :: padded 4 y.natAbs

/-- The fraction of a second, with the point. -/
def fraction (nano : Nat) : List Char :=
  if nano = 0 then []
  else if nano % 1000000 = 0 then '.' :: padded 3 (nano / 1000000)
  else if nano % 1000 = 0 then '.' :: padded 6 (nano / 1000)
  else '.' :: padded 9 nano

/-- The text of an instant, ended by the given name of UTC. -/
def render (zone : String) (t : Instant) : String :=
  let date := Date.ofDays (t.second / 86400)
  let time := (t.second % 86400).toNat
  let second := time % 60 + t.nano / 1000000000
  String.ofList
    (year date.year ++ '-' :: padded 2 date.month ++ '-' :: padded 2 date.day ++
      'T' :: padded 2 (time / 3600) ++ ':' :: padded 2 (time / 60 % 60) ++
      ':' :: padded 2 second ++ fraction (t.nano % 1000000000) ++ zone.toList)

/-- The value of a decimal digit. -/
def digit? (c : Char) : Option Nat :=
  if '0' ≤ c ∧ c ≤ '9' then some (c.toNat - 48) else none

/-- Read exactly `count` digits behind those that make up `value`. -/
def digitsAfter? (value : Nat) : Nat → List Char → Option (Nat × List Char)
  | 0, s => some (value, s)
  | count + 1, c :: s => do digitsAfter? (10 * value + (← digit? c)) count s
  | _ + 1, [] => none

/-- Read exactly `count` digits. -/
def digits? (count : Nat) (s : List Char) : Option (Nat × List Char) := digitsAfter? 0 count s

/-- Take one of some characters off the front. -/
def skip? (accepted : List Char) : List Char → Option (List Char)
  | c :: s => if accepted.contains c then some s else none
  | [] => none

/-- Read up to nine fraction digits as nanoseconds and drop the rest. -/
def nanos : Nat → List Char → Nat × List Char
  | 0, s => (0, s.dropWhile Char.isDigit)
  | place + 1, c :: s =>
    match digit? c with
    | some d =>
      let (rest, s) := nanos place s
      (d * Nat.pow 10 place + rest, s)
    | none => (0, c :: s)
  | _ + 1, [] => (0, [])

/-- Read an optional fraction; a point needs a digit after it. -/
def fraction? : List Char → Option (Nat × List Char)
  | '.' :: c :: s => if c.isDigit then some (nanos 9 (c :: s)) else none
  | '.' :: [] => none
  | s => some (0, s)

/-- Read the UTC offset, in seconds: `Z`, or hours and minutes with a sign, which may be
    the mathematical minus. -/
def offset? : List Char → Option (Int × List Char)
  | [] => none
  | c :: s =>
    if c = 'Z' ∨ c = 'z' then some (0, s)
    else if c = '+' ∨ c = '-' ∨ c = '\u2212' then do
      let (hours, s) ← digits? 2 s
      let s ← skip? [':'] s
      let (minutes, s) ← digits? 2 s
      if hours ≤ 23 ∧ minutes ≤ 59 then
        let seconds : Int := hours * 3600 + minutes * 60
        some (if c = '+' then seconds else -seconds, s)
      else none
    else none

/-- The instant that a text denotes. -/
def parse? (text : String) : Option Instant := do
  let s := text.toList
  let (year, s) ← digits? 4 s
  let s ← skip? ['-'] s
  let (month, s) ← digits? 2 s
  let s ← skip? ['-'] s
  let (day, s) ← digits? 2 s
  let s ← skip? ['T', 't', ' '] s
  let (hour, s) ← digits? 2 s
  let s ← skip? [':'] s
  let (minute, s) ← digits? 2 s
  let s ← skip? [':'] s
  let (second, s) ← digits? 2 s
  let (nano, s) ← fraction? s
  let (offset, s) ← offset? s
  let date : Date := ⟨year, month, day⟩
  if s.isEmpty ∧ date.isValid ∧ hour ≤ 23 ∧ minute ≤ 59 ∧ second ≤ 60 then
    let leap := if second = 60 then 1 else 0
    let time : Int := hour * 3600 + minute * 60 + (second - leap : Nat)
    Instant.of? (date.toDays * 86400 + time - offset) (nano + leap * 1000000000)
  else none

end Mvc.Rfc3339
