import Mvc.Json.Number
import Mvc.Toml.Quoted

/-! # Numbers in TOML

Decimal integers have a sign if they like and no needless zero in front, integers of the
bases 16, 8 and 2 have a mark and no sign, and all fit in 64 bits. A float has a fraction,
an exponent or both, or is `inf` or `nan`. Underscores may stand between digits.
-/

namespace Mvc.Toml

/-- The digits behind one of them, in which underscores stand only before further digits. -/
def moreDigits? (isDigit : Char → Bool) : List Char → Option (List Char × List Char)
  | '_' :: c :: s =>
    if isDigit c then (moreDigits? isDigit s).map fun (digits, s) => (c :: digits, s) else none
  | '_' :: [] => none
  | c :: s =>
    if isDigit c then (moreDigits? isDigit s).map fun (digits, s) => (c :: digits, s)
    else some ([], c :: s)
  | [] => some ([], [])

/-- Digits, at least one, without the underscores between them. -/
def digits? (isDigit : Char → Bool) : List Char → Option (List Char × List Char)
  | c :: s =>
    if isDigit c then (moreDigits? isDigit s).map fun (digits, s) => (c :: digits, s) else none
  | [] => none

/-- Take an optional sign off the front; tell whether it is a minus. -/
def sign : List Char → Bool × List Char
  | '-' :: s => (true, s)
  | '+' :: s => (false, s)
  | s => (false, s)

/-- An integer that fits in 64 bits. -/
def integer? (i : Int) : Option Value :=
  if Int64.minValue.toInt ≤ i ∧ i ≤ Int64.maxValue.toInt then some (.integer (Int64.ofInt i))
  else none

/-- The number that digits of a base denote. -/
def baseValue (base : Nat) (digits : List Char) : Nat :=
  digits.foldl (fun n c => base * n + (Text.hexDigit? c).getD 0) 0

/-- An integer of another base behind its mark. -/
def baseInteger? (base : Nat) (s : List Char) : Option (Value × List Char) := do
  let (digits, s) ← digits? (fun c => (Text.hexDigit? c).any (· < base)) s
  return (← integer? (baseValue base digits), s)

/-- An optional fraction behind a whole number. -/
def fraction? : List Char → Option (Option (List Char) × List Char)
  | '.' :: s => (digits? Char.isDigit s).map fun (digits, s) => (some digits, s)
  | s => some (none, s)

/-- An optional exponent. -/
def exponent? : List Char → Option (Option Int × List Char)
  | c :: s =>
    if c = 'e' ∨ c = 'E' then do
      let (negative, s) := sign s
      let (digits, s) ← digits? Char.isDigit s
      let n : Int := Json.digitsValue digits
      return (some (if negative then -n else n), s)
    else some (none, c :: s)
  | [] => some (none, [])

/-- Powers of ten that decide by themselves whether a number of so many digits is zero or
    infinite; a larger exponent is cut down to this. -/
def exponentBound (digits : Nat) : Nat := digits + 400

/-- The double of a decimal. The positive infinity is refused, the negative one is not. -/
def float? (negative : Bool) (whole fraction : List Char) (exponent : Int) : Option Value :=
  let significand := Json.digitsValue (whole ++ fraction)
  let bound : Int := exponentBound (whole.length + fraction.length)
  let power := max (-bound) (min bound exponent) - fraction.length
  let x := Binary64.ofDecimal negative significand power
  if x.isInfinite ∧ !negative then none else some (.float x)

/-- The double that is not a number, with a sign. -/
def nan (negative : Bool) : Binary64 :=
  .ofMagnitude negative (Binary64.infinityMagnitude + Nat.pow 2 51)

/-- A decimal number at the front of a text. -/
def decimal? (s : List Char) : Option (Value × List Char) := do
  let (negative, s) := sign s
  match s with
  | 'i' :: 'n' :: 'f' :: s => return (.float (.infinity negative), s)
  | 'n' :: 'a' :: 'n' :: s => return (.float (nan negative), s)
  | s =>
    let (whole, s) ←
      match s with
      | '0' :: s => pure (['0'], s)
      | s => digits? Char.isDigit s
    let (fraction, s) ← fraction? s
    let (exponent, s) ← exponent? s
    if fraction.isNone ∧ exponent.isNone then
      let n : Int := Json.digitsValue whole
      return (← integer? (if negative then -n else n), s)
    else return (← float? negative whole (fraction.getD []) (exponent.getD 0), s)

/-- The number at the front of a text. -/
def number? : List Char → Option (Value × List Char)
  | '0' :: 'x' :: s => baseInteger? 16 s
  | '0' :: 'o' :: s => baseInteger? 8 s
  | '0' :: 'b' :: s => baseInteger? 2 s
  | s => decimal? s

end Mvc.Toml
