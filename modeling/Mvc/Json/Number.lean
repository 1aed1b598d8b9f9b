import Mvc.Value.Basic

/-! # Numbers in JSON

An integer that fits in 64 bits with a sign is an integer; every other number is a double.
The digits make up a significand of at most 64 bits: digits that no longer fit are dropped
and, before the point, counted in the exponent. The significand is then scaled by a power
of ten in one rounded multiplication or division. A number too large for a double is
refused.
-/

namespace Mvc.Json

/-- The parts of a number as it is written. -/
structure Numeral where
  /-- Whether it begins with a minus. -/
  negative : Bool
  /-- The digits before the point. -/
  whole : List Char
  /-- The digits after the point, if there is one. -/
  fraction : Option (List Char)
  /-- The exponent, if there is one. -/
  exponent : Option Int

/-- The number that digits denote. -/
def digitsValue (digits : List Char) : Nat :=
  digits.foldl (fun n c => 10 * n + (c.toNat - 48)) 0

/-- Append digits to a significand while it stays below 2⁶⁴; also tell how many fitted. -/
def accumulate (significand : Nat) : List Char → Nat × Nat
  | [] => (significand, 0)
  | c :: rest =>
    let next := 10 * significand + (c.toNat - 48)
    if next < Nat.pow 2 64 then
      let (result, count) := accumulate next rest
      (result, count + 1)
    else (significand, 0)

/-- Divide by powers of ten in steps of at most `10 ^ 308`. Four steps take every
    significand to zero. -/
def divideByTenPow : Nat → Binary64 → Nat → Binary64
  | 0, x, _ => x
  | steps + 1, x, k =>
    if k ≤ 308 then x.divMagnitude (.ofRatio false (Nat.pow 10 k) 1)
    else divideByTenPow steps (x.divMagnitude (.ofRatio false (Nat.pow 10 308) 1)) (k - 308)

/-- A significand scaled by a power of ten; `none` when the result is infinite. -/
def scale? (significand : Nat) (exponent : Int) : Option Binary64 :=
  let x := Binary64.ofRatio false significand 1
  if exponent < 0 then some (divideByTenPow 4 x exponent.natAbs)
  else if significand = 0 then some x
  else if exponent > 308 then none
  else
    let y := x.mulMagnitude (.ofRatio false (Nat.pow 10 exponent.toNat) 1)
    if y.isInfinite then none else some y

/-- A double with a sign. -/
def signed (negative : Bool) (x : Binary64) : Value := .float (if negative then x.neg else x)

/-- The value of a numeral. -/
def Numeral.value? (n : Numeral) : Option Value :=
  let (whole, fitted) := accumulate 0 n.whole
  if n.fraction.isNone ∧ n.exponent.isNone ∧ fitted = n.whole.length then
    if !n.negative ∧ whole < Nat.pow 2 63 then some (.integer (Int64.ofInt whole))
    else if n.negative ∧ 0 < whole ∧ whole ≤ Nat.pow 2 63 then
      some (.integer (Int64.ofInt (-whole)))
    else some (signed n.negative (.ofRatio false whole 1))
  else
    let (significand, places) := accumulate whole (n.fraction.getD [])
    let exponent : Int := (n.whole.length - fitted : Nat) - places + n.exponent.getD 0
    (scale? significand exponent).map (signed n.negative)

end Mvc.Json
