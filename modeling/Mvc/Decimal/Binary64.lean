/-! # Double-precision numbers

A double is its 64 bits: sign, eleven bits of exponent, 52 bits of fraction. Finite
doubles are integer multiples of powers of two, and all arithmetic on them is exact
integer arithmetic followed by one rounding to the nearest double, a tie going to
the even significand.
-/

namespace Mvc

/-- A double-precision number as its bit pattern, so NaNs keep their sign and payload. -/
structure Binary64 where
  /-- Sign, exponent and fraction, from the highest bit down. -/
  bits : UInt64
  deriving DecidableEq

namespace Binary64

/-- What a bit pattern stands for. -/
inductive Reading where
  /-- `significand · 2 ^ exponent`, negated if asked for; zero has a sign too. -/
  | finite (negative : Bool) (significand : Nat) (exponent : Int)
  /-- An infinity. -/
  | infinite (negative : Bool)
  /-- Not a number. -/
  | nan

/-- The sign bit. -/
def negative (x : Binary64) : Bool := x.bits.toNat ≥ Nat.pow 2 63

/-- The eleven exponent bits. -/
def exponentField (x : Binary64) : Nat := x.bits.toNat / Nat.pow 2 52 % Nat.pow 2 11

/-- The 52 fraction bits. -/
def fraction (x : Binary64) : Nat := x.bits.toNat % Nat.pow 2 52

/-- The number that a bit pattern stands for. -/
def read (x : Binary64) : Reading :=
  if x.exponentField = 2047 then
    if x.fraction = 0 then .infinite x.negative else .nan
  else if x.exponentField = 0 then .finite x.negative x.fraction (-1074)
  else .finite x.negative (Nat.pow 2 52 + x.fraction) (x.exponentField - 1075)

/-- The pattern with a given sign bit over 63 bits of magnitude. -/
def ofMagnitude (negative : Bool) (magnitude : Nat) : Binary64 :=
  ⟨UInt64.ofNat (magnitude + if negative then Nat.pow 2 63 else 0)⟩

/-- The magnitude bits of infinity. -/
def infinityMagnitude : Nat := 2047 * Nat.pow 2 52

/-- Zero with a sign. -/
def zero (negative : Bool) : Binary64 := ofMagnitude negative 0

/-- Infinity with a sign. -/
def infinity (negative : Bool) : Binary64 := ofMagnitude negative infinityMagnitude

/-- The quotient rounded to the nearest integer, a tie to the even one. -/
def roundDiv (num den : Nat) : Nat :=
  let q := num / den
  let r := num % den
  if 2 * r > den ∨ (2 * r = den ∧ q % 2 = 1) then q + 1 else q

/-- The double nearest to `num / den`, a tie to the even significand; beyond the
    largest double it is infinity. Bits ascend with the number, so a significand
    that rounds up to the next power of two carries into the exponent by itself. -/
def ofRatio (negative : Bool) (num den : Nat) : Binary64 :=
  if num = 0 then zero negative
  else
    let low : Int := Nat.log2 num - Nat.log2 den - 53
    let scaled (e : Int) : Nat × Nat := (num * Nat.pow 2 (-e).toNat, den * Nat.pow 2 e.toNat)
    let fits := let (n, d) := scaled low; n < Nat.pow 2 53 * d
    let exponent := max (-1074) (if fits then low else low + 1)
    let (n, d) := scaled exponent
    ofMagnitude negative
      (min infinityMagnitude ((exponent + 1074).toNat * Nat.pow 2 52 + roundDiv n d))

/-- The double nearest to an integer. -/
def ofInt (i : Int) : Binary64 := ofRatio (i < 0) i.natAbs 1

/-- The double nearest to `significand · 10 ^ exponent`. -/
def ofDecimal (negative : Bool) (significand : Nat) (exponent : Int) : Binary64 :=
  ofRatio negative (significand * Nat.pow 10 exponent.toNat) (Nat.pow 10 (-exponent).toNat)

/-- Whether the number is an infinity. -/
def isInfinite (x : Binary64) : Bool := x.bits.toNat % Nat.pow 2 63 = infinityMagnitude

/-- Whether the number is one of the two zeros. -/
def isZero (x : Binary64) : Bool := x.bits.toNat % Nat.pow 2 63 = 0

/-- The number with the other sign. -/
def neg (x : Binary64) : Binary64 := ofMagnitude (!x.negative) (x.bits.toNat % Nat.pow 2 63)

/-- The significand and the exponent of a finite double's magnitude. -/
def parts (x : Binary64) : Nat × Int :=
  match x.read with
  | .finite _ m e => (m, e)
  | _ => (0, 0)

/-- The product of two non-negative finite doubles, rounded once. -/
def mulMagnitude (x y : Binary64) : Binary64 :=
  let (m, e) := x.parts
  let (n, f) := y.parts
  ofRatio false (m * n * Nat.pow 2 (e + f).toNat) (Nat.pow 2 (-(e + f)).toNat)

/-- The quotient of two non-negative finite doubles, rounded once. -/
def divMagnitude (x y : Binary64) : Binary64 :=
  let (m, e) := x.parts
  let (n, f) := y.parts
  ofRatio false (m * Nat.pow 2 (e - f).toNat) (n * Nat.pow 2 (f - e).toNat)

end Binary64

end Mvc
