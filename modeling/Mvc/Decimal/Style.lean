import Mvc.Decimal.Shortest

/-! # Number styles

How the shortest decimal of a double is laid out: which exponents are written in
positional notation, whether an integral number keeps a final `.0`, whether a positive
exponent carries a sign, and the texts of the numbers that have no digits.
-/

namespace Mvc

/-- A way of writing doubles. -/
structure NumberStyle where
  /-- The exponents of the leading digit that are written positionally: from the first up
      to, not including, the second. Without a range all are. -/
  positional : Option (Int × Int)
  /-- Whether an integral number in positional notation ends in `.0`. -/
  keepsPoint : Bool
  /-- Whether a positive exponent is written with `+`. -/
  signsExponent : Bool
  /-- Which of two shortest decimals at the same distance is written. -/
  tie : Tie
  /-- The text of a NaN. -/
  nan : String
  /-- The texts of the positive and the negative infinity. -/
  infinities : String × String

namespace NumberStyle

/-- Digits with the point after the first `point` of them, zeros filled in on either side. -/
def place (keepsPoint : Bool) (digits : List Char) (point : Int) : List Char :=
  let whole := digits.take point.toNat
  let fraction := digits.drop point.toNat
  (if whole.isEmpty then ['0'] else whole ++ List.replicate (point.toNat - digits.length) '0') ++
    if fraction.isEmpty then (if keepsPoint then ['.', '0'] else [])
    else '.' :: (List.replicate (-point).toNat '0' ++ fraction)

/-- One digit, the rest after a point, and the exponent. -/
def scientific (signsExponent : Bool) (digits : List Char) (exponent : Int) : List Char :=
  digits.take 1 ++ (if digits.length > 1 then '.' :: digits.drop 1 else []) ++
    'e' :: (if exponent < 0 then ['-'] else if signsExponent then ['+'] else []) ++
    Decimal.digits exponent.natAbs

/-- The text of a non-negative decimal. -/
def decimal (style : NumberStyle) (d : Decimal) : List Char :=
  let digits := Decimal.digits d.coefficient
  let isPositional := d.coefficient = 0 ∨ style.positional.all fun (low, high) =>
    decide (low ≤ d.leading) && decide (d.leading < high)
  if isPositional then place style.keepsPoint digits (d.leading + 1)
  else scientific style.signsExponent digits d.leading

/-- The text of a double. -/
def render (style : NumberStyle) (x : Binary64) : String :=
  match x.read with
  | .nan => style.nan
  | .infinite negative => if negative then style.infinities.2 else style.infinities.1
  | .finite negative significand exponent =>
    String.ofList
      ((if negative then ['-'] else []) ++
        style.decimal (Decimal.shortest style.tie significand exponent))

/-- Numbers as a reader likes them: all digits in place and no needless point. -/
def plain : NumberStyle := ⟨none, false, false, .away, "NaN", ("inf", "-inf")⟩

/-- Numbers in diagnostic text: always recognisable as floating, very small and very
    large ones with an exponent. -/
def diagnostic : NumberStyle := ⟨some (-4, 16), true, false, .away, "NaN", ("inf", "-inf")⟩

end NumberStyle

end Mvc
