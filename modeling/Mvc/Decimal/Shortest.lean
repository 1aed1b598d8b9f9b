import Mvc.Decimal.Binary64

/-! # The shortest decimal that reads back

Every real in an interval around a double rounds to that double; the ends belong to
the interval when the significand is even. The shortest decimal is the one with the
fewest digits inside the interval and, of those, the one nearest to the double. Only
the two neighbours of the double on each decimal grid have to be tried: if any grid
point lies in the interval, one of these two does. The double can lie exactly half-way
between them; which one to take then is left to the caller.
-/

namespace Mvc

/-- `coefficient · 10 ^ exponent`. -/
structure Decimal where
  /-- All digits as one number. -/
  coefficient : Nat
  /-- The power of ten that scales it. -/
  exponent : Int
  deriving DecidableEq, Repr

/-- Which of the two neighbours at the same distance is taken. -/
inductive Tie where
  | toEven | away
  deriving DecidableEq, Repr

/-- Whether the lower neighbour is taken at the same distance. -/
def Tie.takesLower : Tie → Nat → Bool
  | .toEven, lower => lower % 2 = 0
  | .away, _ => false

namespace Decimal

/-- The decimal digits of a number, most significant first. -/
def digits (n : Nat) : List Char := Nat.toDigits 10 n

/-- The exponent of the leading digit. -/
def leading (d : Decimal) : Int := (digits d.coefficient).length - 1 + d.exponent

/-- Move trailing zeros of a coefficient into the exponent; `fuel` bounds their number. -/
def trim : Nat → Nat → Int → Decimal
  | 0, c, e => ⟨c, e⟩
  | fuel + 1, c, e => if c ≠ 0 ∧ c % 10 = 0 then trim fuel (c / 10) (e + 1) else ⟨c, e⟩

/-- Whether `10 ^ k` is at most `num / den`. -/
def tenPowLe (k : Int) (num den : Nat) : Bool :=
  den * Nat.pow 10 k.toNat ≤ num * Nat.pow 10 (-k).toNat

/-- The exponent of the leading decimal digit of `num / den`: the binary exponents
    determine it up to one. -/
def order (num den : Nat) : Int :=
  let guess := ((Nat.log2 num : Int) - Nat.log2 den) * 30103 / 100000
  if tenPowLe (guess + 1) num den then guess + 1
  else if tenPowLe guess num den then guess
  else guess - 1

/-- The reals that round to `significand · 2 ^ exponent`, as quarters of a unit in the
    last place on either side. -/
structure Interval where
  /-- Four times the significand. -/
  middle : Nat
  /-- The lower end; below a power of two the spacing is halved. -/
  low : Nat
  /-- The upper end. -/
  high : Nat
  /-- Whether the ends belong to it. -/
  closed : Bool

/-- The interval of a finite double, in units of `2 ^ (exponent - 2)`. -/
def Interval.of (significand : Nat) (exponent : Int) : Interval :=
  { middle := 4 * significand
    low := 4 * significand - if significand = Nat.pow 2 52 ∧ exponent > -1074 then 1 else 2
    high := 4 * significand + 2
    closed := significand % 2 = 0 }

/-- Whether the interval holds `n / d` of its units. -/
def Interval.holds (i : Interval) (n d : Nat) : Bool :=
  if i.closed then i.low * d ≤ n && n ≤ i.high * d else i.low * d < n && n < i.high * d

/-- The decimal nearest to a double among those with `count` digits, if one of them lies
    in the interval. The unit of the interval is `num / den`, and `lead` is the exponent
    of the leading digit. -/
def onGrid? (tie : Tie) (i : Interval) (num den : Nat) (lead : Int) (count : Nat) :
    Option Decimal :=
  let k : Int := lead + 1 - count
  -- A grid point `c · 10 ^ k` is `c · up / down` interval units.
  let up := den * Nat.pow 10 k.toNat
  let down := num * Nat.pow 10 (-k).toNat
  let below := i.middle * down / up
  let above := below + 1
  let distance (c : Nat) : Nat := (i.middle * down - c * up) + (c * up - i.middle * down)
  let lower := i.holds (below * up) down
  let upper := i.holds (above * up) down
  if lower && upper then
    let d := distance below
    let e := distance above
    some ⟨if d < e ∨ (d = e ∧ tie.takesLower below) then below else above, k⟩
  else if lower then some ⟨below, k⟩
  else if upper then some ⟨above, k⟩
  else none

/-- The shortest decimal that rounds to `significand · 2 ^ exponent`. Seventeen digits
    always suffice. -/
def shortest (tie : Tie) (significand : Nat) (exponent : Int) : Decimal :=
  if significand = 0 then ⟨0, 0⟩
  else
    let num := Nat.pow 2 (exponent - 2).toNat
    let den := Nat.pow 2 (2 - exponent).toNat
    let i := Interval.of significand exponent
    let lead := order (i.middle * num) den
    match (List.range 17).findSome? fun n => onGrid? tie i num den lead (n + 1) with
    | some d => trim 17 d.coefficient d.exponent
    | none => ⟨significand, 0⟩

end Decimal

end Mvc
