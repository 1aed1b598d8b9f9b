import Mathlib.Algebra.Order.Field.Power
import Mathlib.Data.Nat.Log
import Mathlib.Data.Rat.Cast.Order
import Mathlib.Tactic.FieldSimp
import Mathlib.Tactic.GCongr
import Mathlib.Tactic.Linarith
import Mathlib.Tactic.NormNum
import Mathlib.Tactic.Positivity
import Mathlib.Tactic.Ring
import Mvc.Decimal.Binary64
import Mvc.Decimal.Shortest

/-! # Numbers that stay finite

A quotient becomes a significand of at most 53 bits at the right exponent, rounded once. So what
lies below half a unit above the largest double becomes a finite one, and a number of normal size
grows by no more than one part in `2 ^ 53`. A product of two doubles is finite as long as the
product of the two numbers lies below that limit.

The decimal that is written for a double lies in the interval of the numbers that round to it. So
it stays below the limit, and, the two largest doubles apart, so far below that two further
roundings do not reach the limit either.
-/

namespace Mvc

/-- A power with a non-negative exponent, and what divides it. -/
theorem pow_toNat {b : ℚ} (ne : b ≠ 0) (e : ℤ) : b ^ e.toNat = b ^ e * b ^ (-e).toNat := by
  rw [← zpow_natCast, ← zpow_natCast, ← zpow_add₀ ne]
  congr 1
  omega

namespace Binary64

variable {num den k : Nat} {negative : Bool}

/-- The unit of the largest doubles. -/
def topUnit : ℚ := 2 ^ (971 : ℤ)

/-- Half a unit above the largest double. -/
def limit : ℚ := (2 ^ 53 - 1 / 2) * topUnit

theorem le_topUnit {e : ℤ} (finite : e ≤ 971) : (2 : ℚ) ^ e ≤ topUnit :=
  zpow_le_zpow_right₀ (by norm_num) finite

theorem topUnit_pos : 0 < topUnit := zpow_pos (by norm_num) _

theorem limit_lt : limit < 10 ^ 309 := by
  have digits : 2 ^ 1024 < 10 ^ 309 := by decide +kernel
  calc limit < 2 ^ (53 : ℤ) * topUnit := mul_lt_mul_of_pos_right (by norm_num) topUnit_pos
    _ = 2 ^ (1024 : ℤ) := by
      rw [topUnit, ← zpow_add₀ (by norm_num)]
      norm_num
    _ < 10 ^ 309 := by exact_mod_cast digits

theorem div_le_roundDiv (num den : Nat) : num / den ≤ roundDiv num den := by
  simp only [roundDiv]
  split <;> omega

theorem roundDiv_mul_le (num den : Nat) : 2 * (roundDiv num den * den) ≤ 2 * num + den := by
  have parts := Nat.div_add_mod num den
  have bound : num / den * den = den * (num / den) := Nat.mul_comm ..
  simp only [roundDiv]
  split
  · rw [Nat.add_mul]
    omega
  · omega

theorem roundDiv_le (num : Nat) (some : 0 < den) : (roundDiv num den : ℚ) ≤ num / den + 1 / 2 := by
  have bound : (2 * (roundDiv num den * den) : ℚ) ≤ 2 * num + den := by
    exact_mod_cast roundDiv_mul_le num den
  have positive : (0 : ℚ) < den := by exact_mod_cast some
  rw [← mul_le_mul_iff_left₀ positive]
  field_simp
  linarith

/-! ## The exponent of a quotient -/

/-- A quotient in units of a power of two. -/
def scaled (num den : Nat) (e : Int) : Nat × Nat :=
  (num * Nat.pow 2 (-e).toNat, den * Nat.pow 2 e.toNat)

/-- The exponent that leaves a quotient 53 or 54 bits. -/
def lowExponent (num den : Nat) : Int := Nat.log2 num - Nat.log2 den - 53

/-- The exponent of the double nearest to a quotient. -/
def exponentOf (num den : Nat) : Int :=
  let low := lowExponent num den
  max (-1074)
    (if (scaled num den low).1 < Nat.pow 2 53 * (scaled num den low).2 then low else low + 1)

/-- The significand of the double nearest to a quotient. -/
def significandOf (num den : Nat) : Nat :=
  let (n, d) := scaled num den (exponentOf num den)
  roundDiv n d

theorem ofRatio_eq (some : num ≠ 0) : ofRatio negative num den = ofMagnitude negative
    (min infinityMagnitude
      ((exponentOf num den + 1074).toNat * Nat.pow 2 52 + significandOf num den)) := by
  rw [ofRatio, if_neg some]
  rfl

theorem scaled_snd_pos (num : Nat) (some : 0 < den) (e : Int) : 0 < (scaled num den e).2 :=
  Nat.mul_pos some (Nat.pow_pos (by decide))

theorem scaled_div (num den : Nat) (e : Int) :
    ((scaled num den e).1 / (scaled num den e).2 : ℚ) = num / den / 2 ^ e := by
  have split := pow_toNat (b := 2) (by norm_num) e
  simp only [scaled, Nat.pow_eq]
  push_cast
  rw [split]
  have : (2 : ℚ) ^ e ≠ 0 := by positivity
  field_simp

section

variable (some : 0 < num) (some' : 0 < den)

include some some'

theorem lowExponent_spec : 2 ^ (lowExponent num den + 52) ≤ (num / den : ℚ) ∧
    (num / den : ℚ) < 2 ^ (lowExponent num den + 54) := by
  have lower : (2 : ℚ) ^ num.log2 ≤ num := by
    exact_mod_cast Nat.log2_self_le (by omega : num ≠ 0)
  have upper : (num : ℚ) < 2 ^ (num.log2 + 1) := by exact_mod_cast Nat.lt_log2_self
  have lower' : (2 : ℚ) ^ den.log2 ≤ den := by
    exact_mod_cast Nat.log2_self_le (by omega : den ≠ 0)
  have upper' : (den : ℚ) ≤ 2 ^ (den.log2 + 1) := by
    exact_mod_cast (Nat.lt_log2_self (n := den)).le
  have positive : (0 : ℚ) < den := by exact_mod_cast some'
  have quotient : ∀ a b : Nat, (2 : ℚ) ^ a / 2 ^ b = 2 ^ ((a : ℤ) - b) := by
    intro a b
    rw [zpow_sub₀ (by norm_num), zpow_natCast, zpow_natCast]
  constructor
  · calc (2 : ℚ) ^ (lowExponent num den + 52)
        = 2 ^ num.log2 / 2 ^ (den.log2 + 1) := by
          rw [quotient, lowExponent]
          congr 1
          push_cast
          ring
      _ ≤ num / den := by gcongr
  · calc (num / den : ℚ) < 2 ^ (num.log2 + 1) / 2 ^ den.log2 := by gcongr
      _ = 2 ^ (lowExponent num den + 54) := by
          rw [quotient, lowExponent]
          congr 1
          push_cast
          ring

omit some in
theorem fits_iff : (scaled num den (lowExponent num den)).1 <
      Nat.pow 2 53 * (scaled num den (lowExponent num den)).2 ↔
    (num / den : ℚ) < 2 ^ (lowExponent num den + 53) := by
  have positive : (0 : ℚ) < (scaled num den (lowExponent num den)).2 := by
    exact_mod_cast scaled_snd_pos num some' _
  have same := scaled_div num den (lowExponent num den)
  rw [zpow_add₀ (by norm_num), ← div_lt_iff₀' (by positivity), ← same, div_lt_iff₀ positive,
    Nat.pow_eq]
  norm_cast

/-- A quotient has at most 53 bits at its exponent. -/
theorem lt_exponentOf : (num / den : ℚ) < 2 ^ (exponentOf num den + 53) := by
  have upper := (lowExponent_spec some some').2
  have larger : ∀ {e : ℤ}, (num / den : ℚ) < 2 ^ (e + 53) →
      (num / den : ℚ) < 2 ^ (max (-1074) e + 53) := by
    intro e below
    refine below.trans_le (zpow_le_zpow_right₀ (by norm_num) ?_)
    omega
  simp only [exponentOf]
  apply larger
  split
  · next fits => exact (fits_iff some').mp fits
  · rwa [show lowExponent num den + 1 + 53 = lowExponent num den + 54 by ring]

/-- It has 53 bits, unless it is smaller than every double of 53 bits. -/
theorem exponentOf_le : exponentOf num den = -1074 ∨
    (2 : ℚ) ^ (exponentOf num den + 52) ≤ num / den := by
  have lower := (lowExponent_spec some some').1
  simp only [exponentOf]
  split
  · rcases max_choice (-1074) (lowExponent num den) with small | normal
    · exact .inl small
    · rw [normal]
      exact .inr lower
  · next wide =>
      rw [fits_iff some', not_lt] at wide
      rcases max_choice (-1074) (lowExponent num den + 1) with small | normal
      · exact .inl small
      · rw [normal, show lowExponent num den + 1 + 52 = lowExponent num den + 53 by ring]
        exact .inr wide

omit some in
variable (num) in
theorem significandOf_le_div : (significandOf num den : ℚ) ≤
    num / den / 2 ^ exponentOf num den + 1 / 2 := by
  have bound := roundDiv_le (scaled num den (exponentOf num den)).1
    (scaled_snd_pos num some' (exponentOf num den))
  rwa [scaled_div] at bound

omit some in
theorem significandOf_lt (below : num / den < (k - 1 / 2 : ℚ) * 2 ^ exponentOf num den) :
    significandOf num den < k := by
  have bound := significandOf_le_div num some'
  rw [← div_lt_iff₀ (by positivity)] at below
  have : (significandOf num den : ℚ) < k := by linarith
  exact_mod_cast this

theorem significandOf_le : significandOf num den ≤ 2 ^ 53 := by
  refine Nat.lt_succ_iff.mp (significandOf_lt some' ((lt_exponentOf some some').trans ?_))
  rw [zpow_add₀ (by norm_num), mul_comm]
  gcongr
  norm_num

omit some in
/-- A quotient of 53 bits has a significand of 53 bits. -/
theorem le_significandOf (normal : (2 : ℚ) ^ (exponentOf num den + 52) ≤ num / den) :
    2 ^ 52 ≤ significandOf num den := by
  have positive := scaled_snd_pos num some' (exponentOf num den)
  refine le_trans ((Nat.le_div_iff_mul_le positive).mpr ?_) (div_le_roundDiv _ _)
  rw [zpow_add₀ (by norm_num), ← le_div_iff₀' (by positivity), ← scaled_div,
    le_div_iff₀ (by exact_mod_cast positive)] at normal
  exact_mod_cast normal

/-- What lies below the limit has bits below those of infinity. -/
theorem magnitude_lt (below : (num / den : ℚ) < limit) :
    (exponentOf num den + 1074).toNat * Nat.pow 2 52 + significandOf num den <
      infinityMagnitude := by
  have atMost := significandOf_le some some'
  rw [limit] at below
  have small : exponentOf num den < 972 := by
    by_contra! large
    rcases exponentOf_le some some' with least | normal
    · omega
    · have above : (2 : ℚ) ^ ((53 : ℤ) + 971) ≤ num / den :=
        (zpow_le_zpow_right₀ (by norm_num) (by omega)).trans normal
      rw [zpow_add₀ (by norm_num), ← topUnit] at above
      have := topUnit_pos
      linarith
  by_cases last : exponentOf num den = 971
  · have tight : significandOf num den < 2 ^ 53 := by
      refine significandOf_lt some' ?_
      rw [last, ← topUnit]
      exact_mod_cast below
    rw [last, infinityMagnitude, Nat.pow_eq]
    omega
  · have steps : (exponentOf num den + 1074).toNat ≤ 2044 := by omega
    rw [infinityMagnitude, Nat.pow_eq]
    omega

end

theorem isInfinite_ofMagnitude {magnitude : Nat} (below : magnitude < infinityMagnitude) :
    (ofMagnitude negative magnitude).isInfinite = false := by
  have bound : infinityMagnitude < 2 ^ 63 := by decide
  simp only [isInfinite, ofMagnitude, UInt64.toNat_ofNat', Nat.pow_eq, decide_eq_false_iff_not]
  cases negative <;> simp <;> omega

/-- What lies below the limit becomes a finite double. -/
theorem isInfinite_ofRatio (some : 0 < den) (below : (num / den : ℚ) < limit) :
    (ofRatio negative num den).isInfinite = false := by
  by_cases none : num = 0
  · simp only [ofRatio, none, if_true, zero]
    exact isInfinite_ofMagnitude (by decide)
  · have bound := magnitude_lt (Nat.pos_of_ne_zero none) some below
    rw [ofRatio_eq none, Nat.min_eq_right bound.le]
    exact isInfinite_ofMagnitude bound

/-! ## How far rounding goes -/

/-- The magnitude of a finite double. -/
def size (x : Binary64) : ℚ := x.parts.1 * 2 ^ x.parts.2

theorem parts_ofMagnitude {magnitude field fraction : Nat} (below : field < 2047)
    (small : fraction < 2 ^ 52) (made : magnitude = field * 2 ^ 52 + fraction) :
    parts (ofMagnitude false magnitude) =
      if field = 0 then (fraction, -1074) else (2 ^ 52 + fraction, (field : ℤ) - 1075) := by
  have bits : (ofMagnitude false magnitude).bits.toNat = magnitude := by
    simp only [ofMagnitude, UInt64.toNat_ofNat', Bool.false_eq_true, if_false, Nat.add_zero]
    omega
  have here : (ofMagnitude false magnitude).exponentField = field := by
    simp only [exponentField, bits, Nat.pow_eq]
    omega
  have rest : (ofMagnitude false magnitude).fraction = fraction := by
    simp only [Binary64.fraction, bits, Nat.pow_eq]
    omega
  simp only [parts, read, here, rest, Nat.pow_eq]
  rw [if_neg (by omega)]
  split_ifs <;> rfl

/-- A significand that rounds up to the next power of two carries into the exponent. -/
theorem size_ofMagnitude {steps significand : Nat} (small : significand ≤ 2 ^ 53)
    (normal : 2 ^ 52 ≤ significand)
    (below : steps * Nat.pow 2 52 + significand < infinityMagnitude) :
    size (ofMagnitude false (steps * Nat.pow 2 52 + significand)) =
      significand * 2 ^ ((steps : ℤ) - 1074) := by
  simp only [infinityMagnitude, Nat.pow_eq] at below
  by_cases carries : significand = 2 ^ 53
  · have made : steps * Nat.pow 2 52 + significand = (steps + 2) * 2 ^ 52 + 0 := by
      simp only [Nat.pow_eq]
      omega
    have shape := parts_ofMagnitude (by omega) (by decide) made
    rw [size, shape, if_neg (by omega), carries]
    push_cast
    rw [show (steps : ℤ) + 2 - 1075 = (steps - 1074) + 1 by ring, zpow_add₀ (by norm_num)]
    ring
  · have made : steps * Nat.pow 2 52 + significand =
        (steps + 1) * 2 ^ 52 + (significand - 2 ^ 52) := by
      simp only [Nat.pow_eq]
      omega
    have shape := parts_ofMagnitude (by omega) (by omega) made
    rw [size, shape, if_neg (by omega), Nat.add_sub_cancel' normal]
    push_cast
    rw [show (steps : ℤ) + 1 - 1075 = steps - 1074 by ring]

/-- A number of normal size grows by at most one part in `2 ^ 53`. -/
theorem size_ofRatio (num : Nat) {den : Nat} (some : 0 < den) (normal : (1 : ℚ) ≤ num / den)
    (below : (num / den : ℚ) < limit) :
    size (ofRatio false num den) ≤ num / den * (1 + 1 / 2 ^ 53) := by
  have some' : 0 < num := by
    by_contra! none
    obtain rfl : num = 0 := by omega
    norm_num at normal
  have upper := lt_exponentOf some' some
  have large : -53 < exponentOf num den := by
    by_contra! low
    have : (2 : ℚ) ^ (exponentOf num den + 53) ≤ 2 ^ (0 : ℤ) :=
      zpow_le_zpow_right₀ (by norm_num) (by omega)
    rw [zpow_zero] at this
    linarith
  have lower := (exponentOf_le some' some).resolve_left (by omega)
  have bound := magnitude_lt some' some below
  have unit : (0 : ℚ) < 2 ^ exponentOf num den := by positivity
  have wide : (2 ^ 52 : ℚ) ≤ num / den / 2 ^ exponentOf num den := by
    rw [le_div_iff₀ unit]
    rwa [zpow_add₀ (by norm_num), mul_comm] at lower
  have least := le_significandOf some lower
  rw [ofRatio_eq (by omega), Nat.min_eq_right bound.le,
    size_ofMagnitude (significandOf_le some' some) least bound,
    show ((exponentOf num den + 1074).toNat : ℤ) - 1074 = exponentOf num den by omega]
  calc (significandOf num den : ℚ) * 2 ^ exponentOf num den
      ≤ (num / den / 2 ^ exponentOf num den + 1 / 2) * 2 ^ exponentOf num den := by
        gcongr
        exact significandOf_le_div num some
    _ ≤ (num / den / 2 ^ exponentOf num den * (1 + 1 / 2 ^ 53)) * 2 ^ exponentOf num den := by
        gcongr
        linarith
    _ = num / den * (1 + 1 / 2 ^ 53) := by
        field_simp

/-- A product below the limit is finite. -/
theorem isInfinite_mulMagnitude {x y : Binary64} (below : size x * size y < limit) :
    (mulMagnitude x y).isInfinite = false := by
  simp only [mulMagnitude]
  apply isInfinite_ofRatio (Nat.pow_pos (by decide))
  have split := pow_toNat (b := 2) (by norm_num) (x.parts.2 + y.parts.2)
  simp only [size, Nat.pow_eq] at below ⊢
  push_cast
  rw [split]
  have : (2 : ℚ) ^ (-(x.parts.2 + y.parts.2)).toNat ≠ 0 := by positivity
  field_simp
  rw [zpow_add₀ (by norm_num)]
  linarith

end Binary64

/-! ## How far the shortest decimal goes -/

namespace Decimal

open Binary64 hiding size

variable {tie : Tie} {significand num den count : Nat} {exponent lead : Int} {d : Decimal}

/-- The number that a decimal is. -/
def size (d : Decimal) : ℚ := d.coefficient * 10 ^ d.exponent

theorem size_trim (fuel c : Nat) (e : Int) : size (trim fuel c e) = c * 10 ^ e := by
  induction fuel generalizing c e with
  | zero => rfl
  | succ fuel ih =>
      rw [trim]
      split
      · next zeros =>
          have exact : (c : ℚ) = (c / 10 : Nat) * 10 := by
            exact_mod_cast (Nat.div_mul_cancel (Nat.dvd_of_mod_eq_zero zeros.2)).symm
          rw [ih, zpow_add₀ (by norm_num), exact]
          ring
      · rfl

/-- A decimal on a grid lies in the interval. -/
theorem holds_of_onGrid? {i : Interval} (found : onGrid? tie i num den lead count = some d) :
    i.holds (d.coefficient * (den * Nat.pow 10 d.exponent.toNat))
      (num * Nat.pow 10 (-d.exponent).toNat) = true := by
  simp only [onGrid?] at found
  split_ifs at found with both one lower upper <;> simp_all <;> grind

theorem size_le_of_holds {i : Interval} (some : 0 < den)
    (holds : i.holds (d.coefficient * (den * Nat.pow 10 d.exponent.toNat))
      (num * Nat.pow 10 (-d.exponent).toNat) = true) :
    size d ≤ i.high * (num / den) ∧ (i.closed = false → size d < i.high * (num / den)) := by
  have split := pow_toNat (b := 10) (by norm_num) d.exponent
  have positive : (0 : ℚ) < den := by exact_mod_cast some
  have unit : (0 : ℚ) < 10 ^ (-d.exponent).toNat := by positivity
  have same : (d.coefficient * (den * 10 ^ d.exponent.toNat) : ℚ) =
      size d * (den * 10 ^ (-d.exponent).toNat) := by
    rw [split, size]
    ring
  have same' : (i.high * (num * 10 ^ (-d.exponent).toNat) : ℚ) =
      i.high * (num / den) * (den * 10 ^ (-d.exponent).toNat) := by
    field_simp
  simp only [Interval.holds, Nat.pow_eq] at holds
  have atMost : (d.coefficient * (den * 10 ^ d.exponent.toNat) : ℚ) ≤
      i.high * (num * 10 ^ (-d.exponent).toNat) := by
    split at holds <;> simp only [Bool.and_eq_true, decide_eq_true_eq] at holds
    · exact_mod_cast holds.2
    · exact_mod_cast holds.2.le
  rw [same, same'] at atMost
  refine ⟨le_of_mul_le_mul_right atMost (by positivity), fun isOpen => ?_⟩
  simp only [isOpen, Bool.false_eq_true, if_false, Bool.and_eq_true, decide_eq_true_eq] at holds
  have below : (d.coefficient * (den * 10 ^ d.exponent.toNat) : ℚ) <
      i.high * (num * 10 ^ (-d.exponent).toNat) := by exact_mod_cast holds.2
  rw [same, same'] at below
  exact lt_of_mul_lt_mul_right below (by positivity)

/-- The shortest decimal is at most half a unit above the double, and less if the significand is
    odd. -/
theorem size_shortest_le (tie : Tie) (exponent : Int) (some : significand ≠ 0) :
    shortest tie significand exponent = ⟨significand, 0⟩ ∨
      size (shortest tie significand exponent) ≤ (significand + 1 / 2) * 2 ^ exponent ∧
      (significand % 2 = 1 →
        size (shortest tie significand exponent) < (significand + 1 / 2) * 2 ^ exponent) := by
  simp only [shortest, if_neg some]
  split
  · next d found =>
      obtain ⟨count, -, grid⟩ := List.exists_of_findSome?_eq_some found
      have some : 0 < Nat.pow 2 (2 - exponent).toNat := Nat.pow_pos (by decide)
      obtain ⟨atMost, below⟩ := size_le_of_holds some (holds_of_onGrid? grid)
      have unit : (Nat.pow 2 (exponent - 2).toNat / Nat.pow 2 (2 - exponent).toNat : ℚ) =
          2 ^ exponent / 4 := by
        have split := pow_toNat (b := 2) (by norm_num) (exponent - 2)
        rw [neg_sub] at split
        simp only [Nat.pow_eq]
        push_cast
        rw [split, zpow_sub₀ (by norm_num)]
        have : (2 : ℚ) ^ (2 - exponent).toNat ≠ 0 := by positivity
        field_simp
        norm_num
      have high : ((Interval.of significand exponent).high : ℚ) * (2 ^ exponent / 4) =
          (significand + 1 / 2) * 2 ^ exponent := by
        simp only [Interval.of]
        push_cast
        ring
      rw [unit, high] at atMost below
      rw [size_trim]
      refine .inr ⟨atMost, fun odd => below ?_⟩
      simp [Interval.of, odd]
  · exact .inl rfl

theorem coefficient_of_holds {i : Interval} (some : 0 < num) (low : 0 < i.low)
    (holds : i.holds (d.coefficient * (den * Nat.pow 10 d.exponent.toNat))
      (num * Nat.pow 10 (-d.exponent).toNat) = true) : d.coefficient ≠ 0 := by
  intro none
  have unit : 0 < i.low * (num * Nat.pow 10 (-d.exponent).toNat) :=
    Nat.mul_pos low (Nat.mul_pos some (Nat.pow_pos (by decide)))
  simp only [Interval.holds, none, Nat.zero_mul] at holds
  split at holds <;> simp only [Bool.and_eq_true, decide_eq_true_eq] at holds <;> omega

/-- Only zero is written without a digit from 1 to 9. -/
theorem shortest_coefficient (some : significand ≠ 0) :
    (shortest tie significand exponent).coefficient ≠ 0 := by
  simp only [shortest, if_neg some]
  split
  · next d found =>
      obtain ⟨count, -, grid⟩ := List.exists_of_findSome?_eq_some found
      have low : 0 < (Interval.of significand exponent).low := by
        simp only [Interval.of]
        split <;> omega
      have positive := coefficient_of_holds (Nat.pow_pos (by decide)) low (holds_of_onGrid? grid)
      intro none
      have same := size_trim 17 d.coefficient d.exponent
      rw [size, none, Nat.cast_zero, zero_mul, eq_comm, mul_eq_zero, Nat.cast_eq_zero] at same
      exact same.elim positive (zpow_ne_zero _ (by norm_num))
  · exact some

theorem shortest_plain (tie : Tie) (significand : Nat) (exponent : Int) :
    (shortest tie significand exponent).coefficient = 0 →
      (shortest tie significand exponent).exponent = 0 := by
  intro zero
  by_cases none : significand = 0
  · rw [shortest, if_pos none]
  · exact absurd zero (shortest_coefficient none)

/-- The shortest decimal of a finite double rounds to a finite double. -/
theorem size_shortest_lt (small : significand < 2 ^ 53) (finite : exponent ≤ 971) :
    size (shortest tie significand exponent) < limit := by
  have unit := le_topUnit finite
  have positive : 2 ≤ topUnit := le_topUnit (e := 1) (by norm_num)
  have small' : (significand : ℚ) + 1 ≤ 2 ^ 53 := by exact_mod_cast small
  rw [limit]
  by_cases none : significand = 0
  · rw [shortest, if_pos none, size, Nat.cast_zero, zero_mul]
    nlinarith
  · rcases size_shortest_le tie exponent none with fallback | ⟨atMost, below⟩
    · rw [fallback, size, zpow_zero]
      nlinarith
    · rcases Nat.mod_two_eq_zero_or_one significand with even | odd
      · have smaller : (significand : ℚ) + 2 ≤ 2 ^ 53 := by
          have : significand + 2 ≤ 2 ^ 53 := by omega
          exact_mod_cast this
        have least : (significand + 1 / 2) * 2 ^ exponent ≤ (significand + 1 / 2) * topUnit := by
          gcongr
        nlinarith
      · have least : (significand + 1 / 2) * 2 ^ exponent ≤ (2 ^ 53 - 1 / 2) * topUnit :=
          mul_le_mul (by linarith) unit (by positivity) (by norm_num)
        exact (below odd).trans_le least

/-- The two largest doubles apart, two more roundings of the shortest decimal stay finite. -/
theorem size_shortest_mul_lt (small : significand < 2 ^ 53) (finite : exponent ≤ 971)
    (notLast : exponent = 971 → significand < 2 ^ 53 - 2) :
    size (shortest tie significand exponent) * (1 + 1 / 2 ^ 53) ^ 2 < limit := by
  have positive : 2 ≤ topUnit := le_topUnit (e := 1) (by norm_num)
  have small' : (significand : ℚ) + 1 ≤ 2 ^ 53 := by exact_mod_cast small
  have bound : size (shortest tie significand exponent) ≤ (2 ^ 53 - 5 / 2) * topUnit := by
    by_cases none : significand = 0
    · rw [shortest, if_pos none, size, Nat.cast_zero, zero_mul]
      nlinarith
    · rcases size_shortest_le tie exponent none with fallback | ⟨atMost, -⟩
      · rw [fallback, size, zpow_zero]
        nlinarith
      · refine atMost.trans ?_
        by_cases last : exponent = 971
        · have below : (significand : ℚ) + 3 ≤ 2 ^ 53 := by
            have : significand + 3 ≤ 2 ^ 53 := by omega
            exact_mod_cast this
          have unit := le_topUnit finite
          exact mul_le_mul (by linarith) unit (by positivity) (by norm_num)
        · -- Below the last exponent, a unit is at most half of the topmost one.
          have unit := le_topUnit (e := exponent + 1) (by omega)
          rw [zpow_add₀ (by norm_num), zpow_one] at unit
          have least : (significand + 1 / 2) * 2 ^ exponent ≤ (2 ^ 53 - 1 / 2) * (topUnit / 2) :=
            mul_le_mul (by linarith) (by linarith) (by positivity) (by norm_num)
          linarith
  rw [limit]
  calc size (shortest tie significand exponent) * (1 + 1 / 2 ^ 53) ^ 2
      ≤ (2 ^ 53 - 5 / 2) * topUnit * (1 + 1 / 2 ^ 53) ^ 2 :=
        mul_le_mul_of_nonneg_right bound (by positivity)
    _ < (2 ^ 53 - 1 / 2) * topUnit := by
        rw [mul_right_comm]
        exact mul_lt_mul_of_pos_right (by norm_num) topUnit_pos

end Decimal

namespace Binary64

variable {x : Binary64} {negative : Bool} {significand : Nat} {exponent : Int}

theorem finite_bounds (finite : x.read = .finite negative significand exponent) :
    significand < 2 ^ 53 ∧ exponent ≤ 971 := by
  have field : x.exponentField < 2048 := Nat.mod_lt _ (by decide)
  have fraction : x.fraction < 2 ^ 52 := Nat.mod_lt _ (by decide)
  simp only [read, Nat.pow_eq] at finite
  split_ifs at finite <;> cases finite <;> omega

end Binary64

end Mvc
