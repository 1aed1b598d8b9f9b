import Mathlib.Data.String.Basic
import Mathlib.Tactic.IntervalCases
import Mvc.Decimal.Style
import Mvc.Json.Number
import Mvc.Proofs.Rounding
import Mvc.Proofs.Sequences

/-! # Numbers as digits

Digits denote a number, and the digits of a number denote it. A decimal in positional notation is a
run of digits, a point and a further run; together they denote the decimal, scaled by the places
behind the point.
-/

namespace Mvc

/-- Digits, at least one. -/
def IsDigits (s : List Char) : Prop := s ≠ [] ∧ ∀ c ∈ s, c.isDigit = true

theorem isDigit_of_closes {rest : List Char} (closes : Closes rest) :
    ∀ c ∈ rest.head?, c.isDigit = false := by
  intro c here
  have member := closes c here
  simp only [List.mem_cons, List.not_mem_nil, or_false] at member
  rcases member with rfl | rfl | rfl | rfl | rfl <;> rfl

namespace Json

variable {s t digits : List Char} {n : Nat}

theorem digitsValue_eq (s : List Char) : digitsValue s = Nat.ofDigitChars 10 s 0 := rfl

theorem digitsValue_append (s t : List Char) :
    digitsValue (s ++ t) = digitsValue s * 10 ^ t.length + digitsValue t := by
  rw [digitsValue_eq, Nat.ofDigitChars_append, Nat.ofDigitChars_eq_ofDigitChars_zero, Nat.mul_comm]
  rfl

theorem digitsValue_zeros (s : List Char) (n : Nat) :
    digitsValue (s ++ List.replicate n '0') = digitsValue s * 10 ^ n := by
  rw [digitsValue_append, List.length_replicate, digitsValue_eq (List.replicate n '0'),
    Nat.ofDigitChars_replicate_zero, Nat.mul_zero, Nat.add_zero]

theorem digitsValue_cons_zero (s : List Char) : digitsValue ('0' :: s) = digitsValue s := rfl

theorem zeros_digitsValue (n : Nat) (s : List Char) :
    digitsValue (List.replicate n '0' ++ s) = digitsValue s := by
  induction n with
  | zero => rfl
  | succ n ih => rw [List.replicate_succ, List.cons_append, digitsValue_cons_zero, ih]

theorem digitsValue_digits (n : Nat) : digitsValue (Decimal.digits n) = n :=
  Nat.ofDigitChars_ten_toDigits

/-! ## A significand that may overflow -/

/-- Appended digits never denote more than they do. -/
theorem accumulate_le (significand : Nat) (digits : List Char) :
    (accumulate significand digits).2 ≤ digits.length ∧
      (accumulate significand digits).1 *
          10 ^ (digits.length - (accumulate significand digits).2) ≤
        significand * 10 ^ digits.length + digitsValue digits := by
  induction digits generalizing significand with
  | nil => simp [accumulate, digitsValue]
  | cons c rest ih =>
      have cut : digitsValue (c :: rest) = (c.toNat - 48) * 10 ^ rest.length + digitsValue rest :=
        digitsValue_append [c] rest |>.trans (by simp [digitsValue])
      obtain ⟨fewer, bound⟩ := ih (10 * significand + (c.toNat - 48))
      simp only [accumulate]
      split
      · refine ⟨by simpa using fewer, ?_⟩
        simp only [List.length_cons, Nat.add_sub_add_right, cut, pow_succ]
        calc _ ≤ _ := bound
          _ = _ := by ring
      · simp

theorem accumulate_lt {significand : Nat} (fits : significand < Nat.pow 2 64) (digits : List Char) :
    (accumulate significand digits).1 < Nat.pow 2 64 := by
  induction digits generalizing significand with
  | nil => exact fits
  | cons c rest ih =>
      simp only [accumulate]
      split
      · next fits => exact ih fits
      · exact fits

/-- Digits that denote a number of 64 bits all fit. -/
theorem accumulate_of_fits {significand : Nat}
    (fits : significand * 10 ^ digits.length + digitsValue digits < Nat.pow 2 64) :
    accumulate significand digits =
      (significand * 10 ^ digits.length + digitsValue digits, digits.length) := by
  induction digits generalizing significand with
  | nil => simp [accumulate, digitsValue]
  | cons c rest ih =>
      have cut : digitsValue (c :: rest) = (c.toNat - 48) * 10 ^ rest.length + digitsValue rest :=
        digitsValue_append [c] rest |>.trans (by simp [digitsValue])
      have whole : significand * 10 ^ (c :: rest).length + digitsValue (c :: rest) =
          (10 * significand + (c.toNat - 48)) * 10 ^ rest.length + digitsValue rest := by
        rw [cut, List.length_cons, pow_succ]
        ring
      rw [whole] at fits ⊢
      have next : 10 * significand + (c.toNat - 48) < Nat.pow 2 64 := by
        have : 0 < 10 ^ rest.length := by positivity
        nlinarith
      simp [accumulate, if_pos next, ih fits]

end Json

namespace Decimal

open Json

variable {n : Nat} {d : Decimal}

theorem isDigits_digits (n : Nat) : IsDigits (digits n) :=
  ⟨Nat.toDigits_ne_nil, fun _ => Nat.isDigit_of_mem_toDigits (by decide) (by decide)⟩

theorem head?_digits (positive : n ≠ 0) : (digits n).head? ≠ some '0' := by
  induction n using Nat.strong_induction_on with
  | _ n ih =>
      simp only [digits] at ih ⊢
      rw [Nat.toDigits_eq_if (by decide)]
      split
      · interval_cases n <;> simp_all [Nat.digitChar]
      · rw [List.head?_append_of_ne_nil _ Nat.toDigits_ne_nil]
        exact ih (n / 10) (by omega) (by omega)

/-- The text of an integer is its digits, behind a minus if it is negative. -/
theorem toList_toString (i : Int) : (toString i).toList =
    (if decide (i < 0) then ['-'] else []) ++ digits i.natAbs := by
  have natural : ∀ n : Nat, (toString n).toList = digits n := fun n => by
    rw [Nat.toString_eq_ofList_toDigits, String.toList_ofList, digits]
  cases i with
  | ofNat n => exact natural n
  | negSucc n =>
      have spelled : (toString (Int.negSucc n)).toList = '-' :: (toString (n + 1)).toList :=
        String.toList_append
      rw [spelled, natural, decide_eq_true (Int.negSucc_lt_zero n)]
      rfl

theorem natAbs_of_sign (i : Int) :
    (if decide (i < 0) then -(i.natAbs : Int) else i.natAbs) = i := by
  by_cases negative : i < 0
  · rw [decide_eq_true negative, if_pos rfl]
    omega
  · rw [decide_eq_false negative, if_neg (by decide)]
    omega

/-- Digits do not begin with a zero that could be left out. -/
theorem digits_eq_zero (zero : (digits n).head? = some '0') : digits n = ['0'] := by
  by_cases none : n = 0
  · rw [none]
    rfl
  · exact absurd zero (head?_digits none)

/-- The exponent of the digit behind the last one counts the digits. -/
theorem leading_add_one (d : Decimal) :
    d.leading + 1 = (digits d.coefficient).length + d.exponent := by
  rw [leading]
  ring

theorem isDigits_append {s t : List Char} (here : IsDigits s) (more : ∀ c ∈ t, c.isDigit = true) :
    IsDigits (s ++ t) := by
  refine ⟨by simp [here.1], fun c member => ?_⟩
  rcases List.mem_append.mp member with member | member
  · exact here.2 c member
  · exact more c member

theorem isDigit_of_mem_replicate {c : Char} {k : Nat} (member : c ∈ List.replicate k '0') :
    c.isDigit = true := by
  rw [List.eq_of_mem_replicate member]
  rfl

/-- What the digits of a decimal denote, in positional notation. -/
structure Placed (d : Decimal) (whole fraction : List Char) : Prop where
  isDigits : IsDigits whole
  isDigits_fraction : IsDigits fraction
  noZero : whole.head? = some '0' → whole = ['0']
  length : (whole.length : ℤ) = max 1 (d.leading + 1)
  value : (digitsValue (whole ++ fraction) : ℚ) = size d * 10 ^ fraction.length

theorem size_mul {zeros places : Nat} (shift : (zeros : ℤ) = d.exponent + places) :
    ((d.coefficient * 10 ^ zeros : Nat) : ℚ) = size d * 10 ^ places := by
  rw [size, mul_assoc, ← zpow_natCast (10 : ℚ) places, ← zpow_add₀ (by norm_num), ← shift]
  push_cast
  rw [zpow_natCast]

/-- All digits stand behind the point. -/
theorem placed_behind (behind : d.leading + 1 ≤ 0) : ∃ whole fraction,
    NumberStyle.place true (digits d.coefficient) (d.leading + 1) = whole ++ '.' :: fraction ∧
      Placed d whole fraction := by
  have some := isDigits_digits d.coefficient
  have point := leading_add_one d
  refine ⟨['0'], List.replicate (-(d.leading + 1)).toNat '0' ++ digits d.coefficient, ?_, ?_⟩
  · simp [NumberStyle.place, Int.toNat_of_nonpos behind, some.1]
  · refine ⟨by simp [IsDigits], ⟨by simp [some.1], ?_⟩, fun _ => rfl, by simp; omega, ?_⟩
    · intro c member
      rcases List.mem_append.mp member with member | member
      · exact isDigit_of_mem_replicate member
      · exact some.2 c member
    · have scaled : digitsValue (['0'] ++ (List.replicate (-(d.leading + 1)).toNat '0' ++
          digits d.coefficient)) = d.coefficient * 10 ^ 0 := by
        rw [List.singleton_append, digitsValue_cons_zero, zeros_digitsValue, digitsValue_digits,
          pow_zero, mul_one]
      rw [scaled]
      refine size_mul ?_
      rw [List.length_append, List.length_replicate]
      omega

/-- The point stands between digits. -/
theorem placed_between (some : 0 < d.leading + 1)
    (more : d.leading + 1 < (digits d.coefficient).length) : ∃ whole fraction,
      NumberStyle.place true (digits d.coefficient) (d.leading + 1) = whole ++ '.' :: fraction ∧
        Placed d whole fraction := by
  have all := (isDigits_digits d.coefficient).2
  have point := leading_add_one d
  have value := digitsValue_digits d.coefficient
  have zero := digits_eq_zero (n := d.coefficient)
  generalize digits d.coefficient = ds at *
  have first : ds.take (d.leading + 1).toNat ≠ [] := by
    rw [← List.length_pos_iff, List.length_take]
    omega
  have last : ds.drop (d.leading + 1).toNat ≠ [] := by
    rw [← List.length_pos_iff, List.length_drop]
    omega
  refine ⟨ds.take (d.leading + 1).toNat, ds.drop (d.leading + 1).toNat, ?_, ?_⟩
  · have none : (-(d.leading + 1)).toNat = 0 := by omega
    have none' : (d.leading + 1).toNat - ds.length = 0 := by omega
    simp only [NumberStyle.place, List.isEmpty_eq_false_iff.mpr first,
      List.isEmpty_eq_false_iff.mpr last, none, none']
    simp
  · refine ⟨⟨first, fun c member => all c (List.mem_of_mem_take member)⟩,
      ⟨last, fun c member => all c (List.mem_of_mem_drop member)⟩, ?_, by simp; omega, ?_⟩
    · intro begins
      rw [List.head?_take, if_neg (by omega)] at begins
      rw [zero begins, List.length_singleton] at more
      omega
    · rw [List.take_append_drop, value, ← mul_one d.coefficient, ← pow_zero 10]
      refine size_mul ?_
      rw [List.length_drop]
      omega

/-- All digits stand in front of the point. -/
theorem placed_before (plain : d.coefficient = 0 → d.exponent = 0)
    (before : ((digits d.coefficient).length : ℤ) ≤ d.leading + 1) : ∃ whole fraction,
      NumberStyle.place true (digits d.coefficient) (d.leading + 1) = whole ++ '.' :: fraction ∧
        Placed d whole fraction := by
  have some := isDigits_digits d.coefficient
  have point := leading_add_one d
  have value := digitsValue_digits d.coefficient
  have head := head?_digits (n := d.coefficient)
  have zero := digits_eq_zero (n := d.coefficient)
  generalize digits d.coefficient = ds at *
  have length := List.length_pos_of_ne_nil some.1
  refine ⟨ds ++ List.replicate ((d.leading + 1).toNat - ds.length) '0', ['0'], ?_, ?_⟩
  · have all : ds.length ≤ (d.leading + 1).toNat := by omega
    simp [NumberStyle.place, List.take_of_length_le all, List.drop_eq_nil_of_le all, some.1]
  · refine ⟨isDigits_append some fun c => isDigit_of_mem_replicate, by simp [IsDigits], ?_, ?_, ?_⟩
    · intro begins
      rw [List.head?_append_of_ne_nil _ some.1] at begins
      have none : d.coefficient = 0 := by
        by_contra positive
        exact head positive begins
      have alone : (d.leading + 1).toNat - ds.length = 0 := by
        have := plain none
        omega
      rw [alone, List.replicate_zero, List.append_nil, zero begins]
    · simp
      omega
    · have scaled : digitsValue (ds ++ List.replicate ((d.leading + 1).toNat - ds.length) '0' ++
          ['0']) = d.coefficient * 10 ^ ((d.leading + 1).toNat - ds.length + 1) := by
        rw [List.append_assoc, ← List.replicate_succ', digitsValue_zeros, value]
      rw [scaled]
      refine size_mul ?_
      simp
      omega

/-- Positional notation, when a zero has no further digits. -/
theorem placed (plain : d.coefficient = 0 → d.exponent = 0) : ∃ whole fraction,
    NumberStyle.place true (digits d.coefficient) (d.leading + 1) = whole ++ '.' :: fraction ∧
      Placed d whole fraction := by
  obtain behind | ⟨some, more⟩ | before : d.leading + 1 ≤ 0 ∨
      (0 < d.leading + 1 ∧ d.leading + 1 < (digits d.coefficient).length) ∨
      ((digits d.coefficient).length : ℤ) ≤ d.leading + 1 := by omega
  · exact placed_behind behind
  · exact placed_between some more
  · exact placed_before plain before

/-- The exponent of scientific notation, with a sign. -/
def exponentText (exponent : Int) : List Char :=
  'e' :: (if exponent < 0 then '-' else '+') :: digits exponent.natAbs

/-- Scientific notation: a first digit, perhaps a point and further digits, and the exponent. -/
theorem scientific_eq (c : Char) (rest : List Char) (exponent : Int) :
    NumberStyle.scientific true (c :: rest) exponent =
      c :: ((if rest = [] then [] else '.' :: rest) ++ exponentText exponent) := by
  simp only [NumberStyle.scientific, exponentText]
  cases rest <;> by_cases negative : exponent < 0 <;> simp [negative]

end Decimal

end Mvc
