import Mvc.Json.Reader
import Mvc.Json.Writer
import Mvc.Proofs.Digits

/-! # Numbers in JSON come back

An integer comes back as it was. A double comes back as some double: its digits are read with two
more roundings, which for the two largest doubles have to be carried out to see that the result
stays finite.
-/

namespace Mvc.Json

open Binary64 (limit limit_lt le_topUnit topUnit isInfinite_mulMagnitude size_ofRatio)
open Decimal (digits exponentText)

variable {whole fraction ds s t rest : List Char} {negative : Bool} {significand : Nat}
  {exponent : Int} {d : Decimal}

/-! ## Scaling -/

/-- A significand and a power of ten whose product stays below the limit after two roundings. -/
theorem scale?_isSome
    (below : (significand * 10 ^ exponent * (1 + 1 / 2 ^ 53) ^ 2 : ℚ) < limit) :
    (scale? significand exponent).isSome = true := by
  simp only [scale?]
  split
  · rfl
  · next natural =>
      split
      · rfl
      · next positive =>
          have least : (1 : ℚ) ≤ significand := by exact_mod_cast Nat.pos_of_ne_zero positive
          obtain ⟨k, rfl⟩ := Int.eq_ofNat_of_zero_le (not_lt.mp natural)
          have least' : (1 : ℚ) ≤ 10 ^ k := one_le_pow₀ (by norm_num)
          rw [zpow_natCast] at below
          have product : (significand * 10 ^ k : ℚ) < limit := by nlinarith
          have first : (significand : ℚ) < limit := by nlinarith
          have second : (10 : ℚ) ^ k < limit := by nlinarith
          have small : k ≤ 308 := by
            by_contra! large
            have above : (10 : ℚ) ^ 309 ≤ 10 ^ k := pow_le_pow_right₀ (by norm_num) large
            exact absurd (second.trans limit_lt) (not_lt.mpr above)
          have finite : (Binary64.mulMagnitude (.ofRatio false significand 1)
              (.ofRatio false (Nat.pow 10 k) 1)).isInfinite = false := by
            have bound := size_ofRatio significand Nat.one_pos (by simpa using least)
              (by simpa using first)
            have bound' := size_ofRatio (Nat.pow 10 k) Nat.one_pos (by simpa using least')
              (by simpa using second)
            refine isInfinite_mulMagnitude (lt_of_le_of_lt ?_ below)
            rw [Nat.pow_eq] at bound'
            push_cast at bound bound'
            rw [div_one] at bound bound'
            calc _ ≤ (significand * (1 + 1 / 2 ^ 53) : ℚ) * (10 ^ k * (1 + 1 / 2 ^ 53)) :=
                  mul_le_mul bound bound' (by unfold Binary64.size; positivity) (by positivity)
              _ = significand * 10 ^ k * (1 + 1 / 2 ^ 53) ^ 2 := by ring
          rw [if_neg (by omega), Int.toNat_natCast, finite]
          rfl

theorem isSome_map_signed {x : Option Binary64} (there : x.isSome = true) :
    ∃ y, x.map (signed negative) = some (.float y) := by
  obtain ⟨x, rfl⟩ := Option.isSome_iff_exists.mp there
  exact ⟨_, rfl⟩

/-- A number with a few digits before its point. -/
theorem value?_of_short (negative : Bool) (short : whole.length ≤ 16) (fraction : List Char) :
    ∃ y, Numeral.value? ⟨negative, whole, some fraction, none⟩ = some (.float y) := by
  have fitted := (accumulate_le 0 whole).1
  have first := accumulate_lt (show 0 < Nat.pow 2 64 by decide) whole
  have second := accumulate_lt first fraction
  simp only [Numeral.value?, Option.isNone_some, Bool.false_eq_true, false_and, if_false,
    Option.getD_some, Option.getD_none]
  apply isSome_map_signed
  apply scale?_isSome
  generalize (accumulate 0 whole).2 = m at *
  generalize (accumulate (accumulate 0 whole).1 fraction).1 = n at *
  generalize (accumulate (accumulate 0 whole).1 fraction).2 = k at *
  have power : (10 : ℚ) ^ (((whole.length - m : Nat) : ℤ) - k + 0) ≤ 10 ^ (16 : ℤ) :=
    zpow_le_zpow_right₀ (by norm_num) (by omega)
  have bits : (n : ℚ) ≤ 2 ^ 64 := by exact_mod_cast second.le
  have unit := le_topUnit (e := 100) (by norm_num)
  calc _ ≤ (2 ^ 64 * 10 ^ (16 : ℤ) * (1 + 1 / 2 ^ 53) ^ 2 : ℚ) := by gcongr
    _ < (2 ^ 53 - 1 / 2) * 2 ^ (100 : ℤ) := by norm_num
    _ ≤ limit := mul_le_mul_of_nonneg_left unit (by norm_num)

/-- The parts of a number in scientific notation. -/
def scientific (negative : Bool) (d : Decimal) : Numeral :=
  ⟨negative, (digits d.coefficient).take 1,
    if (digits d.coefficient).drop 1 = [] then none else some ((digits d.coefficient).drop 1),
    some d.leading⟩

/-- A number in scientific notation that stays below the limit after two roundings. -/
theorem value?_scientific (below : Decimal.size d * (1 + 1 / 2 ^ 53) ^ 2 < limit) :
    ∃ y, (scientific negative d).value? = some (.float y) := by
  obtain ⟨c, rest, eq⟩ := List.exists_cons_of_ne_nil (Decimal.isDigits_digits d.coefficient).1
  have digit := (Decimal.isDigits_digits d.coefficient).2 c (by simp [eq])
  have value := digitsValue_digits d.coefficient
  have lead := Decimal.leading_add_one d
  rw [eq] at value lead
  have small : 0 * 10 ^ [c].length + digitsValue [c] < Nat.pow 2 64 := by
    have atMost : c.toNat ≤ 57 := by
      simp only [Char.isDigit, Bool.and_eq_true, decide_eq_true_eq] at digit
      exact UInt32.le_iff_toNat_le.mp digit.2
    simp only [digitsValue, List.foldl_cons, List.foldl_nil, Nat.pow_eq]
    omega
  have first := accumulate_of_fits small
  have whole : digitsValue [c] * 10 ^ rest.length + digitsValue rest = d.coefficient := by
    rw [← value, ← digitsValue_append, List.singleton_append]
  obtain ⟨fewer, atMost⟩ := accumulate_le (digitsValue [c]) rest
  rw [whole] at atMost
  have fraction : (if rest = [] then none else some rest).getD [] = rest := by
    split <;> simp_all
  simp only [Numeral.value?, scientific, eq, List.take_succ_cons, List.take_zero,
    List.drop_succ_cons, List.drop_zero, first, Option.isNone_some, Bool.false_eq_true, and_false,
    false_and, if_false, Nat.zero_mul, Nat.zero_add, fraction, Option.getD_some, Nat.sub_self]
  apply isSome_map_signed
  apply scale?_isSome
  -- Digits for which there is no room are left out, so no more than the coefficient is scaled.
  generalize (accumulate (digitsValue [c]) rest).1 = n at *
  generalize (accumulate (digitsValue [c]) rest).2 = k at *
  rw [List.length_cons] at lead
  have power : (10 : ℚ) ^ (((0 : Nat) : ℤ) - k + d.leading) =
      10 ^ (rest.length - k) * 10 ^ d.exponent := by
    rw [← zpow_natCast, ← zpow_add₀ (by norm_num)]
    congr 1
    omega
  have scaled : (n * 10 ^ (rest.length - k) : ℚ) ≤ d.coefficient := by exact_mod_cast atMost
  refine lt_of_le_of_lt ?_ below
  rw [power, Decimal.size, ← mul_assoc]
  gcongr

/-! ## Reading the digits -/

theorem digits1?_append (here : IsDigits ds) (stop : ∀ c ∈ rest.head?, c.isDigit = false) :
    digits1? (ds ++ rest) = some (ds, rest) := by
  simp [digits1?, takeWhile_append here.2 stop, dropWhile_append here.2 stop, here.1]

theorem fraction?_of_closes (closes : Closes rest) : fraction? rest = some (none, rest) := by
  cases rest with
  | nil => rfl
  | cons c rest =>
      have member := closes c rfl
      simp only [List.mem_cons, List.not_mem_nil, or_false] at member
      rcases member with rfl | rfl | rfl | rfl | rfl <;> rfl

theorem exponent?_of_closes (closes : Closes rest) : exponent? rest = some (none, rest) := by
  cases rest with
  | nil => rfl
  | cons c rest =>
      have member := closes c rfl
      simp only [List.mem_cons, List.not_mem_nil, or_false] at member
      rcases member with rfl | rfl | rfl | rfl | rfl <;> rfl

theorem exponent?_exponentText (exponent : Int) (closes : Closes rest) :
    exponent? (exponentText exponent ++ rest) = some (some exponent, rest) := by
  have read := digits1?_append (Decimal.isDigits_digits exponent.natAbs) (isDigit_of_closes closes)
  have value := digitsValue_digits exponent.natAbs
  by_cases negative : exponent < 0
  · simp [exponent?, exponentText, negative, read, value, -Nat.cast_natAbs]
    omega
  · simp [exponent?, exponentText, negative, read, value, -Nat.cast_natAbs]
    omega

theorem number?_append {f : Option (List Char)} {e : Option Int} (here : IsDigits whole)
    (noZero : whole.head? = some '0' → whole = ['0']) (stop : ∀ c ∈ s.head?, c.isDigit = false)
    (point : fraction? s = some (f, t)) (power : exponent? t = some (e, rest)) :
    number? negative (whole ++ s) =
      (Numeral.value? ⟨negative, whole, f, e⟩).map fun v => (v, rest) := by
  have plain : ¬(whole.head? = some '0' ∧ whole.length > 1) := by
    rintro ⟨first, long⟩
    simp [noZero first] at long
  simp only [number?, digits1?_append here stop, point, power, bind, Option.bind]
  rw [if_neg plain]
  cases Numeral.value? ⟨negative, whole, f, e⟩ <;> rfl

/-- A sign, if there is one, and digits. -/
theorem value?_signed (depth : Nat) (negative : Bool) (here : IsDigits whole) (s : List Char) :
    value? depth ((if negative then ['-'] else []) ++ (whole ++ s)) =
      number? negative (whole ++ s) := by
  obtain ⟨c, more, rfl⟩ := List.exists_cons_of_ne_nil here.1
  have digit := here.2 c (by simp)
  cases negative with
  | true =>
      simp [value?, skipBlanks, isBlank]
  | false =>
      have blank : isBlank c = false := by
        simp [isBlank]
        refine ⟨⟨⟨?_, ?_⟩, ?_⟩, ?_⟩ <;> rintro rfl <;> cases digit
      simp only [Bool.false_eq_true, if_false, List.nil_append, List.cons_append, value?,
        skipBlanks, List.dropWhile_cons, blank]
      split <;> simp_all

/-! ## Integers -/

theorem value?_digits (negative : Bool) (n depth : Nat) (closes : Closes rest) :
    value? depth ((if negative then ['-'] else []) ++ (digits n ++ rest)) =
      (Numeral.value? ⟨negative, digits n, none, none⟩).map fun v => (v, rest) := by
  rw [value?_signed depth negative (Decimal.isDigits_digits n), number?_append
    (Decimal.isDigits_digits n) Decimal.digits_eq_zero (isDigit_of_closes closes)
    (fraction?_of_closes closes) (exponent?_of_closes closes)]

theorem accumulate_digits {n : Nat} (small : n < Nat.pow 2 64) :
    accumulate 0 (digits n) = (n, (digits n).length) := by
  have value := digitsValue_digits n
  have fits : 0 * 10 ^ (digits n).length + digitsValue (digits n) < Nat.pow 2 64 := by
    simpa [value] using small
  have all := accumulate_of_fits fits
  simpa [value] using all

/-- The digits of an integer, behind its sign, denote it. -/
theorem value?_toInt (i : Int64) : Numeral.value?
    ⟨decide (i.toInt < 0), digits i.toInt.natAbs, none, none⟩ = some (.integer i) := by
  have below := Int64.toInt_lt i
  have above := Int64.le_toInt i
  have same := Int64.ofInt_toInt i
  have fitted := accumulate_digits (n := i.toInt.natAbs) (by simp only [Nat.pow_eq]; omega)
  simp only [Numeral.value?, fitted, Nat.pow_eq]
  rw [if_pos ⟨rfl, rfl, trivial⟩]
  by_cases negative : i.toInt < 0
  · rw [if_neg (by simp [negative]), if_pos (by simp [negative]; omega)]
    rw [show -(i.toInt.natAbs : Int) = i.toInt by omega, same]
  · rw [if_pos (by simp [negative]; omega), show (i.toInt.natAbs : Int) = i.toInt by omega, same]

/-- An integer comes back. -/
theorem value?_integer (depth : Nat) (i : Int64) (closes : Closes rest) :
    value? depth ((toString i.toInt).toList ++ rest) = some (.integer i, rest) := by
  rw [Decimal.toList_toString, List.append_assoc, value?_digits _ _ depth closes, value?_toInt]
  rfl

/-! ## Doubles -/

/-- A number in positional notation with a point. -/
theorem value?_placed (negative : Bool) {fraction : List Char}
    (placed : Decimal.Placed d whole fraction) (short : d.leading < 16) :
    ∃ y, ∀ depth rest, Closes rest →
      value? depth ((if negative then ['-'] else []) ++ (whole ++ '.' :: fraction) ++ rest) =
        some (.float y, rest) := by
  have length := placed.length
  obtain ⟨y, number⟩ := value?_of_short negative (show whole.length ≤ 16 by omega) fraction
  refine ⟨y, fun depth rest closes => ?_⟩
  have point : fraction? ('.' :: (fraction ++ rest)) = some (some fraction, rest) := by
    rw [fraction?, digits1?_append placed.isDigits_fraction (isDigit_of_closes closes)]
    rfl
  rw [List.append_assoc, List.append_assoc, List.cons_append, value?_signed depth negative
    placed.isDigits, number?_append placed.isDigits placed.noZero (by simp) point
    (exponent?_of_closes closes), number]
  rfl

/-- A number in scientific notation. -/
theorem value?_scientificText
    (fits : ∃ y, (scientific negative d).value? = some (.float y)) :
    ∃ y, ∀ depth rest, Closes rest →
      value? depth ((if negative then ['-'] else []) ++
          NumberStyle.scientific true (digits d.coefficient) d.leading ++ rest) =
        some (.float y, rest) := by
  obtain ⟨y, number⟩ := fits
  refine ⟨y, fun depth rest closes => ?_⟩
  have here := Decimal.isDigits_digits d.coefficient
  obtain ⟨c, more, eq⟩ := List.exists_cons_of_ne_nil here.1
  simp only [scientific, eq, List.take_succ_cons, List.take_zero, List.drop_succ_cons,
    List.drop_zero] at number
  rw [eq] at here
  have first : IsDigits [c] := ⟨by simp, by simpa using here.2 c (by simp)⟩
  have power := exponent?_exponentText d.leading closes
  rw [eq, Decimal.scientific_eq, List.append_assoc]
  have text := value?_signed depth negative first
    ((if more = [] then [] else '.' :: more) ++ exponentText d.leading ++ rest)
  refine text.trans ?_
  by_cases none : more = []
  · rw [if_pos none] at number ⊢
    have point : fraction? (exponentText d.leading ++ rest) =
        some (.none, exponentText d.leading ++ rest) := rfl
    rw [List.nil_append, number?_append first (fun _ => by simp_all) (by simp [exponentText])
      point power, number]
    rfl
  · rw [if_neg none] at number ⊢
    have point : fraction? ('.' :: more ++ exponentText d.leading ++ rest) =
        some (some more, exponentText d.leading ++ rest) := by
      rw [List.append_assoc, List.cons_append, fraction?, digits1?_append ⟨none, fun c' member =>
        here.2 c' (by simp [member])⟩ (by simp [exponentText])]
      rfl
    rw [number?_append first (fun _ => by simp_all) (by simp) point power, number]
    rfl

theorem value?_null (depth : Nat) (rest : List Char) :
    value? depth ("null".toList ++ rest) = some (.null, rest) := by
  simp [value?, skipBlanks, isBlank]

theorem exists_float {v : Option Value} (kind : v.map Value.kind = some .float) :
    ∃ y, v = some (.float y) := by
  rcases v with - | v
  · cases kind
  · cases v <;> first | exact ⟨_, rfl⟩ | cases kind

/-- For the two largest doubles the roundings are carried out. -/
theorem value?_largest {significand : Nat} (small : significand < 2 ^ 53)
    (last : 2 ^ 53 - 2 ≤ significand) :
    ∃ y, (scientific negative (Decimal.shortest .toEven significand 971)).value? =
      some (.float y) := by
  apply exists_float
  obtain rfl | rfl : significand = 2 ^ 53 - 2 ∨ significand = 2 ^ 53 - 1 := by omega
  · cases negative <;> decide +kernel
  · cases negative <;> decide +kernel

/-- Numbers of moderate size have their point in place. -/
theorem number_decimal (d : Decimal) : number.decimal d =
    if d.coefficient = 0 ∨ -5 ≤ d.leading ∧ d.leading < 16 then
      NumberStyle.place true (digits d.coefficient) (d.leading + 1)
    else NumberStyle.scientific true (digits d.coefficient) d.leading := by
  simp [NumberStyle.decimal, number]

/-- The text of a double denotes one value, wherever it stands: a double, or `null`. -/
theorem value?_double (x : Binary64) : ∃ v, (v = .null ∨ ∃ y, v = .float y) ∧ ∀ depth rest,
    Closes rest → value? depth ((number.render x).toList ++ rest) = some (v, rest) := by
  cases eq : x.read with
  | nan =>
      refine ⟨.null, .inl rfl, fun depth rest _ => ?_⟩
      rw [NumberStyle.render, eq]
      exact value?_null depth rest
  | infinite negative =>
      refine ⟨.null, .inl rfl, fun depth rest _ => ?_⟩
      rw [NumberStyle.render, eq]
      cases negative <;> exact value?_null depth rest
  | finite negative significand exponent =>
      obtain ⟨small, finite⟩ := Binary64.finite_bounds eq
      have plain := Decimal.shortest_plain .toEven significand exponent
      have zero := Decimal.leading_add_one (Decimal.shortest .toEven significand exponent)
      rw [NumberStyle.render, eq]
      simp only [String.toList_ofList]
      rw [number_decimal, show number.tie = .toEven from rfl]
      by_cases positional : (Decimal.shortest .toEven significand exponent).coefficient = 0 ∨
          -5 ≤ (Decimal.shortest .toEven significand exponent).leading ∧
          (Decimal.shortest .toEven significand exponent).leading < 16
      · obtain ⟨whole, fraction, text, placed⟩ := Decimal.placed plain
        have short : (Decimal.shortest .toEven significand exponent).leading < 16 := by
          rcases positional with none | ⟨-, short⟩
          · rw [none, plain none] at zero
            have : (digits 0).length = 1 := rfl
            omega
          · exact short
        obtain ⟨y, read⟩ := value?_placed negative placed short
        rw [if_pos positional, text]
        exact ⟨_, .inr ⟨_, rfl⟩, read⟩
      · have fits : ∃ y,
            (scientific negative (Decimal.shortest .toEven significand exponent)).value? =
              some (.float y) := by
          -- The bound leaves out the two largest doubles, whose digits are read one by one.
          by_cases largest : exponent = 971 ∧ 2 ^ 53 - 2 ≤ significand
          · exact largest.1 ▸ value?_largest small largest.2
          · refine value?_scientific (Decimal.size_shortest_mul_lt small finite ?_)
            omega
        obtain ⟨y, read⟩ := value?_scientificText fits
        rw [if_neg positional]
        exact ⟨_, .inr ⟨_, rfl⟩, read⟩

/-- What a double comes back as. -/
def rereadDouble (x : Binary64) : Value :=
  ((value? 0 (number.render x).toList).map (·.1)).getD .null

theorem value?_render (depth : Nat) (x : Binary64) (closes : Closes rest) :
    value? depth ((number.render x).toList ++ rest) = some (rereadDouble x, rest) := by
  obtain ⟨v, -, read⟩ := value?_double x
  have alone := read 0 [] closes_nil
  rw [List.append_nil] at alone
  rw [read depth rest closes, rereadDouble, alone]
  rfl

theorem rereadDouble_cases (x : Binary64) :
    rereadDouble x = .null ∨ ∃ y, rereadDouble x = .float y := by
  obtain ⟨v, kind, read⟩ := value?_double x
  have alone := read 0 [] closes_nil
  rw [value?_render 0 x closes_nil] at alone
  cases alone
  exact kind

end Mvc.Json
