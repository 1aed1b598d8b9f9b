import Mvc.Proofs.Digits
import Mvc.Toml.Reader
import Mvc.Toml.Writer

/-! # Numbers in TOML come back

An integer comes back as it was, and a double as a double. All numbers are written in positional
notation, so none of them looks like a date or a time, and the shortest decimal of a finite double
is rounded once.
-/

namespace Mvc

namespace Rfc3339

variable {s t : List Char} {n count value : Nat}

theorem isDigit_of_digit? {c : Char} (read : digit? c = some n) : c.isDigit = true := by
  simp only [digit?] at read
  split at read
  · next here =>
      simp only [Char.isDigit, Bool.and_eq_true, decide_eq_true_eq]
      exact here
  · cases read

/-- What is read as digits are digits. -/
theorem exists_of_digitsAfter? (read : digitsAfter? value count s = some (n, t)) :
    ∃ digits, s = digits ++ t ∧ digits.length = count ∧ ∀ c ∈ digits, c.isDigit = true := by
  induction count generalizing s value with
  | zero =>
      cases read
      exact ⟨[], by simp⟩
  | succ count ih =>
      cases s with
      | nil => cases read
      | cons c s =>
          simp only [digitsAfter?, bind, Option.bind] at read
          cases first : digit? c with
          | none => simp [first] at read
          | some d =>
              rw [first] at read
              obtain ⟨digits, rfl, length, all⟩ := ih read
              refine ⟨c :: digits, rfl, by simp [length], ?_⟩
              simp only [List.mem_cons, forall_eq_or_imp]
              exact ⟨isDigit_of_digit? first, all⟩

end Rfc3339

namespace Toml

open Decimal (digits)

variable {c : Char} {s t rest whole fraction ds : List Char} {negative : Bool} {n : Nat}

/-! ## Neither a date nor a time -/

theorem beginsDate_digits (all : ∀ c ∈ ds, c.isDigit = true)
    (stop : ∀ c ∈ rest.head?, c.isDigit = false ∧ c ≠ '-') : beginsDate (ds ++ rest) = false := by
  rw [beginsDate]
  split
  · next n t read =>
      obtain ⟨digits, eq, -, all'⟩ := Rfc3339.exists_of_digitsAfter? read
      have cut := congrArg (List.dropWhile Char.isDigit) eq
      rw [dropWhile_append all fun c here => (stop c here).1,
        dropWhile_append all' (by simp)] at cut
      exact absurd rfl (stop '-' (by simp [cut])).2
  · rfl

theorem beginsTime_digits (all : ∀ c ∈ ds, c.isDigit = true)
    (stop : ∀ c ∈ rest.head?, c.isDigit = false ∧ c ≠ ':') : beginsTime (ds ++ rest) = false := by
  rw [beginsTime]
  split
  · next n t read =>
      simp only [twoDigits?] at read
      split at read
      · next n' t' read' =>
          split at read
          · cases read
            obtain ⟨digits, eq, -, all'⟩ := Rfc3339.exists_of_digitsAfter? read'
            have cut := congrArg (List.dropWhile Char.isDigit) eq
            rw [dropWhile_append all fun c here => (stop c here).1,
              dropWhile_append all' (by simp)] at cut
            exact absurd rfl (stop ':' (by simp [cut])).2
          · cases read
      · cases read
  · rfl

theorem begins_cons (noDigit : Rfc3339.digit? c = none) (s : List Char) :
    (beginsDate (c :: s) || beginsTime (c :: s)) = false := by
  simp [beginsDate, beginsTime, twoDigits?, Rfc3339.digits?, Rfc3339.digitsAfter?, noDigit]

/-! ## Digits -/

theorem moreDigits?_append (all : ∀ c ∈ ds, c.isDigit = true)
    (stop : ∀ c ∈ rest.head?, c.isDigit = false ∧ c ≠ '_') :
    moreDigits? Char.isDigit (ds ++ rest) = some (ds, rest) := by
  induction ds with
  | nil =>
      cases rest with
      | nil => rfl
      | cons c rest =>
          obtain ⟨noDigit, noMark⟩ := stop c rfl
          rw [List.nil_append, moreDigits?.eq_def]
          split <;> simp_all
  | cons c ds ih =>
      simp only [List.mem_cons, forall_eq_or_imp] at all
      have noMark : c ≠ '_' := by
        rintro rfl
        cases all.1
      rw [List.cons_append, moreDigits?.eq_def]
      split <;> simp_all

theorem digits?_append (here : IsDigits ds)
    (stop : ∀ c ∈ rest.head?, c.isDigit = false ∧ c ≠ '_') :
    digits? Char.isDigit (ds ++ rest) = some (ds, rest) := by
  obtain ⟨c, more, rfl⟩ := List.exists_cons_of_ne_nil here.1
  have first := here.2 c (by simp)
  have more' : ∀ d ∈ more, d.isDigit = true := fun d member => here.2 d (by simp [member])
  simp [digits?, first, moreDigits?_append more' stop]

theorem sign_append (negative : Bool) (here : IsDigits whole) (s : List Char) :
    sign ((if negative then ['-'] else []) ++ (whole ++ s)) = (negative, whole ++ s) := by
  obtain ⟨c, more, rfl⟩ := List.exists_cons_of_ne_nil here.1
  have digit := here.2 c (by simp)
  cases negative with
  | true => rfl
  | false =>
      simp only [Bool.false_eq_true, if_false, List.nil_append, List.cons_append]
      rw [sign.eq_def]
      split <;> simp_all

theorem decimal?_append (negative : Bool) {f : Option (List Char)} {e : Option Int}
    (here : IsDigits whole) (noZero : whole.head? = some '0' → whole = ['0'])
    (stop : ∀ c ∈ s.head?, c.isDigit = false ∧ c ≠ '_')
    (point : fraction? s = some (f, t)) (power : exponent? t = some (e, rest)) :
    decimal? ((if negative then ['-'] else []) ++ (whole ++ s)) =
      if f.isNone ∧ e.isNone then
        (integer? (if negative then -(Json.digitsValue whole : Int) else Json.digitsValue whole)).map
          fun v => (v, rest)
      else (float? negative whole (f.getD []) (e.getD 0)).map fun v => (v, rest) := by
  simp only [decimal?, sign_append negative here s]
  split
  · next eq =>
      obtain ⟨c, more, rfl⟩ := List.exists_cons_of_ne_nil here.1
      have digit := here.2 c (by simp)
      simp_all
  · next eq =>
      obtain ⟨c, more, rfl⟩ := List.exists_cons_of_ne_nil here.1
      have digit := here.2 c (by simp)
      simp_all
  · split
    · next zero =>
        obtain ⟨c, more, rfl⟩ := List.exists_cons_of_ne_nil here.1
        simp only [List.cons_append, List.cons.injEq] at zero
        obtain ⟨rfl, rfl⟩ := zero
        have alone := noZero rfl
        simp only [List.cons.injEq, true_and] at alone
        subst alone
        simp only [List.nil_append, point, power, Option.pure_def, Option.bind_eq_bind,
          Option.bind_some, Option.map_eq_bind, Function.comp_def]
    · simp only [digits?_append here stop, point, power, Option.pure_def, Option.bind_eq_bind,
        Option.bind_some, Option.map_eq_bind, Function.comp_def]

/-- What may follow the digits before the point of a number that is written. -/
def Stops (s : List Char) : Prop := ∀ c ∈ s.head?, c ∈ ['.', ',', ']', '\x7d', ' ', '\n']

theorem stops_of_closes (closes : Closes s) : Stops s :=
  fun c here => List.mem_cons_of_mem _ (closes c here)

theorem stops_point (s : List Char) : Stops ('.' :: s) := by simp [Stops]

theorem ne_of_stops (stops : Stops s) : ∀ c ∈ s.head?, c.isDigit = false ∧
    c ∉ ['_', '-', ':', 'x', 'o', 'b', 'e', 'E'] := by
  intro c here
  have member := stops c here
  simp only [List.mem_cons, List.not_mem_nil, or_false] at member
  rcases member with rfl | rfl | rfl | rfl | rfl | rfl <;> decide

theorem number?_eq_decimal? (negative : Bool) (here : IsDigits whole)
    (noZero : whole.head? = some '0' → whole = ['0']) (stops : Stops s) :
    number? ((if negative then ['-'] else []) ++ (whole ++ s)) =
      decimal? ((if negative then ['-'] else []) ++ (whole ++ s)) := by
  obtain ⟨c, more, rfl⟩ := List.exists_cons_of_ne_nil here.1
  have marks := ne_of_stops stops
  rw [number?.eq_def]
  split
  · cases negative <;> simp_all
  · cases negative <;> simp_all
  · cases negative <;> simp_all
  · rfl

/-- Digits, with a sign if there is one, are read as a number. -/
theorem value?_signed (depth : Nat) (negative : Bool) (here : IsDigits whole)
    (noZero : whole.head? = some '0' → whole = ['0']) (stops : Stops s) :
    value? depth ((if negative then ['-'] else []) ++ (whole ++ s)) =
      decimal? ((if negative then ['-'] else []) ++ (whole ++ s)) := by
  have marks := ne_of_stops stops
  have noMoment : (beginsDate ((if negative then ['-'] else []) ++ (whole ++ s)) ||
      beginsTime ((if negative then ['-'] else []) ++ (whole ++ s))) = false := by
    cases negative with
    | true => exact begins_cons (by decide) _
    | false =>
        rw [if_neg (by decide), List.nil_append, Bool.or_eq_false_iff]
        constructor
        · refine beginsDate_digits here.2 fun c first => ⟨(marks c first).1, ?_⟩
          rintro rfl
          exact (marks '-' first).2 (by simp)
        · refine beginsTime_digits here.2 fun c first => ⟨(marks c first).1, ?_⟩
          rintro rfl
          exact (marks ':' first).2 (by simp)
  rw [← number?_eq_decimal? negative here noZero stops]
  obtain ⟨c, more, rfl⟩ := List.exists_cons_of_ne_nil here.1
  have digit := here.2 c (by simp)
  unfold value?
  split
  · cases negative <;> simp_all
  · cases negative <;> simp_all
  · cases negative <;> simp_all
  · cases negative <;> simp_all
  · cases negative <;> simp_all
  · cases negative <;> simp_all
  · rw [noMoment]
    rfl

theorem fraction?_of_closes (closes : Closes rest) : fraction? rest = some (none, rest) := by
  cases rest with
  | nil => rfl
  | cons c rest =>
      have member := closes c rfl
      simp only [List.mem_cons, List.not_mem_nil, or_false] at member
      rcases member with rfl | rfl | rfl | rfl | rfl <;> rfl

theorem exponent?_of_closes (closes : Closes rest) : exponent? rest = some (none, rest) := by
  cases rest with
  | nil => rfl
  | cons c rest =>
      have member := closes c rfl
      simp only [List.mem_cons, List.not_mem_nil, or_false] at member
      rcases member with rfl | rfl | rfl | rfl | rfl <;> rfl

/-! ## Integers -/

theorem value?_digits (negative : Bool) (n depth : Nat) (closes : Closes rest) :
    value? depth ((if negative then ['-'] else []) ++ (digits n ++ rest)) =
      (integer? (if negative then -(n : Int) else n)).map fun v => (v, rest) := by
  have here := Decimal.isDigits_digits n
  have stops := stops_of_closes closes
  have marks := ne_of_stops stops
  rw [value?_signed depth negative here Decimal.digits_eq_zero stops,
    decimal?_append negative here Decimal.digits_eq_zero _ (fraction?_of_closes closes)
    (exponent?_of_closes closes), if_pos ⟨rfl, rfl⟩, Json.digitsValue_digits]
  intro c first
  refine ⟨(marks c first).1, ?_⟩
  rintro rfl
  exact (marks '_' first).2 (by simp)

theorem integer?_toInt (i : Int64) : integer? i.toInt = some (.integer i) := by
  have below : i.toInt ≤ Int64.maxValue.toInt := Int64.toInt_le i
  have above : Int64.minValue.toInt ≤ i.toInt := Int64.le_toInt i
  rw [integer?, if_pos ⟨above, below⟩, Int64.ofInt_toInt]

/-- An integer comes back. -/
theorem value?_integer (depth : Nat) (i : Int64) (closes : Closes rest) :
    value? depth ((toString i.toInt).toList ++ rest) = some (.integer i, rest) := by
  rw [Decimal.toList_toString, List.append_assoc, value?_digits _ _ depth closes,
    Decimal.natAbs_of_sign, integer?_toInt]
  rfl

/-! ## Doubles -/

/-- The decimal that stands in a text is rounded once. -/
theorem float?_placed (negative : Bool) {d : Decimal} (placed : Decimal.Placed d whole fraction)
    (below : Decimal.size d < Binary64.limit) :
    ∃ y, float? negative whole fraction 0 = some (.float y) := by
  have power : max (-(exponentBound (whole.length + fraction.length) : Int))
      (min (exponentBound (whole.length + fraction.length)) 0) - fraction.length =
        -(fraction.length : Int) := by omega
  have finite : (Binary64.ofDecimal negative (Json.digitsValue (whole ++ fraction))
      (-(fraction.length : Int))).isInfinite = false := by
    apply Binary64.isInfinite_ofRatio (Nat.pow_pos (by decide))
    have scale : (10 : ℚ) ^ fraction.length ≠ 0 := by positivity
    rw [Int.toNat_of_nonpos (by omega), neg_neg, Int.toNat_natCast]
    simp only [Nat.pow_eq, pow_zero, mul_one]
    rw [placed.value]
    push_cast
    rwa [mul_div_assoc, div_self scale, mul_one]
  refine ⟨Binary64.ofDecimal negative (Json.digitsValue (whole ++ fraction))
    (-(fraction.length : Int)), ?_⟩
  simp only [float?, power, finite]
  rfl

theorem value?_placed (negative : Bool) {d : Decimal} (placed : Decimal.Placed d whole fraction)
    (below : Decimal.size d < Binary64.limit) : ∃ y, ∀ depth rest, Closes rest →
      value? depth ((if negative then ['-'] else []) ++ (whole ++ '.' :: fraction) ++ rest) =
        some (.float y, rest) := by
  obtain ⟨y, number⟩ := float?_placed negative placed below
  refine ⟨y, fun depth rest closes => ?_⟩
  have stop : ∀ c ∈ rest.head?, c.isDigit = false ∧ c ≠ '_' := by
    intro c first
    obtain ⟨noDigit, marks⟩ := ne_of_stops (stops_of_closes closes) c first
    refine ⟨noDigit, ?_⟩
    rintro rfl
    exact marks (by simp)
  have point : fraction? ('.' :: (fraction ++ rest)) = some (some fraction, rest) := by
    rw [fraction?, digits?_append placed.isDigits_fraction stop]
    rfl
  rw [List.append_assoc, List.append_assoc, List.cons_append, value?_signed depth negative
    placed.isDigits placed.noZero (stops_point _), decimal?_append negative placed.isDigits
    placed.noZero (by simp) point (exponent?_of_closes closes), if_neg (by simp)]
  simp [number]

theorem value?_notFinite (depth : Nat) (rest : List Char) :
    value? depth ("nan".toList ++ rest) = some (.float (nan false), rest) ∧
      value? depth ("inf".toList ++ rest) = some (.float (.infinity false), rest) ∧
      value? depth ("-inf".toList ++ rest) = some (.float (.infinity true), rest) := by
  refine ⟨?_, ?_, ?_⟩ <;>
    simp [value?, beginsDate, beginsTime, twoDigits?, Rfc3339.digits?, Rfc3339.digitsAfter?,
      Rfc3339.digit?, number?, decimal?, sign]

theorem number_decimal (d : Decimal) :
    number.decimal d = NumberStyle.place true (digits d.coefficient) (d.leading + 1) := by
  simp [NumberStyle.decimal, number]

/-- The text of a double denotes a double, wherever it stands. -/
theorem value?_double (x : Binary64) : ∃ y, ∀ depth rest, Closes rest →
    value? depth ((number.render x).toList ++ rest) = some (.float y, rest) := by
  cases eq : x.read with
  | nan =>
      refine ⟨nan false, fun depth rest _ => ?_⟩
      rw [NumberStyle.render, eq]
      exact (value?_notFinite depth rest).1
  | infinite negative =>
      cases negative with
      | true =>
          refine ⟨.infinity true, fun depth rest _ => ?_⟩
          rw [NumberStyle.render, eq]
          exact (value?_notFinite depth rest).2.2
      | false =>
          refine ⟨.infinity false, fun depth rest _ => ?_⟩
          rw [NumberStyle.render, eq]
          exact (value?_notFinite depth rest).2.1
  | finite negative significand exponent =>
      obtain ⟨small, finite⟩ := Binary64.finite_bounds eq
      have plain := Decimal.shortest_plain .away significand exponent
      obtain ⟨whole, fraction, text, placed⟩ := Decimal.placed plain
      obtain ⟨y, read⟩ := value?_placed negative placed (Decimal.size_shortest_lt small finite)
      rw [NumberStyle.render, eq]
      simp only [String.toList_ofList]
      rw [number_decimal, show number.tie = .away from rfl, text]
      exact ⟨y, read⟩

/-- What a double comes back as. -/
def rereadDouble (x : Binary64) : Value :=
  ((value? 0 (number.render x).toList).map (·.1)).getD .null

theorem value?_render (depth : Nat) (x : Binary64) (closes : Closes rest) :
    value? depth ((number.render x).toList ++ rest) = some (rereadDouble x, rest) := by
  obtain ⟨y, read⟩ := value?_double x
  have alone := read 0 [] closes_nil
  rw [List.append_nil] at alone
  rw [read depth rest closes, rereadDouble, alone]
  rfl

/-- A double comes back as a double. -/
theorem rereadDouble_float (x : Binary64) : ∃ y, rereadDouble x = .float y := by
  obtain ⟨y, read⟩ := value?_double x
  have alone := read 0 [] closes_nil
  rw [value?_render 0 x closes_nil] at alone
  exact ⟨y, by simpa using alone⟩

end Toml

end Mvc
