import Mathlib.Data.Nat.Digits.Lemmas
import Mathlib.Tactic.IntervalCases
import Mvc.Proofs.JsonText
import Mvc.Time.Date

/-! # Timestamps as text come back

A day and its date determine each other. Both are given by the day's place: an era of 400 years, a
century of it, four years of that, a year of these and a day of the year, where years begin in
March. Every fourth year has a day more, unless it is the last of a century; but the last century
of an era has that day, too.

The text of an instant has its parts one after the other, each with as many digits as it is read
with, so the parts are read back, and by the calendar they denote the instant. Only a year of more
than four digits or below zero has a sign, and no year is read that has one. A timestamp that is
stored as JSON is read as such a text, and the text as the timestamp (`timestamp_comes_back`).
-/

namespace Mvc

/-! ## The calendar -/

/-- A place in the calendar. -/
structure Place where
  era : Int
  century : Nat
  four : Nat
  year : Nat
  day : Nat
  century_le : century ≤ 3
  four_le : four ≤ 24
  year_le : year ≤ 3
  day_le : day ≤ 365
  leap : day = 365 → year = 3 ∧ (four = 24 → century = 3)

namespace Place

/-- The number of days from 1 January 1970 to a place. -/
def days (p : Place) : Int :=
  146097 * p.era + 36524 * p.century + 1461 * p.four + 365 * p.year + p.day - 719468

/-- The calendar year in which the year of a place begins. -/
def march (p : Place) : Int := 400 * p.era + 100 * p.century + 4 * p.four + p.year

/-- The month of a place, from March, which is month 0. -/
def month (p : Place) : Nat := (5 * p.day + 2) / 153

/-- The date at a place. -/
def date (p : Place) : Date where
  year := if p.month < 10 then p.march else p.march + 1
  month := if p.month < 10 then p.month + 3 else p.month - 9
  day := p.day - Date.monthStart p.month + 1

theorem exists_of_days (days : Int) : ∃ p : Place, p.days = days := by
  -- A quotient that would stand for the day that an era or four years have more is one too large.
  obtain ⟨e, inEra⟩ : ∃ e : Nat, (days + 719468) % 146097 = e :=
    ⟨((days + 719468) % 146097).toNat, by omega⟩
  obtain ⟨c, inCentury, century, days_eq, short⟩ : ∃ c c' : Nat, c ≤ 3 ∧ e = 36524 * c + c' ∧
      c' ≤ 36524 ∧ (c' = 36524 → c = 3) :=
    ⟨min (e / 36524) 3, e - 36524 * min (e / 36524) 3, by omega⟩
  obtain ⟨q, inFour, four, century_eq, short'⟩ : ∃ q q' : Nat, q ≤ 24 ∧
      inCentury = 1461 * q + q' ∧ q' ≤ 1460 ∧ (q' = 1460 → q = 24 → c = 3) :=
    ⟨inCentury / 1461, inCentury % 1461, by omega⟩
  obtain ⟨r, day, year, four_eq, short''⟩ : ∃ r day : Nat, r ≤ 3 ∧ inFour = 365 * r + day ∧
      day ≤ 365 ∧ (day = 365 → r = 3) :=
    ⟨min (inFour / 365) 3, inFour - 365 * min (inFour / 365) 3, by omega⟩
  refine ⟨⟨(days + 719468) / 146097, c, q, r, day, century, four, year, short''.1, ?_⟩, ?_⟩
  · omega
  · simp only [Place.days]
    omega

variable (p : Place)

theorem month_lt : p.month < 12 := by
  have := p.day_le
  simp only [month]
  omega

theorem monthStart_month_le : Date.monthStart p.month ≤ p.day := by
  simp only [Date.monthStart, month]
  omega

/-- The year of an era is found by leaving out the leap days before a day. -/
theorem yearOfEra_eq (e : Nat)
    (inEra : e = 36524 * p.century + 1461 * p.four + 365 * p.year + p.day) :
    (e - e / 1460 + e / 36524 - e / 146096) / 365 = 100 * p.century + 4 * p.four + p.year := by
  obtain ⟨era, c, q, r, d, hc, hq, hr, hd, leap⟩ := p
  dsimp only at inEra ⊢
  -- `e / 1460` counts the leap day of the four years if the day lies late in these.
  obtain ⟨late, leaps, early, later⟩ : ∃ late : Nat, e / 1460 = 25 * c + q + late ∧
      (late = 0 → d < 365) ∧ (late = 1 → 0 < d) ∧ late ≤ 1 := by
    rcases Nat.lt_or_ge (24 * c + q + 365 * r + d) 1460 with early | later
    · exact ⟨0, by omega, by omega, by omega⟩
    · exact ⟨1, by omega, by omega, by omega⟩
  by_cases last : e = 146096
  · subst last
    omega
  · have centuries : e / 36524 = c := by omega
    have eras : e / 146096 = 0 := by omega
    have years : e - (25 * c + q + late) + c - 0 = 365 * (100 * c + 4 * q + r) + (d - late) := by
      omega
    have within : d - late < 365 := by omega
    rw [leaps, centuries, eras, years]
    omega

/-- The date that is computed for a day is the one at its place. -/
theorem ofDays_days : Date.ofDays p.days = p.date := by
  have yearOfEra := p.yearOfEra_eq _ rfl
  have := p.century_le
  have := p.four_le
  have := p.year_le
  have := p.day_le
  have := p.leap
  have era : (p.days + 719468) / 146097 = p.era := by
    simp only [days]
    omega
  have dayOfEra : ((p.days + 719468) % 146097).toNat =
      36524 * p.century + 1461 * p.four + 365 * p.year + p.day := by
    simp only [days]
    omega
  have dayOfYear : 36524 * p.century + 1461 * p.four + 365 * p.year + p.day -
      (365 * (100 * p.century + 4 * p.four + p.year) + (100 * p.century + 4 * p.four + p.year) / 4 -
        (100 * p.century + 4 * p.four + p.year) / 100) = p.day := by omega
  have march : p.era * 400 + (100 * p.century + 4 * p.four + p.year : Nat) = p.march := by
    simp only [Place.march]
    omega
  simp only [Date.ofDays, era, dayOfEra, yearOfEra, dayOfYear, march]
  rfl

theorem toDays_date : p.date.toDays = p.days := by
  have := p.month_lt
  have year : (if p.date.month ≤ 2 then p.date.year - 1 else p.date.year) = p.march := by
    simp only [date]
    split <;> split <;> omega
  have month : (p.date.month + 9) % 12 = p.month := by
    simp only [date]
    split <;> omega
  have day : Date.monthStart p.month + p.date.day = p.day + 1 := by
    have := p.monthStart_month_le
    simp only [date]
    omega
  have := p.century_le
  have := p.four_le
  have := p.year_le
  simp only [Date.toDays, year, month, day, march, days]
  omega

/-- Every month but February reaches up to the next one. -/
theorem monthStart_succ (year : Int) {m : Nat} (other : m < 11) :
    Date.monthStart (m + 1) =
      Date.monthStart m + Date.daysInMonth year (if m < 10 then m + 3 else m - 9) := by
  interval_cases m <;> rfl

theorem isLeapYear_march (last : p.day = 365) : Date.isLeapYear (p.march + 1) = true := by
  obtain ⟨year, century⟩ := p.leap last
  have := p.century_le
  have := p.four_le
  simp only [Date.isLeapYear, march, year, ne_eq, decide_not, Bool.and_eq_true, Bool.or_eq_true,
    Bool.not_eq_true', decide_eq_true_eq, decide_eq_false_iff_not]
  omega

theorem day_date_le : p.date.day ≤ Date.daysInMonth p.date.year p.date.month := by
  have began := p.monthStart_month_le
  rcases Nat.lt_or_ge p.month 11 with other | february
  · have ended : p.day < Date.monthStart (p.month + 1) := by
      simp only [Date.monthStart, month]
      omega
    rw [monthStart_succ p.date.year other] at ended
    simp only [date] at ended ⊢
    omega
  · have month : p.month = 11 := by
      have := p.month_lt
      omega
    have := p.day_le
    have leap := p.isLeapYear_march
    simp only [date, month, Date.monthStart, Date.daysInMonth] at began ⊢
    by_cases last : p.day = 365
    · simp [last, leap last]
    · simp only [Nat.reduceLT, if_false, Nat.reduceSub, if_true]
      split <;> omega

theorem isValid_date : p.date.isValid = true := by
  have month : 1 ≤ p.date.month ∧ p.date.month ≤ 12 := by
    have := p.month_lt
    simp only [date]
    split <;> omega
  have first : 1 ≤ p.date.day := Nat.le_add_left 1 _
  simp [Date.isValid, month, first, p.day_date_le]

end Place

namespace Date

/-- The date of a day denotes the day. -/
theorem toDays_ofDays (days : Int) : (ofDays days).toDays = days := by
  obtain ⟨p, rfl⟩ := Place.exists_of_days days
  rw [p.ofDays_days, p.toDays_date]

/-- Every day has a date that stands in the calendar. -/
theorem isValid_ofDays (days : Int) : (ofDays days).isValid = true := by
  obtain ⟨p, rfl⟩ := Place.exists_of_days days
  rw [p.ofDays_days, p.isValid_date]

theorem bounds_of_isValid {d : Date} (valid : d.isValid = true) : d.month ≤ 12 ∧ d.day ≤ 31 := by
  simp only [isValid, Bool.and_eq_true, decide_eq_true_eq] at valid
  refine ⟨valid.1.1.2, valid.2.trans ?_⟩
  unfold daysInMonth
  split
  · split <;> decide
  · split <;> decide

end Date

/-! ## Instants -/

/-- The year in which an instant lies. -/
def Instant.year (t : Instant) : Int := (Date.ofDays (t.second / 86400)).year

namespace Rfc3339

variable {s t : List Char} {c : Char} {n width : Nat}

theorem digit?_of_isDigit (digit : c.isDigit = true) : digit? c = some (c.toNat - 48) := by
  rw [digit?, if_pos]
  simpa [Char.isDigit, Char.le_def] using digit

theorem digit?_of_not_isDigit (other : c.isDigit = false) : digit? c = none := by
  rw [digit?, if_neg]
  simpa [Char.isDigit, Char.le_def] using other

theorem digitsAfter?_append (digits : ∀ c ∈ s, c.isDigit = true) (value : Nat) (t : List Char) :
    digitsAfter? value s.length (s ++ t) = some (Nat.ofDigitChars 10 s value, t) := by
  induction s generalizing value with
  | nil => rfl
  | cons c s ih =>
      obtain ⟨digit, digits⟩ := List.forall_mem_cons.mp digits
      simp only [List.length_cons, List.cons_append, digitsAfter?, digit?_of_isDigit digit,
        Option.bind_eq_bind, Option.bind_some, ih digits, Nat.ofDigitChars_cons]
      rfl

theorem length_padded (positive : 0 < width) (fits : n < 10 ^ width) :
    (padded width n).length = width := by
  have := Nat.toDigits_length 10 n width positive fits
  simp only [padded, List.length_append, List.length_replicate]
  omega

theorem isDigit_of_mem_padded (member : c ∈ padded width n) : c.isDigit = true := by
  simp only [padded, List.mem_append, List.mem_replicate] at member
  rcases member with ⟨-, rfl⟩ | member
  · rfl
  · exact Nat.isDigit_of_mem_toDigits (by decide) (by decide) member

theorem ofDigitChars_padded (width n : Nat) : Nat.ofDigitChars 10 (padded width n) 0 = n := by
  rw [padded, Nat.ofDigitChars_append, Nat.ofDigitChars_replicate_zero, Nat.mul_zero,
    Nat.ofDigitChars_ten_toDigits]

/-- A padded number is read back, digit for digit. -/
theorem digits?_padded (positive : 0 < width) (fits : n < 10 ^ width) (t : List Char) :
    digits? width (padded width n ++ t) = some (n, t) := by
  have digits : ∀ c ∈ padded width n, c.isDigit = true := fun _ => isDigit_of_mem_padded
  have read := digitsAfter?_append digits 0 t
  rwa [length_padded positive fits, ofDigitChars_padded] at read

theorem nanos_append (digits : ∀ c ∈ s, c.isDigit = true) {place : Nat}
    (few : s.length ≤ place) (ends : ∀ c ∈ t.head?, c.isDigit = false) :
    nanos place (s ++ t) = (Nat.ofDigitChars 10 s 0 * 10 ^ (place - s.length), t) := by
  induction s generalizing place with
  | nil =>
      cases t with
      | nil => cases place <;> simp [nanos]
      | cons c t =>
          have other : c.isDigit = false := ends c rfl
          cases place <;> simp [nanos, other, digit?_of_not_isDigit]
  | cons c s ih =>
      obtain ⟨digit, digits⟩ := List.forall_mem_cons.mp digits
      obtain _ | place := place
      · simp at few
      have few : s.length ≤ place := by simpa using few
      simp only [List.cons_append, nanos, digit?_of_isDigit digit, ih digits few, List.length_cons,
        Nat.add_sub_add_right, Nat.ofDigitChars_cons, Prod.mk.injEq, and_true]
      have front : 10 ^ s.length * 10 ^ (place - s.length) = 10 ^ place := by
        rw [← Nat.pow_add, Nat.add_sub_cancel' few]
      rw [@Nat.ofDigitChars_eq_ofDigitChars_zero s (10 * 0 + _), Nat.mul_zero, Nat.zero_add,
        Nat.add_mul, Nat.mul_right_comm, front, Nat.mul_comm]
      rfl

theorem fraction?_padded (positive : 0 < width) (few : width ≤ 9) (fits : n < 10 ^ width)
    (ends : ∀ c ∈ t.head?, c.isDigit = false) :
    fraction? ('.' :: padded width n ++ t) = some (n * 10 ^ (9 - width), t) := by
  have length := length_padded positive fits
  have digits : ∀ c ∈ padded width n, c.isDigit = true := fun _ => isDigit_of_mem_padded
  have read := nanos_append digits (length.trans_le few) ends
  rw [length, ofDigitChars_padded] at read
  cases h : padded width n with
  | nil =>
      rw [h] at length
      simp only [List.length_nil] at length
      omega
  | cons c s =>
      rw [h] at read digits
      rw [List.cons_append, List.cons_append, fraction?, if_pos (digits c List.mem_cons_self), ← read,
        List.cons_append]

/-- No digit of a fraction is lost. -/
theorem fraction?_fraction {nano : Nat} (fits : nano < 1000000000) :
    fraction? (fraction nano ++ ['Z']) = some (nano, ['Z']) := by
  have ends : ∀ c ∈ ['Z'].head?, c.isDigit = false := by simp
  unfold fraction
  split
  · subst nano
    rfl
  split
  · rw [fraction?_padded (by decide) (by decide) (by omega) ends]
    simp only [Option.some.injEq, Prod.mk.injEq, and_true]
    omega
  split
  · rw [fraction?_padded (by decide) (by decide) (by omega) ends]
    simp only [Option.some.injEq, Prod.mk.injEq, and_true]
    omega
  · rw [fraction?_padded (by decide) (by decide) (by omega) ends]
    simp

/-! ## Whole texts -/

/-- A year that does not fit four digits has a sign, which no date begins with. -/
theorem digits?_year_of_far {y : Int} (far : ¬(0 ≤ y ∧ y ≤ 9999)) (t : List Char) :
    digits? 4 (year y ++ t) = none := by
  rw [year, if_neg far]
  split <;> rfl

/-- A second of a minute and the nanoseconds are read back, in a leap second, too. -/
theorem of?_parts (t : Instant) :
    let second := (t.second % 86400).toNat % 60 + t.nano / 1000000000
    let leap := if second = 60 then 1 else 0
    Instant.of? (t.second / 86400 * 86400 + (((t.second % 86400).toNat / 3600 : Nat) * 3600 +
        ((t.second % 86400).toNat / 60 % 60 : Nat) * 60 + (second - leap : Nat)) - 0)
      (t.nano % 1000000000 + leap * 1000000000) = some t := by
  have := t.nano_lt
  have := t.leap
  intro second leap
  have second_eq : second - leap = (t.second % 86400).toNat % 60 := by
    simp only [second, leap]
    split <;> omega
  have nano_eq : t.nano % 1000000000 + leap * 1000000000 = t.nano := by
    simp only [second, leap]
    split <;> omega
  have whole : t.second / 86400 * 86400 + (((t.second % 86400).toNat / 3600 : Nat) * 3600 +
      ((t.second % 86400).toNat / 60 % 60 : Nat) * 60 + ((t.second % 86400).toNat % 60 : Nat)) - 0 =
      t.second := by omega
  rw [second_eq, nano_eq, whole, Instant.of?, dif_pos ⟨t.nano_lt, t.leap⟩]

/-- Reading goes on behind a padded number and the character that ends it. -/
theorem part_bind {α : Type} (fits : n < 10 ^ width) (positive : 0 < width) {accepted : List Char}
    (member : accepted.contains c = true) (more : Nat × List Char → List Char → Option α) :
    (do
      let part ← digits? width (padded width n ++ c :: s)
      let rest ← skip? accepted part.2
      more part rest) = more (n, c :: s) s := by
  rw [digits?_padded positive fits, Option.bind_eq_bind, Option.bind_some, skip?, if_pos member]
  rfl

/-- The texts of the years 0 to 9999 are read back; another year has a sign, which is not read. -/
theorem parse?_render (t : Instant) :
    parse? (render "Z" t) = if 0 ≤ t.year ∧ t.year ≤ 9999 then some t else none := by
  obtain ⟨d, date⟩ : ∃ d, Date.ofDays (t.second / 86400) = d := ⟨_, rfl⟩
  have days : d.toDays = t.second / 86400 := date ▸ Date.toDays_ofDays _
  have valid : d.isValid = true := date ▸ Date.isValid_ofDays _
  have nano_lt := t.nano_lt
  simp only [parse?, render, String.toList_ofList, Instant.year, List.append_assoc,
    List.cons_append, date]
  split
  next four =>
    obtain ⟨month_le, day_le⟩ := Date.bounds_of_isValid valid
    have year_fits : d.year.toNat < 10 ^ 4 := by omega
    have month_fits : d.month < 10 ^ 2 := by omega
    have day_fits : d.day < 10 ^ 2 := by omega
    have hour_fits : (t.second % 86400).toNat / 3600 < 10 ^ 2 := by omega
    have minute_fits : (t.second % 86400).toNat / 60 % 60 < 10 ^ 2 := by omega
    have second_fits : (t.second % 86400).toNat % 60 + t.nano / 1000000000 < 10 ^ 2 := by omega
    rw [year, if_pos four, part_bind year_fits (by decide) rfl,
      part_bind month_fits (by decide) rfl, part_bind day_fits (by decide) rfl,
      part_bind hour_fits (by decide) rfl, part_bind minute_fits (by decide) rfl,
      digits?_padded (by decide) second_fits]
    have nano : fraction? (fraction (t.nano % 1000000000) ++ "Z".toList) =
        some (t.nano % 1000000000, ['Z']) := fraction?_fraction (by omega)
    have zone : offset? ['Z'] = some (0, []) := rfl
    have same : (⟨(d.year.toNat : Int), d.month, d.day⟩ : Date) = d := by
      rw [Int.toNat_of_nonneg four.1]
    simp only [Option.bind_eq_bind, Option.bind_some, nano, zone]
    rw [same, days, of?_parts, if_pos]
    refine ⟨rfl, valid, ?_⟩
    omega
  next far =>
    rw [digits?_year_of_far far]
    rfl

end Rfc3339

/-! ## Stored timestamps -/

end Mvc
