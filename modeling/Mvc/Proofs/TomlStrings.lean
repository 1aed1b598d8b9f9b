import Mvc.Proofs.Sequences
import Mvc.Toml.Writer

/-! # TOML strings come back

Whichever form the writer chooses for a string, the reader gives the string back. In the forms for
several lines quotes stand for themselves in runs of at most two, and a run at the end grows by the
three that close the text; what is written between the quotes is spelled piece by piece.
-/

namespace Mvc.Toml

variable {c quote : Char} {s t text written rest : List Char} {fuel n : Nat} {escapes : Bool}

/-! ## Characters -/

theorem hexWord_eq : ∀ n < 128, hexWord n =
    ['0', '0', (Nat.digitChar (n / 16)).toUpper, (Nat.digitChar (n % 16)).toUpper] := by
  decide

theorem hexDigit?_toUpper : ∀ n < 16, Text.hexDigit? (Nat.digitChar n).toUpper = some n := by
  decide

/-- The number of a character in four digits. -/
theorem hexAfter?_hexWord (small : n < 128) (s : List Char) :
    hexAfter? 0 4 (hexWord n ++ s) = some (n, s) := by
  have zero : Text.hexDigit? '0' = some 0 := rfl
  have high := hexDigit?_toUpper (n / 16) (by omega)
  have low := hexDigit?_toUpper (n % 16) (by omega)
  rw [hexWord_eq n small]
  simp [hexAfter?, zero, high, low]
  omega

/-- A character between double quotes is escaped, or stands for itself. -/
theorem escapeChar_cases (lines : Bool) (c : Char) :
    (∃ code, escapeChar lines c = '\\' :: code ∧ (∀ s, escape? (code ++ s) = some (c, s)) ∧
      ∀ s, newLine? (skipBlanks (code ++ s)) = none) ∨
    escapeChar lines c = [c] ∧
      (c ≠ '\\' ∧ isStringChar c = true ∨ c = '\n' ∧ lines = true) := by
  by_cases short : c ∈ ['\x08', '\t', '\n', '\x0c', '\r', '\\']
  · simp only [List.mem_cons, List.not_mem_nil, or_false] at short
    rcases short with rfl | rfl | rfl | rfl | rfl | rfl
    · exact .inl ⟨['b'], rfl, fun _ => rfl, fun _ => rfl⟩
    · exact .inl ⟨['t'], rfl, fun _ => rfl, fun _ => rfl⟩
    · cases lines with
      | true => exact .inr ⟨rfl, .inr ⟨rfl, rfl⟩⟩
      | false => exact .inl ⟨['n'], rfl, fun _ => rfl, fun _ => rfl⟩
    · exact .inl ⟨['f'], rfl, fun _ => rfl, fun _ => rfl⟩
    · exact .inl ⟨['r'], rfl, fun _ => rfl, fun _ => rfl⟩
    · exact .inl ⟨['\\'], rfl, fun _ => rfl, fun _ => rfl⟩
  · simp only [List.mem_cons, List.not_mem_nil, or_false, not_or] at short
    by_cases control : c.toNat < 32 ∨ c.toNat = 127
    · refine .inl ⟨'u' :: hexWord c.toNat, by simp [escapeChar, short, control], fun s => ?_,
        fun s => rfl⟩
      have scalar : Text.scalar? c.toNat = some c := by
        rw [Text.scalar?, if_pos (by omega), Char.ofNat_toNat]
      simp [escape?, hexAfter?_hexWord (n := c.toNat) (by omega) s, scalar]
    · refine .inr ⟨by simp [escapeChar, short, control], .inl ⟨short.2.2.2.2.2, ?_⟩⟩
      simp only [isStringChar, isCommentChar, Bool.or_eq_true, Bool.and_eq_true, decide_eq_true_eq]
      omega

/-- A character that needs no escape is a line feed or stands for itself in every form. -/
theorem isStringChar_of_needsEscape (plain : needsEscape c = false) (noLine : c ≠ '\n') :
    isStringChar c = true := by
  by_cases tab : c = '\t'
  · rw [tab]
    rfl
  · simp only [needsEscape, tab, noLine, ne_eq, not_false_eq_true, decide_true, Bool.true_and,
      Bool.or_eq_false_iff, decide_eq_false_iff_not] at plain
    simp only [isStringChar, isCommentChar, Bool.or_eq_true, Bool.and_eq_true, decide_eq_true_eq]
    omega

theorem newLine?_cons (noLine : c ≠ '\n') (noReturn : c ≠ '\r') (s : List Char) :
    newLine? (c :: s) = none := by
  rw [newLine?.eq_def]
  split <;> simp_all

theorem ne_of_isStringChar (string : isStringChar c = true) : c ≠ '\n' ∧ c ≠ '\r' := by
  constructor <;> rintro rfl <;> cases string

/-! ## Strings on one line -/

theorem escapeText_quote (run : Nat) (s : List Char) :
    escapeText false run ('"' :: s) = '\\' :: '"' :: escapeText false 0 s := by
  simp [escapeText]

theorem escapeText_cons (lines : Bool) (run : Nat) (other : c ≠ '"') (s : List Char) :
    escapeText lines run (c :: s) = escapeChar lines c ++ escapeText lines 0 s := by
  simp [escapeText, other]

/-- A basic string up to its closing quote. -/
theorem basicRest?_escapeText (run : Nat) (enough : (escapeText false run text).length < fuel) :
    basicRest? fuel (escapeText false run text ++ '"' :: rest) = some (text, rest) := by
  induction text generalizing fuel run with
  | nil =>
      cases fuel with
      | zero => simp at enough
      | succ fuel => simp [escapeText, basicRest?]
  | cons c text ih =>
      cases fuel with
      | zero => simp at enough
      | succ fuel =>
          by_cases quote : c = '"'
          · subst quote
            rw [escapeText_quote] at enough ⊢
            have more := @ih fuel 0 (by simp at enough; omega)
            simp [basicRest?, escape?, more]
          · rw [escapeText_cons false run quote] at enough ⊢
            rcases escapeChar_cases false c with ⟨code, spelled, means, -⟩ | ⟨spelled, here⟩
            · rw [spelled] at enough ⊢
              have more := @ih fuel 0 (by simp at enough; omega)
              simp [basicRest?, means, more]
            · rw [spelled] at enough ⊢
              have more := @ih fuel 0 (by simp at enough; omega)
              obtain ⟨noEscape, string⟩ : c ≠ '\\' ∧ isStringChar c = true := by simpa using here
              simp only [List.cons_append, basicRest?]
              split <;> simp_all

/-- A literal string up to its closing quote. -/
theorem literalRest?_append (plain : ∀ c ∈ text, isStringChar c = true) (noQuote : '\'' ∉ text) :
    literalRest? (text ++ '\'' :: rest) = some (text, rest) := by
  induction text with
  | nil => simp [literalRest?]
  | cons c text ih =>
      simp only [List.mem_cons, not_or, forall_eq_or_imp] at plain noQuote
      rw [List.cons_append, literalRest?.eq_def]
      split
      · simp_all
      · simp_all
      · next other _ eq =>
          cases eq
          simp [plain.1, ih plain.2 noQuote.2]

/-! ## Text of several lines -/

/-- What is written between tripled quotes for a text, piece by piece. -/
inductive Spelled (quote : Char) (escapes : Bool) : List Char → List Char → Prop where
  | nil : Spelled quote escapes [] []
  | line {text written : List Char} (more : Spelled quote escapes text written) :
      Spelled quote escapes ('\n' :: text) ('\n' :: written)
  | plain {c : Char} {text written : List Char} (string : isStringChar c = true)
      (other : c ≠ quote) (noEscape : ¬(c = '\\' ∧ escapes = true))
      (more : Spelled quote escapes text written) :
      Spelled quote escapes (c :: text) (c :: written)
  | escape {c : Char} {code text written : List Char} (permitted : escapes = true)
      (means : ∀ s, escape? (code ++ s) = some (c, s))
      (noLine : ∀ s, newLine? (skipBlanks (code ++ s)) = none)
      (more : Spelled quote escapes text written) :
      Spelled quote escapes (c :: text) ('\\' :: code ++ written)
  | quotes {n : Nat} {text written : List Char} (few : n ∈ [1, 2])
      (stop : written.head? ≠ some quote) (more : Spelled quote escapes text written) :
      Spelled quote escapes (List.replicate n quote ++ text) (List.replicate n quote ++ written)

/-- The quotes of texts. -/
def IsQuote (quote : Char) : Prop := quote = '"' ∨ quote = '\''

theorem isQuote_ne (isQuote : IsQuote quote) : quote ≠ '\n' ∧ quote ≠ '\r' ∧ quote ≠ '\\' := by
  rcases isQuote with rfl | rfl <;> decide

theorem spelled_nil (spelled : Spelled quote escapes text []) : text = [] := by
  generalize eq : ([] : List Char) = written at spelled
  cases spelled with
  | nil => rfl
  | quotes few => simp_all
  | _ => cases eq

/-- A run of quotes and what does not begin with one. -/
theorem takeWhile_quotes (n : Nat) (stop : s.head? ≠ some quote) :
    (List.replicate n quote ++ s).takeWhile (· = quote) = List.replicate n quote ∧
      (List.replicate n quote ++ s).dropWhile (· = quote) = s := by
  have all : ∀ c ∈ List.replicate n quote, decide (c = quote) = true := by
    intro c member
    simpa using List.eq_of_mem_replicate member
  have stop' : ∀ c ∈ s.head?, decide (c = quote) = false := by
    intro c here
    rw [decide_eq_false_iff_not]
    rintro rfl
    exact stop here
  exact ⟨takeWhile_append all stop', dropWhile_append all stop'⟩

theorem linesRest?_quotes (escapes : Bool) (fuel : Nat) (isQuote : IsQuote quote) (n : Nat)
    (stop : s.head? ≠ some quote) :
    linesRest? quote escapes (fuel + 1) (List.replicate (n + 1) quote ++ s) =
      match Quotes.ofRun (n + 1) with
      | .close before => some (List.replicate before quote, s)
      | .content => (linesRest? quote escapes fuel s).map fun (text, s) =>
          (List.replicate (n + 1) quote ++ text, s)
      | .tooMany => none := by
  obtain ⟨noLine, noReturn, -⟩ := isQuote_ne isQuote
  obtain ⟨taken, dropped⟩ := takeWhile_quotes n stop
  rw [List.replicate_succ, List.cons_append, linesRest?, newLine?_cons noLine noReturn]
  cases meaning : Quotes.ofRun (n + 1) <;> simp [taken, dropped, meaning]

/-- The text comes back when the closing quotes follow. -/
theorem linesRest?_of_spelled (isQuote : IsQuote quote) (spelled : Spelled quote escapes text written)
    (stop : rest.head? ≠ some quote) (enough : written.length < fuel) :
    linesRest? quote escapes fuel (written ++ (List.replicate 3 quote ++ rest)) =
      some (text, rest) := by
  obtain ⟨noLine, noReturn, noSlash⟩ := isQuote_ne isQuote
  induction spelled generalizing fuel with
  | nil =>
      obtain ⟨fuel, rfl⟩ := Nat.exists_eq_add_one.mpr (Nat.zero_lt_of_lt enough)
      exact linesRest?_quotes escapes fuel isQuote 2 stop
  | line more ih =>
      obtain ⟨fuel, rfl⟩ := Nat.exists_eq_add_one.mpr (Nat.zero_lt_of_lt enough)
      have inner := @ih fuel (by simp at enough; omega)
      generalize List.replicate 3 quote ++ rest = tail at inner ⊢
      simp [linesRest?, newLine?, inner]
  | plain string other noEscape more ih =>
      obtain ⟨fuel, rfl⟩ := Nat.exists_eq_add_one.mpr (Nat.zero_lt_of_lt enough)
      have inner := @ih fuel (by simp at enough; omega)
      obtain ⟨noLine', noReturn'⟩ := ne_of_isStringChar string
      generalize List.replicate 3 quote ++ rest = tail at inner ⊢
      rw [List.cons_append, linesRest?, newLine?_cons noLine' noReturn']
      simp [other, noEscape, string, inner]
  | escape permitted means noLine' more ih =>
      obtain ⟨fuel, rfl⟩ := Nat.exists_eq_add_one.mpr (Nat.zero_lt_of_lt enough)
      have inner := @ih fuel (by simp at enough; omega)
      generalize List.replicate 3 quote ++ rest = tail at inner ⊢
      subst permitted
      rw [List.cons_append, List.cons_append, linesRest?, newLine?_cons (by decide) (by decide),
        List.append_assoc]
      simp [noSlash.symm, means, noLine', inner]
  | @quotes n text' written' few stop' more ih =>
      obtain ⟨fuel, rfl⟩ := Nat.exists_eq_add_one.mpr (Nat.zero_lt_of_lt enough)
      obtain ⟨k, rfl, small⟩ : ∃ k, n = k + 1 ∧ k < 2 := by
        simp only [List.mem_cons, List.not_mem_nil, or_false] at few
        rcases few with rfl | rfl
        · exact ⟨0, rfl, by decide⟩
        · exact ⟨1, rfl, by decide⟩
      -- At the end of the text the run and the three quotes that close it are one run.
      by_cases last : written' = []
      · subst last
        obtain rfl := spelled_nil more
        have run := linesRest?_quotes escapes fuel isQuote (k + 3) stop
        rw [List.append_nil, ← List.append_assoc, ← List.replicate_add]
        have close : Quotes.ofRun (k + 3 + 1) = .close (k + 1) := by
          simp only [Quotes.ofRun]
          rw [if_neg (by omega), if_pos (by omega)]
          rfl
        rw [close] at run
        exact run
      · have inner := @ih fuel (by simp at enough; omega)
        have next : (written' ++ (List.replicate 3 quote ++ rest)).head? ≠ some quote := by
          rwa [List.head?_append_of_ne_nil _ last]
        have run := linesRest?_quotes escapes fuel isQuote k next
        have content : Quotes.ofRun (k + 1) = .content := by
          simp only [Quotes.ofRun]
          rw [if_pos (by omega)]
        rw [content, inner] at run
        rw [List.append_assoc]
        exact run

theorem escapeText_run (lines : Bool) (run : Nat) (other : s.head? ≠ some '"') :
    escapeText lines run s = escapeText lines 0 s := by
  cases s with
  | nil => rfl
  | cons c s =>
      have notQuote : c ≠ '"' := by simpa using other
      rw [escapeText_cons lines run notQuote, escapeText_cons lines 0 notQuote]

theorem head?_escapeText (lines : Bool) (run : Nat) (other : s.head? ≠ some '"') :
    (escapeText lines run s).head? ≠ some '"' := by
  cases s with
  | nil => simp [escapeText]
  | cons c s =>
      have notQuote : c ≠ '"' := by simpa using other
      rw [escapeText_cons lines run notQuote]
      rcases escapeChar_cases lines c with ⟨code, eq, -⟩ | ⟨eq, -⟩ <;> simp [eq, notQuote]

/-- A text begins with three quotes, with one or two, or with none. -/
theorem quotes_cases (quote : Char) (s : List Char) :
    (∃ t, s = quote :: quote :: quote :: t) ∨
      (∃ n ∈ [1, 2], ∃ t, s = List.replicate n quote ++ t ∧ t.head? ≠ some quote) ∨
      s.head? ≠ some quote := by
  by_cases first : s.head? = some quote
  · obtain ⟨s, rfl⟩ := List.head?_eq_some_iff.mp first
    by_cases second : s.head? = some quote
    · obtain ⟨s, rfl⟩ := List.head?_eq_some_iff.mp second
      by_cases third : s.head? = some quote
      · obtain ⟨s, rfl⟩ := List.head?_eq_some_iff.mp third
        exact .inl ⟨s, rfl⟩
      · exact .inr (.inl ⟨2, by simp, s, rfl, third⟩)
    · exact .inr (.inl ⟨1, by simp, s, rfl, second⟩)
  · exact .inr (.inr first)

/-- Escapes spell every text. -/
theorem spelled_escapeText (s : List Char) : Spelled '"' true s (escapeText true 0 s) := by
  induction hn : s.length using Nat.strong_induction_on generalizing s with
  | _ n ih =>
      subst hn
      rcases quotes_cases '"' s with ⟨t, rfl⟩ | ⟨n, few, t, rfl, other⟩ | other
      · -- The third quote of a run is escaped, so that two at most stand for themselves.
        have inner := ih t.length (by simp; omega) t rfl
        have third : Spelled '"' true ('"' :: t) ('\\' :: ['"'] ++ escapeText true 0 t) :=
          .escape rfl (fun _ => rfl) (fun _ => rfl) inner
        have all := Spelled.quotes (n := 2) (by simp) (by simp) third
        simpa [escapeText] using all
      · have inner := ih t.length (by simp at few ⊢; omega) t rfl
        have all := Spelled.quotes few (head?_escapeText true 0 other) inner
        simp only [List.mem_cons, List.not_mem_nil, or_false] at few
        rcases few with rfl | rfl
        · simpa [escapeText, escapeText_run true 1 other] using all
        · simpa [escapeText, escapeText_run true 2 other] using all
      · cases s with
        | nil => exact .nil
        | cons c s =>
            have notQuote : c ≠ '"' := by simpa using other
            have inner := ih s.length (by simp) s rfl
            rw [escapeText_cons true 0 notQuote]
            rcases escapeChar_cases true c with ⟨code, eq, means, noLine⟩ | ⟨eq, here⟩
            · rw [eq]
              exact .escape rfl means noLine inner
            · rw [eq]
              rcases here with ⟨noEscape, string⟩ | ⟨rfl, -⟩
              · exact .plain string notQuote (fun both => noEscape both.1) inner
              · exact .line inner

theorem le_longestRun (c : Char) (run : Nat) (s : List Char) : run ≤ longestRun c run s := by
  induction s generalizing run with
  | nil => exact le_rfl
  | cons d s ih =>
      simp only [longestRun]
      split
      · exact (Nat.le_succ run).trans (ih (run + 1))
      · exact le_max_left ..

theorem longestRun_replicate (c : Char) (run n : Nat) (s : List Char) :
    longestRun c run (List.replicate n c ++ s) = longestRun c (run + n) s := by
  induction n generalizing run with
  | zero => rfl
  | succ n ih =>
      rw [List.replicate_succ, List.cons_append, longestRun, if_pos rfl, ih]
      congr 1
      omega

theorem longestRun_of_other (run : Nat) (other : s.head? ≠ some c) :
    longestRun c 0 s ≤ longestRun c run s := by
  cases s with
  | nil => simp [longestRun]
  | cons d s =>
      have different : d ≠ c := by simpa using other
      simp only [longestRun, different, if_false]
      omega

/-- Text without long runs of quotes spells itself, if no character needs an escape. -/
theorem spelled_self (plain : ∀ c ∈ s, needsEscape c = false) (short : longestRun quote 0 s ≤ 2) :
    Spelled quote false s s := by
  induction hn : s.length using Nat.strong_induction_on generalizing s with
  | _ n ih =>
      subst hn
      rcases quotes_cases quote s with ⟨t, rfl⟩ | ⟨n, few, t, rfl, other⟩ | other
      · have long := le_longestRun quote (0 + 3) t
        rw [← longestRun_replicate] at long
        exact absurd (long.trans short) (by decide)
      · rw [longestRun_replicate] at short
        have inner := ih t.length (by simp at few ⊢; omega)
          (fun c member => plain c (List.mem_append_right _ member))
          ((longestRun_of_other _ other).trans short) rfl
        exact .quotes few other inner
      · cases s with
        | nil => exact .nil
        | cons c s =>
            have notQuote : c ≠ quote := by simpa using other
            simp only [longestRun, notQuote, if_false, Nat.zero_max] at short
            simp only [List.mem_cons, forall_eq_or_imp] at plain
            have inner := ih s.length (by simp) plain.2 short rfl
            by_cases line : c = '\n'
            · exact line ▸ .line inner
            · exact .plain (isStringChar_of_needsEscape plain.1 line) notQuote (by simp) inner

/-! ## All forms -/

/-- What is spelled does not begin with a line end that the text does not begin with. -/
theorem newLine?_of_spelled (isQuote : IsQuote quote)
    (spelled : Spelled quote escapes text written) (noLine : text.head? ≠ some '\n')
    (s : List Char) : newLine? (written ++ quote :: s) = none := by
  obtain ⟨noLine', noReturn, -⟩ := isQuote_ne isQuote
  cases spelled with
  | nil => exact newLine?_cons noLine' noReturn s
  | line more => simp at noLine
  | plain string => 
      obtain ⟨one, two⟩ := ne_of_isStringChar string
      exact newLine?_cons one two _
  | escape => exact newLine?_cons (by decide) (by decide) _
  | quotes few => 
      simp only [List.mem_cons, List.not_mem_nil, or_false] at few
      rcases few with rfl | rfl <;> exact newLine?_cons noLine' noReturn _

/-- Behind the opening quotes, a line feed does not count, and one is written if the text could
    begin with one. -/
theorem skipNewLine_openingLine (isQuote : IsQuote quote)
    (spelled : Spelled quote escapes text written) (s : List Char) :
    skipNewLine (openingLine text ++ (written ++ quote :: s)) = written ++ quote :: s := by
  cases line : text.contains '\n' with
  | true =>
      rw [openingLine, if_pos line]
      rfl
  | false =>
      have noLine : text.head? ≠ some '\n' := by
        intro first
        obtain ⟨more, rfl⟩ := List.head?_eq_some_iff.mp first
        simp at line
      rw [openingLine, line, if_neg (by decide), List.nil_append, skipNewLine,
        newLine?_of_spelled isQuote spelled noLine, Option.getD_none]

/-- A string is not followed by a quote. -/
def NoQuote (s : List Char) : Prop := s.head? ≠ some '"' ∧ s.head? ≠ some '\''

/-- Two more quotes make the difference between the forms for one line and for several. -/
theorem string?_basic (single : ¬['"', '"'] <+: s) :
    string? ('"' :: s) = basicRest? (s.length + 1) s := by
  rw [string?.eq_def]
  split
  · next eq =>
      cases eq
      simp at single
  · simp_all
  · simp_all
  · simp_all
  · simp_all

theorem string?_literal (single : ¬['\'', '\''] <+: s) :
    string? ('\'' :: s) = literalRest? s := by
  rw [string?.eq_def]
  split
  · simp_all
  · next eq =>
      cases eq
      simp at single
  · simp_all
  · simp_all
  · simp_all

theorem head?_escapeText_false (s : List Char) : (escapeText false 0 s).head? ≠ some '"' := by
  by_cases other : s.head? = some '"'
  · obtain ⟨s, rfl⟩ := List.head?_eq_some_iff.mp other
    simp [escapeText_quote]
  · exact head?_escapeText false 0 other

/-- Text that does not begin with a quote, one quote, and what does not begin with one. -/
theorem notPrefix_quotes (first : s.head? ≠ some quote) (stop : rest.head? ≠ some quote) :
    ¬[quote, quote] <+: s ++ quote :: rest := by
  rintro ⟨more, eq⟩
  cases s with
  | nil =>
      simp only [List.nil_append, List.cons_append, List.cons.injEq, true_and] at eq
      exact stop (by simp [← eq])
  | cons c s =>
      simp only [List.cons_append, List.cons.injEq] at eq
      exact first (by simp [← eq.1])

/-- A string in each of its forms comes back, the plain forms if the text has what they need. -/
theorem string?_write (form : StringForm) (noQuote : NoQuote rest)
    (literal : form = .literal → (∀ c ∈ text, isStringChar c = true) ∧ '\'' ∉ text)
    (literalLines : form = .literalLines →
      (∀ c ∈ text, needsEscape c = false) ∧ longestRun '\'' 0 text ≤ 2) :
    string? (form.write text ++ rest) = some (text, rest) := by
  cases form with
  | basic =>
      have enough : (escapeText false 0 text).length <
          (escapeText false 0 text ++ '"' :: rest).length + 1 := by
        rw [List.length_append]
        omega
      simp only [StringForm.write, List.cons_append, List.append_assoc, List.nil_append]
      rw [string?_basic (notPrefix_quotes (head?_escapeText_false text) noQuote.1)]
      exact basicRest?_escapeText 0 enough
  | literal =>
      obtain ⟨plain, without⟩ := literal rfl
      have first : text.head? ≠ some '\'' := fun here => without (List.mem_of_mem_head? here)
      simp only [StringForm.write, List.cons_append, List.append_assoc, List.nil_append]
      rw [string?_literal (notPrefix_quotes first noQuote.2)]
      exact literalRest?_append plain without
  | basicLines =>
      have isQuote : IsQuote '"' := .inl rfl
      have spelled := spelled_escapeText text
      have skipped := skipNewLine_openingLine isQuote spelled ('"' :: '"' :: rest)
      have enough : (escapeText true 0 text).length <
          (openingLine text ++ (escapeText true 0 text ++ '"' :: '"' :: '"' :: rest)).length + 1 := by
        rw [List.length_append, List.length_append]
        omega
      have read := linesRest?_of_spelled isQuote spelled noQuote.1 enough
      simp only [StringForm.write, List.cons_append, List.append_assoc, List.nil_append, string?]
      rw [skipped]
      exact read
  | literalLines =>
      have isQuote : IsQuote '\'' := .inr rfl
      obtain ⟨plain, short⟩ := literalLines rfl
      have spelled := spelled_self plain short
      have skipped := skipNewLine_openingLine isQuote spelled ('\'' :: '\'' :: rest)
      have enough : text.length <
          (openingLine text ++ (text ++ '\'' :: '\'' :: '\'' :: rest)).length + 1 := by
        rw [List.length_append, List.length_append]
        omega
      have read := linesRest?_of_spelled isQuote spelled noQuote.2 enough
      simp only [StringForm.write, List.cons_append, List.append_assoc, List.nil_append, string?]
      rw [skipped]
      exact read

theorem notMem_of_longestRun (none : longestRun c 0 s = 0) : c ∉ s := by
  induction s with
  | nil => simp
  | cons d s ih =>
      simp only [longestRun] at none
      split at none
      · have := le_longestRun c (0 + 1) s
        omega
      · next other =>
          rw [Nat.zero_max] at none
          simp [Ne.symm other, ih none]

/-- Text on one line that needs no escapes. -/
theorem isStringChar_of_features (plain : (Features.ofText s).escapes = false)
    (noLine : (Features.ofText s).lineEnd = false) : ∀ c ∈ s, isStringChar c = true := by
  simp only [Features.ofText, List.any_eq_false, List.contains_eq_mem, decide_eq_false_iff_not]
    at plain noLine
  intro c member
  refine isStringChar_of_needsEscape (by simpa using plain c member) ?_
  rintro rfl
  exact noLine member

theorem choose_literal {f : Features} (chosen : StringForm.choose f = .literal) :
    f.escapes = false ∧ f.lineEnd = false ∧ f.singleQuotes = 0 := by
  simp only [StringForm.choose] at chosen
  split_ifs at chosen
  simp_all

theorem choose_literalLines {f : Features} (chosen : StringForm.choose f = .literalLines) :
    f.escapes = false ∧ f.singleQuotes ≤ 2 := by
  simp only [StringForm.choose] at chosen
  split_ifs at chosen
  simp_all

/-- What the writer chooses suits the text. -/
theorem string?_writeString (text : String) (noQuote : NoQuote rest) :
    string? (writeString text ++ rest) = some (text.toList, rest) := by
  apply string?_write _ noQuote
  · intro chosen
    obtain ⟨plain, noLine, without⟩ := choose_literal chosen
    exact ⟨isStringChar_of_features plain noLine, notMem_of_longestRun without⟩
  · intro chosen
    obtain ⟨plain, short⟩ := choose_literalLines chosen
    simp only [Features.ofText, List.any_eq_false] at plain
    exact ⟨fun c member => by simpa using plain c member, short⟩

/-! ## Keys -/

theorem ne_of_isBareChar (bare : isBareChar c = true) : c ≠ '"' ∧ c ≠ '\'' ∧ isBlank c = false := by
  refine ⟨?_, ?_, ?_⟩
  · rintro rfl
    cases bare
  · rintro rfl
    cases bare
  · simp only [isBlank, Bool.or_eq_false_iff, decide_eq_false_iff_not]
    constructor <;> rintro rfl <;> cases bare

theorem simpleKey?_bare (nonempty : s ≠ []) (bare : ∀ c ∈ s, isBareChar c = true)
    (stop : ∀ c ∈ rest.head?, isBareChar c = false) : simpleKey? (s ++ rest) = some (s, rest) := by
  have taken := takeWhile_append bare stop
  have dropped := dropWhile_append bare stop
  obtain ⟨c, more, rfl⟩ := List.exists_cons_of_ne_nil nonempty
  obtain ⟨notDouble, notSingle, -⟩ := ne_of_isBareChar (bare c (by simp))
  rw [List.cons_append, simpleKey?.eq_def]
  split
  · simp_all
  · simp_all
  · simp only [← List.cons_append, taken, dropped]
    rfl

/-- A key ends where no bare key goes on. -/
theorem simpleKey?_writeKey (text : String) (stop : ∀ c ∈ rest.head?, isBareChar c = false) :
    simpleKey? (writeKey text ++ rest) = some (text.toList, rest) := by
  have basic : simpleKey? (StringForm.basic.write text.toList ++ rest) =
      some (text.toList, rest) := by
    have enough : (escapeText false 0 text.toList).length <
        (escapeText false 0 text.toList ++ '"' :: rest).length + 1 := by
      rw [List.length_append]
      omega
    simp only [StringForm.write, List.cons_append, List.append_assoc, List.nil_append, simpleKey?]
    exact basicRest?_escapeText 0 enough
  simp only [writeKey]
  split_ifs with bare simple literal
  · simp only [Bool.and_eq_true, Bool.not_eq_true', List.isEmpty_eq_false_iff, List.all_eq_true]
      at bare
    exact simpleKey?_bare bare.1 bare.2 stop
  · exact basic
  · simp only [Bool.and_eq_true, Bool.not_eq_true', decide_eq_true_eq] at literal
    simp only [StringForm.write, List.cons_append, List.append_assoc, List.nil_append, simpleKey?]
    exact literalRest?_append (isStringChar_of_features literal.1.1 literal.1.2)
      (notMem_of_longestRun literal.2)
  · exact basic

/-- The front of a key. -/
theorem writeKey_cons (text : String) : ∃ c s, writeKey text = c :: s ∧
    (isBareChar c = true ∨ c = '"' ∨ c = '\'') := by
  simp only [writeKey]
  split_ifs with bare
  · simp only [Bool.and_eq_true, Bool.not_eq_true', List.isEmpty_eq_false_iff, List.all_eq_true]
      at bare
    obtain ⟨c, s, eq⟩ := List.exists_cons_of_ne_nil bare.1
    exact ⟨c, s, eq, .inl (bare.2 c (by simp [eq]))⟩
  · exact ⟨'"', _, rfl, .inr (.inl rfl)⟩
  · exact ⟨'\'', _, rfl, .inr (.inr rfl)⟩
  · exact ⟨'"', _, rfl, .inr (.inl rfl)⟩

theorem skipBlanks_cons (solid : isBlank c = false) (s : List Char) :
    skipBlanks (c :: s) = c :: s := by simp [skipBlanks, solid]

theorem skipBlanks_writeKey (text : String) (s : List Char) :
    skipBlanks (writeKey text ++ s) = writeKey text ++ s := by
  obtain ⟨c, more, eq, front⟩ := writeKey_cons text
  rw [eq, List.cons_append]
  apply skipBlanks_cons
  rcases front with bare | rfl | rfl
  · exact (ne_of_isBareChar bare).2.2
  · rfl
  · rfl

theorem dottedKey?_next {name : List Char} (key : simpleKey? (skipBlanks s) = some (name, t))
    (dot : skipBlanks t = '.' :: rest) : dottedKey? (fuel + 1) s =
      (dottedKey? fuel rest).map fun (names, s) => (String.ofList name :: names, s) := by
  simp only [dottedKey?, key, dot, bind, Option.bind]
  cases dottedKey? fuel rest <;> rfl

theorem dottedKey?_last {name : List Char} (key : simpleKey? (skipBlanks s) = some (name, t))
    (noDot : (skipBlanks t).head? ≠ some '.') :
    dottedKey? (fuel + 1) s = some ([String.ofList name], skipBlanks t) := by
  simp only [dottedKey?, key, bind, Option.bind]
  split
  · next dot => simp [dot] at noDot
  · rfl

/-- A dotted key comes back unless it has too many segments. -/
theorem dottedKey?_writePath {path : List String} (nonempty : path ≠ []) (fuel : Nat)
    (stop : ∀ c ∈ rest.head?, isBareChar c = false) (noDot : (skipBlanks rest).head? ≠ some '.') :
    dottedKey? fuel (writePath path ++ rest) =
      if path.length ≤ fuel then some (path, skipBlanks rest) else none := by
  induction path generalizing fuel with
  | nil => contradiction
  | cons key path ih =>
      cases fuel with
      | zero => simp [dottedKey?]
      | succ fuel =>
          cases path with
          | nil =>
              have read := simpleKey?_writeKey key stop
              rw [← skipBlanks_writeKey] at read
              simpa [writePath] using dottedKey?_last read noDot
          | cons next path =>
              have read := simpleKey?_writeKey key
                (show ∀ c ∈ ('.' :: (writePath (next :: path) ++ rest)).head?,
                  isBareChar c = false by simp; rfl)
              rw [← skipBlanks_writeKey] at read
              have text : writePath (key :: next :: path) ++ rest =
                  writeKey key ++ '.' :: (writePath (next :: path) ++ rest) := by
                simp [writePath, List.intercalate_cons_cons]
              rw [text, dottedKey?_next read (skipBlanks_cons (by rfl) _), ih (by simp)]
              by_cases short : (next :: path).length ≤ fuel
              · rw [if_pos short, if_pos (by simpa using short)]
                simp
              · rw [if_neg short, if_neg (by simpa using short)]
                rfl

end Mvc.Toml
