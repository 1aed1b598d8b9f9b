import Mathlib.Data.List.DropRight
import Mvc.Console.Command
import Mvc.Proofs.Sequences

/-! # Lines and the commands on them

A line that is not blank has one layout: blanks, a word, and behind further blanks a payload that
begins and ends with another character, and blanks again. The command of the line is that of the
word and the payload, whatever the blanks are; so a command that is laid out as a line is the one
that the line is read as.
-/

namespace Mvc

namespace Text

variable {s t before text after : List Char}

/-- Nothing but blanks. -/
def IsPadding (s : List Char) : Prop := ∀ c ∈ s, isBlank c = true

/-- No blank anywhere, and not nothing. -/
def IsWord (s : List Char) : Prop := s ≠ [] ∧ ∀ c ∈ s, isBlank c = false

/-- No blank at the front. -/
def StartsSolid (s : List Char) : Prop := ∀ c ∈ s.head?, isBlank c = false

/-- No blank at either end. -/
structure IsTrimmed (s : List Char) : Prop where
  front : StartsSolid s
  back : StartsSolid s.reverse

instance : DecidablePred IsPadding := fun s => List.decidableBAll _ s

theorem IsPadding.append (front : IsPadding s) (back : IsPadding t) : IsPadding (s ++ t) := by
  intro c member
  rcases List.mem_append.mp member with here | there
  · exact front c here
  · exact back c there

theorem IsPadding.reverse (blank : IsPadding s) : IsPadding s.reverse := by
  intro c member
  exact blank c (List.mem_reverse.mp member)

theorem isTrimmed_nil : IsTrimmed [] := by
  constructor <;> simp [StartsSolid]

theorem startsSolid_dropWhile (s : List Char) : StartsSolid (s.dropWhile isBlank) := by
  intro c here
  have stop := List.head?_dropWhile_not isBlank s
  rw [Option.mem_def.mp here] at stop
  simpa using stop

theorem isPadding_takeWhile (s : List Char) : IsPadding (s.takeWhile isBlank) := by
  intro c member
  exact List.mem_takeWhile_imp member

theorem startsSolid_append (solid : StartsSolid s) (some : s ≠ []) (t : List Char) :
    StartsSolid (s ++ t) := by
  rw [StartsSolid, List.head?_append_of_ne_nil s some]
  exact solid

/-! ## Trimming -/

theorem trimLeft_append (blank : IsPadding before) (solid : StartsSolid text) :
    trimLeft (before ++ text) = text :=
  dropWhile_append blank solid

theorem trimRight_append (solid : StartsSolid text.reverse) (blank : IsPadding after) :
    trimRight (text ++ after) = text := by
  rw [trimRight, List.reverse_append, dropWhile_append blank.reverse solid, List.reverse_reverse]

/-- Trimming takes the blanks away at both ends and nothing else. -/
theorem trim_append (blank : IsPadding before) (trimmed : IsTrimmed text)
    (blank' : IsPadding after) : trim (before ++ text ++ after) = text := by
  by_cases none : text = []
  · subst none
    have all : trimLeft (before ++ after) = [] := by
      have whole : trimLeft (before ++ after ++ []) = [] :=
        trimLeft_append (blank.append blank') (by simp [StartsSolid])
      rwa [List.append_nil] at whole
    rw [trim, List.append_nil, all]
    rfl
  · rw [trim, List.append_assoc, trimLeft_append blank (startsSolid_append trimmed.front none after),
      trimRight_append trimmed.back blank']

/-- What trimming takes away are blanks, and it leaves none at either end. -/
theorem exists_trim (s : List Char) : ∃ before after, IsPadding before ∧ IsPadding after ∧
    IsTrimmed (trim s) ∧ s = before ++ trim s ++ after := by
  have left : s.takeWhile isBlank ++ trimLeft s = s := List.takeWhile_append_dropWhile
  have right : trim s ++ ((trimLeft s).reverse.takeWhile isBlank).reverse = trimLeft s := by
    rw [trim, trimRight, ← List.reverse_append, List.takeWhile_append_dropWhile,
      List.reverse_reverse]
  refine ⟨s.takeWhile isBlank, ((trimLeft s).reverse.takeWhile isBlank).reverse,
    isPadding_takeWhile s, (isPadding_takeWhile _).reverse, ⟨?_, ?_⟩, ?_⟩
  · -- The front of what is left is the front of the text without blanks before it.
    intro c here
    have front : (trimLeft s).head? = some c := by
      rw [← right, List.head?_append, Option.mem_def.mp here, Option.some_or]
    exact startsSolid_dropWhile s c front
  · rw [trim, trimRight, List.reverse_reverse]
    exact startsSolid_dropWhile _
  · rw [List.append_assoc, right, left]

theorem trim_eq_nil : trim s = [] ↔ IsPadding s := by
  constructor
  · intro none
    obtain ⟨before, after, blank, blank', -, eq⟩ := exists_trim s
    rw [none, List.append_nil] at eq
    rw [eq]
    exact blank.append blank'
  · intro blank
    have whole : trim (s ++ [] ++ []) = [] :=
      trim_append blank isTrimmed_nil (by simp [IsPadding])
    simpa using whole

end Text

namespace Command

open Text

/-! ## Layouts -/

/-- The parts of a line. -/
structure Layout where
  before : List Char
  word : List Char
  gap : List Char
  payload : List Char
  after : List Char

namespace Layout

variable {l l' : Layout} {s : List Char}

/-- The line with some parts. -/
def line (l : Layout) : List Char := l.before ++ (l.word ++ (l.gap ++ l.payload)) ++ l.after

/-- A word and a payload with blanks between them, or a word alone, among blanks. -/
structure Sound (l : Layout) : Prop where
  before : IsPadding l.before
  word : IsWord l.word
  gap : IsPadding l.gap
  payload : IsTrimmed l.payload
  alone : l.gap = [] ↔ l.payload = []
  after : IsPadding l.after

theorem startsSolid_word (solid : IsWord s) (rest : List Char) : StartsSolid (s ++ rest) := by
  apply startsSolid_append _ solid.1
  intro c here
  exact solid.2 c (List.mem_of_mem_head? here)

/-- The word ends where a blank follows, or nothing. -/
theorem Sound.stop (sound : l.Sound) : ∀ c ∈ (l.gap ++ l.payload).head?, isBlank c = true := by
  intro c here
  by_cases alone : l.gap = []
  · simp [alone, sound.alone.mp alone] at here
  · rw [List.head?_append_of_ne_nil _ alone] at here
    exact sound.gap c (List.mem_of_mem_head? here)

theorem Sound.trimmed (sound : l.Sound) : IsTrimmed (l.word ++ (l.gap ++ l.payload)) := by
  constructor
  · exact startsSolid_word sound.word _
  · by_cases alone : l.payload = []
    · rw [sound.alone.mpr alone, alone, List.append_nil, List.append_nil]
      intro c here
      exact sound.word.2 c (List.mem_reverse.mp (List.mem_of_mem_head? here))
    · rw [List.reverse_append, List.reverse_append, List.append_assoc]
      exact startsSolid_append sound.payload.back (by simpa using alone) _

theorem Sound.trim_line (sound : l.Sound) : trim l.line = l.word ++ (l.gap ++ l.payload) :=
  trim_append sound.before sound.trimmed sound.after

/-- The trimmed line is cut behind the word. -/
theorem Sound.cut (sound : l.Sound) :
    firstWord (trim l.line) = l.word ∧ afterWord (trim l.line) = l.gap ++ l.payload := by
  have inside : ∀ c ∈ l.word, (!isBlank c) = true := by
    intro c member
    rw [sound.word.2 c member]
    rfl
  have stop : ∀ c ∈ (l.gap ++ l.payload).head?, (!isBlank c) = false := by
    intro c here
    rw [sound.stop c here]
    rfl
  rw [sound.trim_line]
  exact ⟨takeWhile_append inside stop, dropWhile_append inside stop⟩

theorem Sound.payload_eq (sound : l.Sound) : trim (afterWord (trim l.line)) = l.payload := by
  rw [sound.cut.2]
  have whole : trim (l.gap ++ l.payload ++ []) = l.payload :=
    trim_append sound.gap sound.payload (by simp [IsPadding])
  rwa [List.append_nil] at whole

theorem Sound.before_eq (sound : l.Sound) : l.line.takeWhile isBlank = l.before := by
  rw [line, List.append_assoc, List.append_assoc]
  exact takeWhile_append sound.before (startsSolid_word sound.word _)

/-- The parts can be read off the line. -/
theorem Sound.unique (sound : l.Sound) (sound' : l'.Sound) (same : l.line = l'.line) : l = l' := by
  have before : l.before = l'.before := by rw [← sound.before_eq, same, sound'.before_eq]
  have word : l.word = l'.word := by rw [← sound.cut.1, same, sound'.cut.1]
  have payload : l.payload = l'.payload := by rw [← sound.payload_eq, same, sound'.payload_eq]
  have gap : l.gap = l'.gap := by
    have behind : l.gap ++ l.payload = l'.gap ++ l'.payload := by
      rw [← sound.cut.2, same, sound'.cut.2]
    rw [payload] at behind
    exact List.append_cancel_right behind
  have after : l.after = l'.after := by
    rw [line, line, before, word, gap, payload] at same
    exact List.append_cancel_left same
  cases l
  cases l'
  simp_all

theorem firstWord_append (s : List Char) : firstWord s ++ afterWord s = s :=
  List.takeWhile_append_dropWhile

theorem isWord_firstWord (front : StartsSolid s) (some : s ≠ []) : IsWord (firstWord s) := by
  constructor
  · obtain ⟨c, rest, rfl⟩ := List.exists_cons_of_ne_nil some
    simp [firstWord, front c rfl]
  · intro c member
    simpa using List.mem_takeWhile_imp member

/-- The first word is followed by a blank, if by anything. -/
theorem takeWhile_afterWord (some : afterWord s ≠ []) : (afterWord s).takeWhile isBlank ≠ [] := by
  obtain ⟨c, rest, eq⟩ := List.exists_cons_of_ne_nil some
  have blank : isBlank c = true := by
    have stop := List.head?_dropWhile_not (fun c => !isBlank c) s
    rw [← afterWord, eq] at stop
    simpa using stop
  simp [eq, blank]

/-- What ends a text without blanks at its end has none there either. -/
theorem startsSolid_of_suffix {rest text : List Char} (back : StartsSolid text.reverse)
    (eq : text = s ++ rest) : StartsSolid rest.reverse := by
  intro c here
  apply back c
  rw [eq, List.reverse_append, List.head?_append, Option.mem_def.mp here, Option.some_or]
  rfl

/-- A trimmed text that is not empty is a word, or a word, blanks and a payload. -/
theorem exists_parts {text : List Char} (trimmed : IsTrimmed text) (some : text ≠ []) :
    ∃ word gap payload, text = word ++ (gap ++ payload) ∧ IsWord word ∧ IsPadding gap ∧
      IsTrimmed payload ∧ (gap = [] ↔ payload = []) := by
  have cut := firstWord_append text
  have solid := isWord_firstWord trimmed.front some
  by_cases alone : afterWord text = []
  · refine ⟨firstWord text, [], [], ?_, solid, by simp [IsPadding], isTrimmed_nil, Iff.rfl⟩
    rw [alone] at cut
    exact cut.symm
  · have behind : (afterWord text).takeWhile isBlank ++ (afterWord text).dropWhile isBlank =
        afterWord text := List.takeWhile_append_dropWhile
    have back := startsSolid_of_suffix trimmed.back cut.symm
    have payload : (afterWord text).dropWhile isBlank ≠ [] := by
      intro none
      -- Otherwise the text would end with blanks.
      rw [none, List.append_nil] at behind
      have blank := (isPadding_takeWhile (afterWord text)).reverse
      rw [behind] at blank
      obtain ⟨c, rest, eq⟩ := List.exists_cons_of_ne_nil (List.reverse_ne_nil_iff.mpr alone)
      have here := blank c (by rw [eq]; exact List.mem_cons_self)
      rw [back c (by rw [eq]; rfl)] at here
      contradiction
    refine ⟨firstWord text, (afterWord text).takeWhile isBlank, (afterWord text).dropWhile isBlank,
      ?_, solid, isPadding_takeWhile _, ⟨startsSolid_dropWhile _, ?_⟩, ?_⟩
    · rw [behind, cut]
    · exact startsSolid_of_suffix back behind.symm
    · simp [takeWhile_afterWord alone, payload]

theorem exists_sound (some : ¬IsPadding s) : ∃ l : Layout, l.Sound ∧ l.line = s := by
  obtain ⟨before, after, blank, blank', trimmed, eq⟩ := exists_trim s
  obtain ⟨word, gap, payload, parts, solid, between, ends, alone⟩ :=
    exists_parts trimmed (mt trim_eq_nil.mp some)
  refine ⟨⟨before, word, gap, payload, after⟩, ⟨blank, solid, between, ends, alone, blank'⟩, ?_⟩
  rw [line, ← parts, ← eq]

end Layout

/-! ## Reading a line -/

variable {word payload : String} {line : String} {l : Layout}

/-- The words that are not names of user actions. -/
def reserved : List String := ["quit", "exit", "help", "?"]

theorem ofWord_eq_quit : ofWord word payload = .quit ↔ word ∈ ["quit", "exit"] := by
  simp only [ofWord]
  split <;> simp_all
  split <;> simp_all

theorem ofWord_eq_help : ofWord word payload = .help ↔ word ∈ ["help", "?"] := by
  simp only [ofWord]
  split
  · next own =>
      rcases own with rfl | rfl <;> simp
  · split <;> simp_all

theorem ofWord_of_not_mem (action : word ∉ reserved) :
    ofWord word payload = .action word payload := by
  simp only [reserved, List.mem_cons, List.not_mem_nil, or_false, not_or] at action
  simp [ofWord, action]

theorem parse?_eq_none : parse? line = none ↔ IsPadding line.toList := by
  rw [← trim_eq_nil]
  simp [parse?]

theorem parse?_of_sound (sound : l.Sound) (eq : l.line = line.toList) :
    parse? line = some (ofWord (String.ofList l.word) (String.ofList l.payload)) := by
  have some : trim l.line ≠ [] := by
    rw [sound.trim_line]
    simp [sound.word.1]
  rw [parse?, ← eq, if_neg (by simpa using some), sound.cut.1, sound.payload_eq]

/-- A word and a payload of a user action can be laid out with any blanks, and after a word alone
    the blanks do not matter. -/
theorem parse?_of_parts {before word gap payload after : List Char} (blank : IsPadding before)
    (solid : IsWord word) (between : IsPadding gap) (apart : gap = [] → payload = [])
    (trimmed : IsTrimmed payload) (blank' : IsPadding after)
    (eq : line.toList = before ++ word ++ gap ++ payload ++ after) :
    parse? line = some (ofWord (String.ofList word) (String.ofList payload)) := by
  by_cases alone : payload = []
  · subst alone
    exact parse?_of_sound (l := ⟨before, word, [], [], gap ++ after⟩)
      ⟨blank, solid, by simp [IsPadding], isTrimmed_nil, Iff.rfl, between.append blank'⟩
      (by simp [Layout.line, eq])
  · exact parse?_of_sound (l := ⟨before, word, gap, payload, after⟩)
      ⟨blank, solid, between, trimmed, ⟨apart, fun none => absurd none alone⟩, blank'⟩
      (by simp [Layout.line, eq])

/-- What a layout says of its line. -/
structure Layout.Spells (l : Layout) (line : String) : Prop where
  trimmed : trim line.toList = l.word ++ (l.gap ++ l.payload)
  /-- No longer beginning of the trimmed line is without blanks. -/
  longest : ∀ text, text <+: trim line.toList → (∀ c ∈ text, isBlank c = false) → text <+: l.word
  quit : parse? line = some .quit ↔ String.ofList l.word ∈ ["quit", "exit"]
  help : parse? line = some .help ↔ String.ofList l.word ∈ ["help", "?"]
  action : String.ofList l.word ∉ reserved →
    parse? line = some (.action (String.ofList l.word) (String.ofList l.payload))

theorem Layout.Sound.spells (sound : l.Sound) (eq : l.line = line.toList) : l.Spells line where
  trimmed := eq ▸ sound.trim_line
  longest text front solid := by
    rw [← eq, sound.trim_line] at front
    rcases List.prefix_or_prefix_of_prefix front (List.prefix_append _ _) with within | ⟨more, rfl⟩
    · exact within
    · -- A longer beginning goes on with the blank that ends the word.
      obtain ⟨rest, next⟩ := (List.prefix_append_right_inj _).mp front
      cases more with
      | nil => simp
      | cons c more =>
          have blank := sound.stop c (by rw [← next]; rfl)
          rw [solid c (by simp)] at blank
          contradiction
  quit := by rw [parse?_of_sound sound eq, Option.some_inj, ofWord_eq_quit]
  help := by rw [parse?_of_sound sound eq, Option.some_inj, ofWord_eq_help]
  action other := by rw [parse?_of_sound sound eq, ofWord_of_not_mem other]

/-- Each line that is not blank has one layout and the command that it spells, and each user action
    is read from every line that it can be laid out as. -/
theorem parse?_by_layout (line : String) :
    (parse? line = none ↔ IsPadding line.toList) ∧
    (¬IsPadding line.toList → ∃! l : Layout, l.Sound ∧ l.line = line.toList) ∧
    (∀ l : Layout, l.Sound → l.line = line.toList → l.Spells line) ∧
    ∀ before word gap payload after, IsPadding before → IsWord word → IsPadding gap →
      (gap = [] → payload = []) → IsTrimmed payload → IsPadding after →
      String.ofList word ∉ reserved →
      line.toList = before ++ word ++ gap ++ payload ++ after →
      parse? line = some (.action (String.ofList word) (String.ofList payload)) := by
  refine ⟨parse?_eq_none, ?_, fun l sound eq => sound.spells eq, ?_⟩
  · intro some
    obtain ⟨l, sound, eq⟩ := Layout.exists_sound some
    refine ⟨l, ⟨sound, eq⟩, ?_⟩
    rintro l' ⟨sound', eq'⟩
    exact sound'.unique sound (eq'.trans eq.symm)
  · intro before word gap payload after blank solid between apart trimmed blank' other eq
    rw [parse?_of_parts blank solid between apart trimmed blank' eq, ofWord_of_not_mem other]

/-- Blanks of all kinds around a command, and two inside its payload. -/
def spacious : String := "\u3000test\t\u00a0hello  world \u2028"

theorem spacious_read : parse? spacious = some (.action "test" "hello  world") := by
  have before : IsPadding ['\u3000'] := by decide
  have between : IsPadding ['\t', '\u00a0'] := by decide
  have after : IsPadding [' ', '\u2028'] := by decide
  have word : IsWord "test".toList := by
    constructor
    · simp
    · simp
      decide
  have payload : IsTrimmed "hello  world".toList := by
    constructor <;> simp [StartsSolid] <;> decide +kernel
  exact (parse?_by_layout spacious).2.2.2 ['\u3000'] "test".toList ['\t', '\u00a0']
    "hello  world".toList [' ', '\u2028'] before word between (by simp) payload after
    (by decide +kernel) (by decide +kernel)

end Command

end Mvc
