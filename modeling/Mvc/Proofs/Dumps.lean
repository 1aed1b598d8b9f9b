import Mathlib.Data.String.Basic
import Mvc.Proofs.Digits
import Mvc.Proofs.Naming
import Mvc.Proofs.Timestamps
import Mvc.Store.Dump

/-! # Dumps, line by line

A dump is its heading and one item for each property, each of them ended by a line break. The
names are in the order of their bytes: characters are compared by their numbers, a character with
fewer bytes has a smaller first byte, and of two that have equally many the smaller one has the
smaller byte where they first differ.

Names and values are put into the items as they are. So an item is a line unless a line break
stands in the name, in a text that the value holds, or in a key of one of its maps; a limit may cut
off a value before its first line break.
-/

namespace Mvc

namespace Text

/-! ## The order of bytes -/

section

variable {a b : List UInt8} {x y : UInt8} {m n : Nat}

/-- The bytes of a text. -/
def bytes (s : String) : List UInt8 := s.toUTF8.data.toList

/-- Whatever follows, one text comes before the other. -/
def Precedes (a b : List UInt8) : Prop := ∀ s t, a ++ s < b ++ t

/-- The byte that holds the last six bits of a number. -/
def trail (n : Nat) : UInt8 := UInt8.ofNat (n % 64 + 128)

theorem precedes_of_lt (below : x < y) : Precedes (x :: a) (y :: b) := by
  intro s t
  exact List.cons_lt_cons_iff.mpr (.inl below)

theorem Precedes.append (front : Precedes a b) (a' b' : List UInt8) :
    Precedes (a ++ a') (b ++ b') := by
  intro s t
  rw [List.append_assoc, List.append_assoc]
  exact front (a' ++ s) (b' ++ t)

theorem precedes_append_left (behind : Precedes a b) (front : List UInt8) :
    Precedes (front ++ a) (front ++ b) := by
  intro s t
  rw [List.append_assoc, List.append_assoc]
  exact List.append_left_lt (behind s t)

theorem ofNat_lt_ofNat (below : m < n) (small : n < 256) : UInt8.ofNat m < UInt8.ofNat n := by
  rw [UInt8.lt_iff_toNat_lt, UInt8.toNat_ofNat', UInt8.toNat_ofNat']
  omega

theorem precedes_first (below : m < n) (small : n < 256) :
    Precedes (UInt8.ofNat m :: a) (UInt8.ofNat n :: b) :=
  precedes_of_lt (ofNat_lt_ofNat below small)

/-- Numbers in base 64 are compared by their last digits when the others agree. -/
theorem precedes_trail (above : m / 64 < n / 64 → Precedes a b) (same : m / 64 = n / 64 → a = b)
    (below : m < n) : Precedes (a ++ [trail m]) (b ++ [trail n]) := by
  rcases Nat.lt_or_ge (m / 64) (n / 64) with less | more
  · exact (above less).append [trail m] [trail n]
  · obtain rfl := same (by omega)
    apply precedes_append_left
    apply precedes_first <;> omega

/-- The byte that begins the bytes of a number and holds what is left of it. -/
def lead (marker n : Nat) : UInt8 := UInt8.ofNat (n + marker)

theorem precedes_lead {marker : Nat} (below : m < n) (fits : n + marker < 256) :
    Precedes [lead marker m] [lead marker n] :=
  precedes_first (by omega) fits

theorem precedes_two (below : m < n) (fits : n / 64 < 32) :
    Precedes ([lead 192 (m / 64)] ++ [trail m]) ([lead 192 (n / 64)] ++ [trail n]) := by
  refine precedes_trail (fun less => precedes_lead less (by omega)) (fun same => ?_) below
  rw [same]

theorem precedes_three (below : m < n) (fits : n / 64 / 64 < 16) :
    Precedes ([lead 224 (m / 64 / 64)] ++ [trail (m / 64)] ++ [trail m])
      ([lead 224 (n / 64 / 64)] ++ [trail (n / 64)] ++ [trail n]) := by
  refine precedes_trail (precedes_trail (fun less => precedes_lead less (by omega)) ?_)
    (fun same => ?_) below
  · intro same
    rw [same]
  · rw [same]

theorem precedes_four (below : m < n) (fits : n / 64 / 64 / 64 < 8) :
    Precedes
      ([lead 240 (m / 64 / 64 / 64)] ++ [trail (m / 64 / 64)] ++ [trail (m / 64)] ++ [trail m])
      ([lead 240 (n / 64 / 64 / 64)] ++ [trail (n / 64 / 64)] ++ [trail (n / 64)] ++ [trail n]) := by
  refine precedes_trail (precedes_trail (precedes_trail
    (fun less => precedes_lead less (by omega)) ?_) ?_) ?_ below
  all_goals
    intro same
    rw [same]

/-- The bytes of the character with a number. -/
def encoded (n : Nat) : List UInt8 :=
  if n ≤ 127 then [UInt8.ofNat n]
  else if n ≤ 2047 then [lead 192 (n / 64)] ++ [trail n]
  else if n ≤ 65535 then [lead 224 (n / 64 / 64)] ++ [trail (n / 64)] ++ [trail n]
  else [lead 240 (n / 64 / 64 / 64)] ++ [trail (n / 64 / 64)] ++ [trail (n / 64)] ++ [trail n]

theorem number_lt (c : Char) : c.val.toNat < 0x110000 := by
  have valid := c.valid
  unfold UInt32.isValidChar Nat.isValidChar at valid
  omega

theorem utf8EncodeChar_eq (c : Char) : String.utf8EncodeChar c = encoded c.val.toNat := by
  have bound := number_lt c
  unfold String.utf8EncodeChar encoded lead trail
  generalize c.val.toNat = n at *
  dsimp only
  simp only [Nat.div_div_eq_div_mul, List.cons_append, List.nil_append]
  split
  · rfl
  · split
    · rw [Nat.mod_eq_of_lt (show n / 64 < 32 by omega)]
    · split
      · rw [Nat.mod_eq_of_lt (show n / 4096 < 16 by omega)]
      · rw [Nat.mod_eq_of_lt (show n / 262144 < 8 by omega)]

theorem precedes_encoded (below : m < n) (bound : n < 0x110000) :
    Precedes (encoded m) (encoded n) := by
  unfold encoded
  split_ifs
  all_goals try omega
  -- By the number of bytes: where it differs, the first bytes decide.
  · exact precedes_first below (by omega)
  · exact precedes_first (by omega) (by omega)
  · exact precedes_first (by omega) (by omega)
  · exact precedes_first (by omega) (by omega)
  · exact precedes_two below (by omega)
  · exact precedes_first (by omega) (by omega)
  · exact precedes_first (by omega) (by omega)
  · exact precedes_three below (by omega)
  · exact precedes_first (by omega) (by omega)
  · exact precedes_four below (by omega)

theorem bytes_eq (s : String) : bytes s = s.toList.flatMap String.utf8EncodeChar := by
  rw [bytes, String.toUTF8_eq_toByteArray, ← String.utf8Encode_toList, List.utf8Encode,
    List.toList_data_toByteArray]

theorem bytes_lt_of_lt {s t : List Char} (below : s < t) :
    s.flatMap String.utf8EncodeChar < t.flatMap String.utf8EncodeChar := by
  induction s generalizing t with
  | nil =>
      cases t with
      | nil => exact absurd below (List.not_lt_nil _)
      | cons d t =>
          have some : String.utf8EncodeChar d ≠ [] := by
            simp
          obtain ⟨x, more, eq⟩ := List.exists_cons_of_ne_nil some
          rw [List.flatMap_cons, eq]
          exact List.nil_lt_cons _ _
  | cons c s ih =>
      cases t with
      | nil => exact absurd below (List.not_lt_nil _)
      | cons d t =>
          simp only [List.flatMap_cons]
          rcases List.cons_lt_cons_iff.mp below with less | ⟨rfl, later⟩
          · rw [utf8EncodeChar_eq, utf8EncodeChar_eq]
            exact precedes_encoded less (number_lt d) _ _
          · exact List.append_left_lt (ih later)

theorem lt_iff_bytes_lt {s t : String} : s < t ↔ bytes s < bytes t := by
  rw [String.lt_iff_toList_lt, bytes_eq, bytes_eq]
  constructor
  · exact bytes_lt_of_lt
  · intro below
    rcases Std.lt_trichotomy s.toList t.toList with less | same | more
    · exact less
    · rw [same] at below
      exact absurd below (List.lt_irrefl _)
    · exact absurd below (List.lt_asymm (bytes_lt_of_lt more))

end

variable {s t : String} {items : List String}

/-! ## Lines -/

/-- How many line breaks a text has. -/
def breaks (s : String) : Nat := s.toList.count '\n'

/-- The lines of a text: each line break ends one, and the last one is what stands behind them. -/
def lines (s : String) : List String := (pieces (· = '\n') s.toList).map String.ofList

/-- The text of some lines, each of them ended by a line break. -/
def ofLines (items : List String) : String := String.join (items.map (· ++ "\n"))

theorem breaks_eq_zero : breaks s = 0 ↔ '\n' ∉ s.toList := List.count_eq_zero

@[simp] theorem breaks_append (s t : String) : breaks (s ++ t) = breaks s + breaks t := by
  simp [breaks]

theorem ofLines_cons (item : String) (items : List String) :
    ofLines (item :: items) = item ++ "\n" ++ ofLines items := by
  simp [ofLines]

/-- Each line is ended by a line break, and there are the line breaks inside. -/
theorem breaks_ofLines (items : List String) :
    breaks (ofLines items) = items.length + (items.map breaks).sum := by
  induction items with
  | nil => rfl
  | cons item items ih =>
      have one : breaks "\n" = 1 := by decide
      rw [ofLines_cons, breaks_append, breaks_append, ih, one, List.length_cons, List.map_cons,
        List.sum_cons]
      omega

theorem breaks_of_mem_lines (member : t ∈ lines s) : breaks t = 0 := by
  obtain ⟨piece, listed, rfl⟩ := List.mem_map.mp member
  rw [breaks_eq_zero, String.toList_ofList]
  intro here
  simpa using mem_pieces listed _ here

theorem lines_append (whole : breaks s = 0) (t : String) :
    lines (s ++ "\n" ++ t) = s :: lines t := by
  have inside : ∀ c ∈ s.toList, decide (c = '\n') = false := by
    intro c member
    rw [decide_eq_false_iff_not]
    rintro rfl
    exact breaks_eq_zero.mp whole member
  have text : (s ++ "\n" ++ t).toList = s.toList ++ '\n' :: t.toList := by simp
  rw [lines, text, pieces_append (by simp), pieces_of_inside inside, List.map_append,
    List.map_singleton, String.ofList_toList, ← lines, List.singleton_append]

/-- The lines can be read off the text exactly if no line break stands inside of one. -/
theorem lines_ofLines_iff : lines (ofLines items) = items ++ [""] ↔
    ∀ item ∈ items, breaks item = 0 := by
  constructor
  · intro same item member
    apply breaks_of_mem_lines
    rw [same]
    exact List.mem_append_left _ member
  · intro whole
    induction items with
    | nil => rfl
    | cons item items ih =>
        rw [List.forall_mem_cons] at whole
        rw [ofLines_cons, lines_append whole.1, ih whole.2, List.cons_append]

end Text

/-! ## Line breaks in values -/

namespace Rfc3339

theorem newline_not_mem_padded (width n : Nat) : '\n' ∉ padded width n := by
  intro member
  exact absurd (isDigit_of_mem_padded member) (by decide)

theorem newline_not_mem_year (y : Int) : '\n' ∉ year y := by
  rw [year]
  split
  · exact newline_not_mem_padded 4 _
  · split <;> simp [newline_not_mem_padded]

theorem newline_not_mem_fraction (nano : Nat) : '\n' ∉ fraction nano := by
  rw [fraction]
  split_ifs <;> simp [newline_not_mem_padded]

theorem breaks_render (t : Instant) : Text.breaks (render "+00:00" t) = 0 := by
  rw [Text.breaks_eq_zero, render, String.toList_ofList]
  simp [newline_not_mem_year, newline_not_mem_padded, newline_not_mem_fraction]

end Rfc3339

namespace Value

open Text

variable {v : Value} {items : List Value} {entries : List (String × Value)}

theorem newline_not_mem_digits (n : Nat) : '\n' ∉ Decimal.digits n := by
  intro member
  exact absurd ((Decimal.isDigits_digits n).2 _ member) (by decide)

theorem newline_not_mem_place {digits : List Char} (plain : '\n' ∉ digits) (point : Int) :
    '\n' ∉ NumberStyle.place false digits point := by
  have front : '\n' ∉ digits.take point.toNat := fun member => plain (List.mem_of_mem_take member)
  have back : '\n' ∉ digits.drop point.toNat := fun member => plain (List.mem_of_mem_drop member)
  simp only [NumberStyle.place]
  split_ifs <;> simp [front, back]

theorem newline_not_mem_signed {digits : List Char} (negative : Bool) (plain : '\n' ∉ digits) :
    '\n' ∉ (if negative then ['-'] else []) ++ digits := by
  cases negative <;> simpa using plain

theorem breaks_float (x : Binary64) : breaks (NumberStyle.plain.render x) = 0 := by
  rw [NumberStyle.render]
  split
  · rfl
  · split <;> rfl
  · next negative significand exponent _ =>
      have positional : ∀ d, NumberStyle.plain.decimal d =
          NumberStyle.place false (Decimal.digits d.coefficient) (d.leading + 1) := by
        intro d
        simp [NumberStyle.decimal, NumberStyle.plain]
      rw [breaks_eq_zero, String.toList_ofList, positional]
      exact newline_not_mem_signed negative (newline_not_mem_place (newline_not_mem_digits _) _)

theorem breaks_integer (i : Int) : breaks (toString i) = 0 := by
  rw [breaks_eq_zero, Decimal.toList_toString]
  exact newline_not_mem_signed _ (newline_not_mem_digits _)

theorem breaks_commaSeparated (parts : List String) :
    breaks (commaSeparated parts) = (parts.map breaks).sum := by
  have none : breaks ", " = 0 := by decide
  induction parts with
  | nil => rfl
  | cons part parts ih =>
      by_cases last : parts = []
      · simp [last, commaSeparated]
      · rw [commaSeparated, String.intercalate_cons_of_ne_nil last, breaks_append, breaks_append,
          none, ← commaSeparated, ih, List.map_cons, List.sum_cons, Nat.add_zero]

theorem breaks_enclosed {opening closing : String} (none : breaks opening = 0)
    (none' : breaks closing = 0) (parts : List String) :
    breaks (opening ++ commaSeparated parts ++ closing) = (parts.map breaks).sum := by
  rw [breaks_append, breaks_append, none, none', Nat.zero_add, Nat.add_zero, breaks_commaSeparated]

mutual

/-- The texts in a value, at every depth: those that it holds and the keys of its maps. -/
def texts : Value → List String
  | string s => [s]
  | list items => itemsTexts items
  | map entries => entriesTexts entries
  | _ => []

/-- The texts in the items of a list. -/
def itemsTexts : List Value → List String
  | [] => []
  | v :: rest => texts v ++ itemsTexts rest

/-- The texts in the entries of a map. -/
def entriesTexts : List (String × Value) → List String
  | [] => []
  | (key, v) :: rest => key :: (texts v ++ entriesTexts rest)

end

theorem breaks_items (each : ∀ v ∈ items, breaks v.display = (v.texts.map breaks).sum) :
    ((displayItems items).map breaks).sum = ((itemsTexts items).map breaks).sum := by
  induction items with
  | nil => rfl
  | cons v items ih =>
      rw [List.forall_mem_cons] at each
      simp only [displayItems, itemsTexts, List.map_cons, List.map_append, List.sum_cons,
        List.sum_append, each.1, ih each.2]

theorem breaks_entries (each : ∀ e ∈ entries, breaks e.2.display = (e.2.texts.map breaks).sum) :
    ((displayEntries entries).map breaks).sum = ((entriesTexts entries).map breaks).sum := by
  have none : breaks ": " = 0 := by decide
  induction entries with
  | nil => rfl
  | cons e entries ih =>
      rw [List.forall_mem_cons] at each
      simp only [displayEntries, entriesTexts, List.map_cons, List.map_append, List.sum_cons,
        List.sum_append, breaks_append, none, each.1, ih each.2, Nat.add_zero, Nat.add_assoc]

/-- Display text has the line breaks of the texts in the value, and no others. -/
theorem breaks_display (v : Value) : breaks v.display = (v.texts.map breaks).sum := by
  induction v using recParts with
  | scalar v scalar =>
      cases v with
      | null => rfl
      | bool b => cases b <;> rfl
      | integer i => exact breaks_integer i.toInt
      | float x => exact breaks_float x
      | string s => simp [display, texts]
      | timestamp t => exact Rfc3339.breaks_render t
      | list => exact scalar.elim
      | map => exact scalar.elim
  | list items each => rw [display, texts, breaks_enclosed (by decide) (by decide), breaks_items each]
  | map entries each =>
      rw [display, texts, breaks_enclosed (by decide) (by decide), breaks_entries each]

theorem breaks_lossyText (v : Value) : breaks v.lossyText = (v.texts.map breaks).sum := by
  cases v with
  | null => rfl
  | _ => exact breaks_display _

end Value

namespace Store

open Text

variable {options : DumpOptions} {s : Store} {name : String} {value : Value}

/-! ## What a dump lists -/

/-- What a dump shows of a value. -/
def shown (options : DumpOptions) (value : Value) : String :=
  shorten options.maxLength value.lossyText

/-- What stands in a dump for one property. -/
def item (options : DumpOptions) (name : String) (value : Value) : String :=
  indentation options ++ name ++ " = " ++ shown options value ++
    if options.showKinds then " (" ++ value.kind.name ++ ")" else ""

/-- What stands above the properties. -/
def heading (s : Store) : String := "Properties (" ++ toString s.size ++ " total):"

/-- What stands below the heading: the properties by name, or that there are none. -/
def items (options : DumpOptions) (s : Store) : List String :=
  if s.names = [] then [indentation options ++ "(empty)"]
  else s.names.map fun name => item options name (s.get name)

theorem entries_eq (s : Store) : s.values.entries = s.names.map fun name => (name, s.get name) := by
  rw [names, Dict.keys, List.map_map]
  refine (List.map_id _).symm.trans (List.map_congr_left fun e member => ?_)
  have found : s.values.get? e.1 = some e.2 :=
    (Entries.find?_eq_some s.values.ascending).mpr member
  simp [get, found]

theorem size_eq (s : Store) : s.size = s.names.length := by
  rw [size, Dict.size, names, Dict.keys, List.length_map]

theorem dumpLine_eq (options : DumpOptions) (name : String) (value : Value) :
    dumpLine options name value = item options name value ++ "\n" := rfl

theorem dump_eq (options : DumpOptions) (s : Store) :
    s.dump options = ofLines (heading s :: items options s) := by
  have none : s.values.isEmpty = true ↔ s.names = [] := by
    simp [Dict.isEmpty, names, Dict.keys]
  rw [dump, ofLines_cons, heading, items]
  by_cases blank : s.names = []
  · rw [if_pos (none.mpr blank), if_pos blank]
    simp [ofLines, String.append_assoc]
  · rw [if_neg (mt none.mp blank), if_neg blank, entries_eq, ofLines]
    simp [dumpLine_eq, String.append_assoc, Function.comp_def]

theorem length_items (options : DumpOptions) (s : Store) :
    (items options s).length = max 1 s.size := by
  rw [size_eq, items]
  split
  · next blank => simp [blank]
  · next some =>
      have := List.length_pos_iff.mpr some
      rw [List.length_map]
      omega

theorem breaks_indentation (options : DumpOptions) : breaks (indentation options) = 0 := by
  rw [breaks_eq_zero, indentation, String.toList_ofList]
  intro member
  exact absurd (List.eq_of_mem_replicate member) (by decide)

theorem breaks_heading (s : Store) : breaks (heading s) = 0 := by
  have number : breaks (toString s.size) = 0 := Value.breaks_integer s.size
  have none : breaks "Properties (" = 0 ∧ breaks " total):" = 0 := by decide
  rw [heading, breaks_append, breaks_append, number, none.1, none.2]

theorem breaks_item (options : DumpOptions) (name : String) (value : Value) :
    breaks (item options name value) = breaks name + breaks (shown options value) := by
  have none : breaks " = " = 0 := by decide
  have kind : breaks (if options.showKinds then " (" ++ value.kind.name ++ ")" else "") = 0 := by
    split
    · cases value.kind <;> decide
    · decide
  rw [item, breaks_append, breaks_append, breaks_append, breaks_append, kind, none,
    breaks_indentation]
  omega

/-- A name and what is shown of its value have no line breaks. -/
def Unbroken (options : DumpOptions) (s : Store) : Prop :=
  ∀ name ∈ s.names, breaks name + breaks (shown options (s.get name)) = 0

theorem breaks_items (options : DumpOptions) (s : Store) : ((items options s).map breaks).sum =
    (s.names.map fun name => breaks name + breaks (shown options (s.get name))).sum := by
  rw [items]
  split
  · next blank =>
      have none : breaks "(empty)" = 0 := by decide
      simp [blank, breaks_indentation, none]
  · simp [breaks_item, Function.comp_def]

theorem breaks_shorten_le (maxLength : Option Nat) (s : String) :
    breaks (shorten maxLength s) ≤ breaks s := by
  cases maxLength with
  | none => exact Nat.le_refl _
  | some n =>
      rw [shorten]
      split
      · have none : breaks "..." = 0 := by decide
        rw [breaks_append, none, Nat.add_zero, breaks, String.toList_ofList]
        exact (List.take_sublist n s.toList).count_le _
      · exact Nat.le_refl _

theorem sum_eq_zero_iff_unbroken : (s.names.map fun name =>
    breaks name + breaks (shown options (s.get name))).sum = 0 ↔ Unbroken options s := by
  rw [List.sum_eq_zero_iff_forall_eq_nat, Unbroken, List.forall_mem_map]

/-- How a text lists the properties of a store. -/
structure Listing (options : DumpOptions) (s : Store) (text : String) : Prop where
  /-- The text is the heading and the items, each ended by a line break. -/
  text_eq : text = ofLines (heading s :: items options s)
  length_items : (items options s).length = max 1 s.size
  /-- The item of a property is made of its name and its value. -/
  item_eq : ∀ (i : Nat) (name : String), s.names[i]? = some name →
    (items options s)[i]? = some (item options name (s.get name))
  empty : s.size = 0 → items options s = [indentation options ++ "(empty)"]
  ascending : (s.names.map bytes).Pairwise (· < ·)
  /-- Names and values bring their own line breaks. -/
  breaks_eq : breaks text = 1 + max 1 s.size +
    (s.names.map fun name => breaks name + breaks (shown options (s.get name))).sum
  breaks_iff : breaks text = 1 + max 1 s.size ↔ Unbroken options s
  lines_iff : lines text = heading s :: items options s ++ [""] ↔ Unbroken options s

theorem names_ascending (s : Store) : (s.names.map bytes).Pairwise (· < ·) := by
  have ascending : s.names.Pairwise (· < ·) := List.pairwise_map.mpr s.values.ascending
  exact List.pairwise_map.mpr (ascending.imp lt_iff_bytes_lt.mp)

theorem dump_listing (options : DumpOptions) (s : Store) : Listing options s (s.dump options) := by
  have count : breaks (s.dump options) = 1 + max 1 s.size +
      (s.names.map fun name => breaks name + breaks (shown options (s.get name))).sum := by
    rw [dump_eq, breaks_ofLines, List.map_cons, List.sum_cons, breaks_heading, List.length_cons,
      length_items, breaks_items]
    omega
  refine ⟨dump_eq options s, length_items options s, ?_, ?_, names_ascending s, count, ?_, ?_⟩
  · intro i name here
    have some : s.names ≠ [] := by
      intro none
      simp [none] at here
    rw [items, if_neg some, List.getElem?_map, here, Option.map_some]
  · intro none
    rw [items, if_pos (List.length_eq_zero_iff.mp (size_eq s ▸ none))]
  · rw [count, ← sum_eq_zero_iff_unbroken]
    omega
  · rw [dump_eq, lines_ofLines_iff, List.forall_mem_cons, ← sum_eq_zero_iff_unbroken, ← breaks_items,
      List.sum_eq_zero_iff_forall_eq_nat, List.forall_mem_map]
    exact and_iff_right (breaks_heading s)

/-- A dump has one line per property exactly if no line break stands in a name or in what is shown
    of a value, and this is so for all options exactly if none stands in a text anywhere in the
    store. There is no dump if the indentation is too wide. -/
theorem dump?_by_line (s : Store) :
    (∀ options, ∃ text, Listing options s text ∧
      s.dump? options = if options.indent ≤ DumpOptions.widest then some text else none) ∧
    ((∀ options, Unbroken options s) ↔
      ∀ name ∈ s.names, ∀ t ∈ name :: (s.get name).texts, breaks t = 0) := by
  constructor
  · intro options
    exact ⟨s.dump options, dump_listing options s, rfl⟩
  · have total : ∀ name, (∀ t ∈ name :: (s.get name).texts, breaks t = 0) ↔
        breaks name + breaks (s.get name).lossyText = 0 := by
      intro name
      rw [List.forall_mem_cons, Value.breaks_lossyText, Nat.add_eq_zero_iff,
        List.sum_eq_zero_iff_forall_eq_nat, List.forall_mem_map]
    constructor
    · intro all name member
      -- Without a limit a value is shown as it is.
      exact (total name).mpr (all .minimal name member)
    · intro none options name member
      have whole := (total name).mp (none name member)
      have less := breaks_shorten_le options.maxLength (s.get name).lossyText
      rw [shown]
      omega

/-- A property whose text has two lines. -/
def twoLines : Store := empty.write "a" (.string "x\ny")

theorem broken_line : twoLines.size = 1 ∧
    twoLines.dump? .standard = some "Properties (1 total):\n  a = x\ny (string)\n" ∧
    breaks (twoLines.dump .standard) = 3 ∧
    twoLines.dump? ⟨true, none, 65536⟩ = none := by
  decide +kernel

end Store

end Mvc
