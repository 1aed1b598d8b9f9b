import Mvc.Proofs.JsonNumbers
import Mvc.Proofs.Parts

/-! # JSON text comes back

What the writer makes of a value, the reader takes off the front of any text that goes on with the
end of a value. It gives the value back, apart from points in time and doubles, as long as lists
and maps nest no deeper than the reader follows them; else it gives nothing. Where the writer puts
blanks is up to the layout, and the reader passes over them.

JSON text has no tags, so the kind of a value is read off its form, at every depth: what stands in
quotes is a string, whatever it says, and a number without a point and an exponent is an integer if
it is in range. A value that is made of truth values, integers, strings, lists and maps comes back
as it was (`plain_comes_back`), and a string that looks like a number, a point in time or `null` is
still a string.
-/

namespace Mvc.Json

open Value

variable {s t rest text : List Char} {depth : Nat} {v : Value}

/-! ## Strings -/

/-- A control character without a short escape is written with two hexadecimal digits. -/
theorem hexWord?_control : ∀ n < 32, n ∉ [8, 9, 10, 12, 13] → ∃ h l,
    escapeChar (Char.ofNat n) = ['\\', 'u', '0', '0', h, l] ∧ hexWord? '0' '0' h l = some n := by
  intro n control long
  have text : escapeChar (Char.ofNat n) =
      ['\\', 'u', '0', '0', if n < 16 then '0' else '1', Nat.digitChar (n % 16)] := by
    revert n
    decide
  refine ⟨_, _, text, ?_⟩
  clear text
  revert n
  decide

/-- What is written for a character is read as that character. -/
theorem stringRest?_escapeChar (c : Char) (s : List Char) :
    stringRest? (escapeChar c ++ s) =
      (stringRest? s).map fun (text, s) => (c :: text, s) := by
  by_cases short : c ∈ ['"', '\\', '\n', '\r', '\t', '\x08', '\x0c']
  · simp only [List.mem_cons, List.not_mem_nil, or_false] at short
    rcases short with rfl | rfl | rfl | rfl | rfl | rfl | rfl <;>
      simp [escapeChar, stringRest?, shortEscape?]
  · by_cases control : c.toNat < 32
    · have long : c.toNat ∉ [8, 9, 10, 12, 13] := by
        intro listed
        rw [← Char.ofNat_toNat c] at short
        simp only [List.mem_cons, List.not_mem_nil, or_false] at listed
        rcases listed with eq | eq | eq | eq | eq <;> rw [eq] at short <;>
          exact absurd short (by decide)
      obtain ⟨h, l, text, value⟩ := hexWord?_control c.toNat control long
      rw [Char.ofNat_toNat] at text
      have plain : plainChar? c.toNat = some c := by
        rw [plainChar?, if_neg (by omega), Char.ofNat_toNat]
      rw [text]
      simp [stringRest?, value, plain]
    · simp only [List.mem_cons, List.not_mem_nil, or_false, not_or] at short
      have text : escapeChar c = [c] := by simp [escapeChar, short, control]
      rw [text, List.singleton_append, stringRest?.eq_def]
      split <;> simp_all

theorem stringRest?_escaped (text rest : List Char) :
    stringRest? (text.flatMap escapeChar ++ '"' :: rest) = some (text, rest) := by
  induction text with
  | nil => simp [stringRest?]
  | cons c text ih => simp [stringRest?_escapeChar, ih]

/-! ## Blanks -/

theorem skipBlanks_cons {c : Char} (solid : isBlank c = false) (s : List Char) :
    skipBlanks (c :: s) = c :: s := by simp [skipBlanks, solid]

theorem skipBlanks_skipBlanks (s : List Char) : skipBlanks (skipBlanks s) = skipBlanks s :=
  List.dropWhile_idempotent ..

theorem skipBlanks_append (blank : ∀ c ∈ s, isBlank c = true) (t : List Char) :
    skipBlanks (s ++ t) = skipBlanks t :=
  List.dropWhile_append_of_pos blank

theorem isBlank_of_mem_newLine {c : Char} {level : Nat} (member : c ∈ newLine level) :
    isBlank c = true := by
  rcases List.mem_cons.mp member with rfl | member
  · rfl
  · rw [List.eq_of_mem_replicate member]
    rfl

theorem value?_skipBlanks (depth : Nat) (s : List Char) :
    value? depth (skipBlanks s) = value? depth s := by
  unfold value?
  rw [skipBlanks_skipBlanks]

theorem value?_append (depth : Nat) (blank : ∀ c ∈ s, isBlank c = true) (t : List Char) :
    value? depth (s ++ t) = value? depth t := by
  rw [← value?_skipBlanks, skipBlanks_append blank, value?_skipBlanks]

/-! ## Lists and maps -/

variable {read : ValueReader} {line : Value → List Char} {back : Value → Value}
  {fits : Value → Prop} [DecidablePred fits] {items : List Value}
  {entries : List (String × Value)} {entryLine : String × Value → List Char}

theorem sequential_items (read : ValueReader) : Sequential read skipBlanks ']' (items? read) where
  refused := by
    intro fuel s none
    simp [items?, none]
  last := by
    intro fuel s v t rest item bracket
    simp [items?, item, bracket]
  next := by
    intro fuel s v t rest item comma
    simp [items?, item, comma]

theorem sequential_entries (read : ValueReader) :
    Sequential ( entry? read) skipBlanks '\x7d' (entries? read) where
  refused := by
    intro fuel s none
    simp [entries?, none]
  last := by
    intro fuel s e t rest item bracket
    simp [entries?, item, bracket]
  next := by
    intro fuel s e t rest item comma
    simp [entries?, item, comma]

/-- Readers of values drop the blanks in front of them. -/
def Skips {α : Type} (read : List Char → Option α) : Prop := ∀ s, read (skipBlanks s) = read s

theorem skips_value? (depth : Nat) : Skips (value? depth) := value?_skipBlanks depth

theorem skips_entry? (read : ValueReader) : Skips ( entry? read) := by
  intro s
  rw [ entry?, skipBlanks_skipBlanks, ← entry?]

theorem items?_skipBlanks (skips : Skips read) (fuel : Nat) (s : List Char) :
    items? read fuel (skipBlanks s) = items? read fuel s := by
  cases fuel <;> simp [items?, skips s]

theorem entries?_skipBlanks (fuel : Nat) (s : List Char) :
    entries? read fuel (skipBlanks s) = entries? read fuel s := by
  cases fuel <;> simp [entries?, skips_entry? read s]

/-- A list behind its bracket. -/
theorem array?_intercalate (skips : Skips read) (nonempty : items ≠ [])
    (opens : ∀ v ∈ items, ∀ rest, Closes rest → (skipBlanks (line v ++ rest)).head? ≠ some ']')
    (reads : ∀ v ∈ items, ∀ rest, Closes rest → read (line v ++ rest) =
      if fits v then some (back v, rest) else none)
    (closes : Closes t) (bracket : skipBlanks t = ']' :: rest) :
    array? read ([','].intercalate (items.map line) ++ t) =
      if ∀ v ∈ items, fits v then some (.list (items.map back), rest) else none := by
  have enough := length_le_dropWhile (p := isBlank) (by rfl) (by rfl) (items.map line) bracket
  rw [List.length_map] at enough
  have all := (sequential_items read).read (skipBlanks_cons (by rfl)) nonempty enough reads closes
    bracket
  obtain ⟨v, more, rfl⟩ := List.exists_cons_of_ne_nil nonempty
  obtain ⟨after, closes', text⟩ := intercalate_cons closes (line v) (more.map line)
  have front := opens v (by simp) after closes'
  rw [← text, ← List.map_cons] at front
  rw [array?]
  split
  · next bracket' => exact absurd (bracket' ▸ rfl) front
  · rw [items?_skipBlanks skips]
    exact (congrArg _ all).trans (by split <;> rfl)

/-- A map behind its brace, when the keys stand in order. -/
theorem object?_intercalate (back : Value → Value) (fits : Value → Prop) [DecidablePred fits]
    (nonempty : entries ≠ []) (ascending : Ascending entries)
    (opens : ∀ e ∈ entries, ∀ rest, (skipBlanks (entryLine e ++ rest)).head? ≠ some '\x7d')
    (reads : ∀ e ∈ entries, ∀ rest, Closes rest → entry? read (entryLine e ++ rest) =
      if fits e.2 then some ((e.1, back e.2), rest) else none)
    (closes : Closes t) (bracket : skipBlanks t = '\x7d' :: rest) :
    object? read ([','].intercalate (entries.map entryLine) ++ t) =
      if ∀ e ∈ entries, fits e.2 then some (.map (entries.map fun e => (e.1, back e.2)), rest)
      else none := by
  have enough := length_le_dropWhile (p := isBlank) (by rfl) (by rfl) (entries.map entryLine) bracket
  rw [List.length_map] at enough
  have all := (sequential_entries read).read (skipBlanks_cons (by rfl)) nonempty enough reads closes
    bracket
  have ordered := Entries.ofList_of_ascending (Entries.ascending_map back ascending)
  obtain ⟨e, more, rfl⟩ := List.exists_cons_of_ne_nil nonempty
  obtain ⟨after, -, text⟩ := intercalate_cons closes (entryLine e) (more.map entryLine)
  have front := opens e (by simp) after
  rw [← text, ← List.map_cons] at front
  rw [object?]
  split
  · next bracket' => exact absurd (bracket' ▸ rfl) front
  · rw [entries?_skipBlanks]
    refine (congrArg _ all).trans ?_
    split
    · exact congrArg (fun entries => some (Value.map entries, rest)) ordered
    · rfl

theorem entry?_append (blank : ∀ c ∈ s, isBlank c = true) (key : String) (t : List Char) :
    entry? read (s ++ (writeString key ++ ':' :: t)) =
      (read t).map fun (v, rest) => ((key, v), rest) := by
  rw [ entry?, skipBlanks_append blank, writeString, List.cons_append, List.cons_append,
    skipBlanks_cons (by rfl), List.append_assoc, List.singleton_append]
  simp only [stringRest?_escaped, skipBlanks_cons (c := ':') (by rfl), String.ofList_toList]

/-! ## Layouts -/

theorem value?_string (depth : Nat) (text : String) (rest : List Char) :
    value? depth (writeString text ++ rest) = some (.string text, rest) := by
  have quoted : value? depth ('"' :: (text.toList.flatMap escapeChar ++ '"' :: rest)) =
      (stringRest? (text.toList.flatMap escapeChar ++ '"' :: rest)).map fun (text, s) =>
        (.string (String.ofList text), s) := by cases depth <;> rfl
  rw [writeString, List.cons_append, List.cons_append, List.append_assoc, List.singleton_append]
  exact quoted.trans (by simp [stringRest?_escaped])

/-- A value without parts. -/
theorem value?_writeScalar (depth : Nat) (scalar : IsScalar v) (closes : Closes rest) :
    value? depth (writeScalar v ++ rest) = some (v.reread rereadDouble, rest) := by
  cases v with
  | null => exact value?_null depth rest
  | bool b => cases b <;> cases depth <;> rfl
  | integer i => exact value?_integer depth i closes
  | float x => exact value?_render depth x closes
  | string text => exact value?_string depth text rest
  | timestamp t => exact value?_string depth _ rest
  | list items => cases scalar
  | map entries => cases scalar

theorem value?_list (depth : Nat) (s : List Char) :
    value? (depth + 1) ('[' :: s) = array? (value? depth) s := rfl

theorem value?_list_zero (s : List Char) : value? 0 ('[' :: s) = none := rfl

theorem value?_map (depth : Nat) (s : List Char) :
    value? (depth + 1) ('\x7b' :: s) = object? (value? depth) s := rfl

theorem value?_map_zero (s : List Char) : value? 0 ('\x7b' :: s) = none := rfl

theorem value?_closed (depth : Nat) (s : List Char) : value? depth (']' :: s) = none := by
  cases depth <;> rfl

/-- A form of text, with or without blanks before the parts of lists and maps. -/
structure Layout where
  /-- The text of a value that begins at a level. -/
  write : (level : Nat) → Value → List Char
  /-- What stands before a part or a closing bracket at a level. -/
  line : (level : Nat) → List Char
  /-- What stands behind a colon. -/
  gap : List Char
  blank_line : ∀ level, ∀ c ∈ line level, isBlank c = true
  blank_gap : ∀ c ∈ gap, isBlank c = true
  closes_line : ∀ level s, Closes s → Closes (line level ++ s)
  scalar : ∀ level v, IsScalar v → write level v = writeScalar v
  list_nil : ∀ level, write level (.list []) = ['[', ']']
  list : ∀ level items, items ≠ [] → write level (.list items) =
    '[' :: [','].intercalate (items.map fun v => line (level + 1) ++ write (level + 1) v) ++
      line level ++ [']']
  map_nil : ∀ level, write level (.map []) = ['\x7b', '\x7d']
  map : ∀ level entries, entries ≠ [] → write level (.map entries) =
    '\x7b' :: [','].intercalate (entries.map fun e =>
      line (level + 1) ++ (writeString e.1 ++ ':' :: gap ++ write (level + 1) e.2)) ++
      line level ++ ['\x7d']

namespace Layout

variable (l : Layout)

theorem skipBlanks_line (level : Nat) {c : Char} (solid : isBlank c = false) (s : List Char) :
    skipBlanks (l.line level ++ c :: s) = c :: s := by
  rw [skipBlanks_append (l.blank_line level), skipBlanks_cons solid]

/-- No value begins like the end of a list. -/
theorem head?_write (level : Nat) (v : Value) (closes : Closes rest) :
    (skipBlanks (l.write level v ++ rest)).head? ≠ some ']' := by
  have ofScalar : IsScalar v → (skipBlanks (l.write level v ++ rest)).head? ≠ some ']' := by
    intro scalar front
    rw [l.scalar level v scalar] at front
    obtain ⟨s, eq⟩ := List.head?_eq_some_iff.mp front
    have read := value?_writeScalar 0 scalar closes
    rw [← value?_skipBlanks, eq, value?_closed] at read
    cases read
  cases v with
  | list items =>
      by_cases nonempty : items = []
      · simp [nonempty, l.list_nil, skipBlanks, isBlank]
      · simp [l.list level items nonempty, skipBlanks, isBlank]
  | map entries =>
      by_cases nonempty : entries = []
      · simp [nonempty, l.map_nil, skipBlanks, isBlank]
      · simp [l.map level entries nonempty, skipBlanks, isBlank]
  | _ => exact ofScalar trivial

/-- A value is read off the front of its text, or refused for its depth. -/
def Reads (depth level : Nat) (v : Value) : Prop := ∀ rest, Closes rest →
  value? depth (l.write level v ++ rest) =
    if v.depth ≤ depth then some (v.reread rereadDouble, rest) else none

variable {l}

theorem reads_list (nonempty : items ≠ []) {level : Nat}
    (reads : ∀ v ∈ items, l.Reads depth (level + 1) v) : l.Reads (depth + 1) level (.list items) := by
  intro rest closes
  have opens : ∀ v ∈ items, ∀ rest, Closes rest → (skipBlanks (l.line (level + 1) ++
      l.write (level + 1) v ++ rest)).head? ≠ some ']' := by
    intro v listed rest closes
    rw [List.append_assoc, skipBlanks_append (l.blank_line _)]
    exact l.head?_write (level + 1) v closes
  have lines : ∀ v ∈ items, ∀ rest, Closes rest → value? depth (l.line (level + 1) ++
      l.write (level + 1) v ++ rest) =
      if v.depth ≤ depth then some (v.reread rereadDouble, rest) else none := by
    intro v listed rest closes
    rw [List.append_assoc, value?_append depth (l.blank_line _)]
    exact reads v listed rest closes
  rw [l.list level items nonempty, List.append_assoc, List.append_assoc, List.cons_append,
    List.singleton_append, value?_list,
    array?_intercalate (skips_value? depth) nonempty opens lines
      (l.closes_line level _ (closes_cons (by simp))) (l.skipBlanks_line level (by rfl) rest),
    Value.depth, Value.reread, rereadItems_eq]
  refine if_congr ?_ rfl rfl
  rw [Nat.add_le_add_iff_right, itemsDepth_le]

theorem reads_map (nonempty : entries ≠ []) (ascending : Ascending entries) {level : Nat}
    (reads : ∀ e ∈ entries, l.Reads depth (level + 1) e.2) :
    l.Reads (depth + 1) level (.map entries) := by
  intro rest closes
  have opens : ∀ e ∈ entries, ∀ rest, (skipBlanks (l.line (level + 1) ++
      (writeString e.1 ++ ':' :: l.gap ++ l.write (level + 1) e.2) ++ rest)).head? ≠
        some '\x7d' := by
    intro e listed rest
    rw [List.append_assoc, skipBlanks_append (l.blank_line _)]
    simp [writeString, skipBlanks, isBlank]
  have lines : ∀ e ∈ entries, ∀ rest, Closes rest →
      entry? (value? depth) (l.line (level + 1) ++
        (writeString e.1 ++ ':' :: l.gap ++ l.write (level + 1) e.2) ++ rest) =
      if e.2.depth ≤ depth then some ((e.1, e.2.reread rereadDouble), rest) else none := by
    intro e listed rest closes
    have value := reads e listed rest closes
    rw [← value?_append depth l.blank_gap] at value
    rw [List.append_assoc, List.append_assoc, List.append_assoc, List.cons_append,
      entry?_append (l.blank_line _)]
    refine (congrArg _ value).trans ?_
    split <;> rfl
  rw [l.map level entries nonempty, List.append_assoc, List.append_assoc, List.cons_append,
    List.singleton_append, value?_map,
    object?_intercalate (Value.reread rereadDouble) (fun v => v.depth ≤ depth) nonempty ascending
      opens lines (l.closes_line level _ (closes_cons (by simp)))
      (l.skipBlanks_line level (by rfl) rest),
    Value.depth, Value.reread, rereadEntries_eq]
  refine if_congr ?_ rfl rfl
  rw [Nat.add_le_add_iff_right, entriesDepth_le]

/-- A value whose maps are in order is read back, or refused for its depth. -/
theorem reads_of_wellFormed (sound : v.WellFormed) (depth level : Nat) : l.Reads depth level v := by
  induction v using recParts generalizing depth level with
  | scalar v scalar =>
      intro rest closes
      rw [l.scalar level v scalar, value?_writeScalar depth scalar closes,
        depth_of_isScalar scalar, if_pos (Nat.zero_le depth)]
  | list items ih =>
      rw [wellFormed_list] at sound
      by_cases nonempty : items = []
      · intro rest closes
        subst nonempty
        cases depth <;> simp [l.list_nil, value?_list_zero, value?_list, array?,
          skipBlanks, isBlank, Value.depth, itemsDepth, Value.reread, rereadItems]
      · cases depth with
        | zero =>
            intro rest closes
            simp [l.list level items nonempty, value?_list_zero, Value.depth]
        | succ depth =>
            exact reads_list nonempty fun v listed => ih v listed (sound v listed) depth (level + 1)
  | map entries ih =>
      rw [wellFormed_map] at sound
      by_cases nonempty : entries = []
      · intro rest closes
        subst nonempty
        cases depth <;> simp [l.map_nil, value?_map_zero, value?_map, object?,
          skipBlanks, isBlank, Value.depth, entriesDepth, Value.reread, rereadEntries]
      · cases depth with
        | zero =>
            intro rest closes
            simp [l.map level entries nonempty, value?_map_zero, Value.depth]
        | succ depth =>
            exact reads_map nonempty sound.1 fun e listed =>
              ih e listed (sound.2 e listed) depth (level + 1)

/-- A whole text denotes the value that it was made of, unless lists and maps nest too deep. -/
theorem parse?_write (l : Layout) (sound : v.WellFormed) : parse? (String.ofList (l.write 0 v)) =
    if v.depth ≤ depthLimit then some (v.reread rereadDouble) else none := by
  have whole := reads_of_wellFormed (l := l) sound depthLimit 0 [] closes_nil
  rw [List.append_nil] at whole
  rw [parse?, String.toList_ofList, whole]
  by_cases shallow : v.depth ≤ depthLimit
  · rw [if_pos shallow, if_pos shallow]
    rfl
  · rw [if_neg shallow, if_neg shallow]

end Layout

/-! ## Compact text -/

theorem writeItems_eq (items : List Value) :
    writeItems items = [','].intercalate (items.map write) := by
  induction items with
  | nil => rfl
  | cons v items ih =>
      cases items with
      | nil => simp [writeItems]
      | cons w items => rw [writeItems, ih] <;> simp [List.intercalate_cons_cons]

theorem writeEntries_eq (entries : List (String × Value)) : writeEntries entries =
    [','].intercalate (entries.map fun e => writeString e.1 ++ ':' :: write e.2) := by
  induction entries with
  | nil => rfl
  | cons e entries ih =>
      cases entries with
      | nil => simp [writeEntries]
      | cons e' entries => rw [writeEntries, ih] <;> simp [List.intercalate_cons_cons]

/-- Text without blanks. -/
def compactLayout : Layout where
  write _ := write
  line _ := []
  gap := []
  blank_line := nofun
  blank_gap := nofun
  closes_line _ _ := id
  scalar _ v scalar := by cases v <;> first | rfl | cases scalar
  list_nil _ := rfl
  list _ items _ := by simp [write, writeItems_eq]
  map_nil _ := rfl
  map _ entries _ := by simp [write, writeEntries_eq]

theorem parse?_compact (sound : v.WellFormed) : parse? (compact v) =
    if v.depth ≤ depthLimit then some (v.reread rereadDouble) else none :=
  compactLayout.parse?_write sound

/-! ## Indented text -/

theorem writeItemLines_eq (level : Nat) (items : List Value) :
    writeItemLines level items =
      [','].intercalate (items.map fun v => newLine level ++ writeIndented level v) := by
  induction items with
  | nil => rfl
  | cons v items ih =>
      cases items with
      | nil => simp [writeItemLines]
      | cons w items => rw [writeItemLines, ih] <;> simp [List.intercalate_cons_cons]

theorem writeEntryLines_eq (level : Nat) (entries : List (String × Value)) :
    writeEntryLines level entries = [','].intercalate (entries.map fun e =>
      newLine level ++ (writeString e.1 ++ ':' :: [' '] ++ writeIndented level e.2)) := by
  induction entries with
  | nil => rfl
  | cons e entries ih =>
      cases entries with
      | nil => simp [writeEntryLines]
      | cons e' entries => rw [writeEntryLines, ih] <;> simp [List.intercalate_cons_cons]

/-- Text with one part a line. -/
def indentedLayout : Layout where
  write := writeIndented
  line := newLine
  gap := [' ']
  blank_line _ _ := isBlank_of_mem_newLine
  blank_gap := by simp [isBlank]
  closes_line _ _ _ := closes_cons (by simp)
  scalar _ v scalar := by cases v <;> first | rfl | cases scalar
  list_nil _ := rfl
  list level items nonempty := by
    rw [← writeItemLines_eq, writeIndented]
    exact nonempty
  map_nil _ := rfl
  map level entries nonempty := by
    rw [← writeEntryLines_eq, writeIndented]
    exact nonempty

theorem parse?_indented (sound : v.WellFormed) : parse? (indented v) =
    if v.depth ≤ depthLimit then some (v.reread rereadDouble) else none :=
  indentedLayout.parse?_write sound

end Mvc.Json

namespace Mvc

/-! ## Plain values -/

namespace Value

/-- A value without doubles and points in time, which have no form of their own in a text. -/
inductive Plain : Value → Prop
  | null : Plain .null
  | bool (b : Bool) : Plain (.bool b)
  | integer (i : Int64) : Plain (.integer i)
  | string (s : String) : Plain (.string s)
  | list {items : List Value} (each : ∀ v ∈ items, Plain v) : Plain (.list items)
  | map {entries : List (String × Value)} (each : ∀ e ∈ entries, Plain e.2) : Plain (.map entries)

/-- Whatever becomes of doubles, a text changes nothing else. -/
theorem Plain.reread {v : Value} (plain : v.Plain) (double : Binary64 → Value) :
    v.reread double = v := by
  induction plain with
  | null | bool | integer | string => rfl
  | list each ih => rw [Value.reread, rereadItems_eq, List.map_congr_left ih, List.map_id']
  | @map entries each ih =>
      have same : ∀ e ∈ entries, (e.1, e.2.reread double) = e := fun e member =>
        congrArg (Prod.mk e.1) (ih e member)
      rw [Value.reread, rereadEntries_eq, List.map_congr_left same, List.map_id']

end Value

/-! ## Plain values come back -/

namespace Json

/-- A plain value comes back as it was from either layout of its text, as long as lists and maps
    nest no deeper than they are read; a value that nests deeper is refused. -/
theorem plain_comes_back {v : Value} (sound : v.WellFormed) (plain : v.Plain) :
    ∀ text ∈ [compact v, indented v],
      parse? text = if v.depth ≤ depthLimit then some v else none := by
  intro text form
  simp only [List.mem_cons, List.not_mem_nil, or_false] at form
  rcases form with rfl | rfl
  · rw [parse?_compact sound, plain.reread]
  · rw [parse?_indented sound, plain.reread]

/-- Strings that look like other values, beside those values. -/
def lookalikes : Value :=
  .map [("1", .list [.string "-9223372036854775808", .integer Int64.minValue, .string "null", .null]),
    ("2024-05-01T12:00:00Z", .string "2024-05-01T12:00:00Z"), ("true", .list [.bool true])]

theorem lookalikes_come_back : lookalikes.WellFormed ∧ lookalikes.Plain ∧ lookalikes.depth = 2 ∧
    parse? (compact lookalikes) = some lookalikes := by
  have sound : lookalikes.WellFormed := by
    refine Value.wellFormed_map.mpr ⟨?_, by simp [Value.WellFormed, Value.ItemsWellFormed]⟩
    unfold Ascending
    decide
  have plain : lookalikes.Plain := by
    refine .map ?_
    simp only [List.forall_mem_cons, List.not_mem_nil, false_implies, implies_true, and_true]
    refine ⟨.list ?_, .string _, .list ?_⟩
    · simp only [List.forall_mem_cons, List.not_mem_nil, false_implies, implies_true, and_true]
      exact ⟨.string _, .integer _, .string _, .null⟩
    · simp only [List.forall_mem_cons, List.not_mem_nil, false_implies, implies_true, and_true]
      exact .bool _
  have shallow : lookalikes.depth = 2 := rfl
  refine ⟨sound, plain, shallow, ?_⟩
  rw [plain_comes_back sound plain _ List.mem_cons_self, shallow]
  rfl

end Json

end Mvc
