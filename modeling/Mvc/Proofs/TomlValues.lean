import Mvc.Proofs.Parts
import Mvc.Proofs.TomlNumbers
import Mvc.Proofs.TomlStrings

/-! # Values in TOML come back

Behind an equals sign and inside lists a value stands in one piece. The reader takes it off the
front of any text that goes on with the end of a value, and gives it back, apart from points in
time and doubles, as long as lists and maps nest no deeper than the reader follows them.
-/

namespace Mvc.Toml

open Value

variable {c : Char} {s t rest : List Char} {fuel depth : Nat} {v : Value} {items : List Value}
  {entries : List (String × Value)} {read : ValueReader}

/-! ## Space between values -/

/-- A character that is no space and begins none. -/
def IsSolid (c : Char) : Prop := isBlank c = false ∧ c ∉ ['\n', '\r', '#']

theorem solid_mark : IsSolid ',' ∧ IsSolid ']' := by simp [IsSolid, isBlank]

theorem skipBlanks_skipBlanks (s : List Char) : skipBlanks (skipBlanks s) = skipBlanks s :=
  List.dropWhile_idempotent ..

theorem skipBlanks_blank (s : List Char) : skipBlanks (' ' :: s) = skipBlanks s := rfl

theorem skipComment_solid (solid : IsSolid c) (s : List Char) :
    skipComment (c :: s) = c :: s := by
  have noMark : c ≠ '#' := by
    rintro rfl
    exact solid.2 (by simp)
  rw [skipComment.eq_def]
  split <;> simp_all

theorem newLine?_solid (solid : IsSolid c) (s : List Char) : newLine? (c :: s) = none := by
  have others := solid.2
  simp only [List.mem_cons, List.not_mem_nil, or_false, not_or] at others
  exact newLine?_cons others.1 others.2.1 s

theorem skipLines_solid (solid : IsSolid c) (fuel : Nat) (s : List Char) :
    skipLines fuel (c :: s) = c :: s := by
  cases fuel with
  | zero => rfl
  | succ fuel => simp [skipLines, skipBlanks_cons solid.1, skipComment_solid solid,
      newLine?_solid solid]

theorem skipLines_skipBlanks (fuel : Nat) (s : List Char) :
    skipLines (fuel + 1) (skipBlanks s) = skipLines (fuel + 1) s := by
  simp only [skipLines, skipBlanks_skipBlanks]

theorem skipSpace_solid (solid : IsSolid c) (s : List Char) : skipSpace (c :: s) = c :: s :=
  skipLines_solid solid _ s

theorem skipSpace_newLine (solid : IsSolid c) (s : List Char) :
    skipSpace ('\n' :: c :: s) = c :: s :=
  skipLines_solid solid _ s

theorem skipSpace_indented (solid : IsSolid c) (s : List Char) :
    skipSpace ("\n    ".toList ++ c :: s) = c :: s := by
  have blanks : skipBlanks ("    ".toList ++ c :: s) = c :: s := by
    simp [skipBlanks_blank, skipBlanks_cons solid.1]
  have step : skipSpace ("\n    ".toList ++ c :: s) =
      skipLines (s.length + 4 + 1) ("    ".toList ++ c :: s) := rfl
  rw [step, ← skipLines_skipBlanks, blanks, skipLines_solid solid]

/-! ## The front of a value -/

/-- No value begins with a space or with the end of one that stands around it. -/
theorem value?_refused (depth : Nat) (member : c ∈ [' ', '\t', '\n', '\r', '#', ']', ',', '\x7d'])
    (s : List Char) : value? depth (c :: s) = none := by
  simp only [List.mem_cons, List.not_mem_nil, or_false] at member
  rcases member with rfl | rfl | rfl | rfl | rfl | rfl | rfl | rfl <;>
    simp [value?, beginsDate, beginsTime, twoDigits?, Rfc3339.digits?, Rfc3339.digitsAfter?,
      Rfc3339.digit?, number?, decimal?, sign, digits?, Char.isDigit]

theorem value?_nil (depth : Nat) : value? depth [] = none := by
  unfold value?
  rfl

/-- A character that a value begins with. -/
def Opens (c : Char) : Prop := c ∉ [' ', '\t', '\n', '\r', '#', ']', ',', '\x7d']

instance : DecidablePred Opens := fun _ => instDecidableNot

theorem solid_of_opens (opens : Opens c) : IsSolid c := by
  simp only [Opens, List.mem_cons, List.not_mem_nil, or_false, not_or] at opens
  simp [IsSolid, isBlank, opens]

theorem ne_of_opens (opens : Opens c) : c ≠ ']' := by
  rintro rfl
  exact opens (by simp)

theorem opens_of_value? (found : (value? depth s).isSome) : ∃ c t, s = c :: t ∧ Opens c := by
  cases s with
  | nil => simp [value?_nil] at found
  | cons c t =>
      refine ⟨c, t, rfl, fun member => ?_⟩
      rw [value?_refused depth member] at found
      cases found

/-! ## Values without parts -/

theorem noQuote_of_closes (closes : Closes rest) : NoQuote rest := by
  constructor <;> intro quote <;> exact absurd (closes _ quote) (by decide)

theorem value?_string (depth : Nat) (text : String) (closes : Closes rest) :
    value? depth (writeString text ++ rest) = some (.string text, rest) := by
  have string := string?_writeString text (noQuote_of_closes closes)
  have begins : ∃ s, writeString text = '"' :: s ∨ writeString text = '\'' :: s := by
    rw [writeString]
    cases StringForm.choose (.ofText text.toList)
    · exact ⟨_, .inl rfl⟩
    · exact ⟨_, .inr rfl⟩
    · exact ⟨_, .inl rfl⟩
    · exact ⟨_, .inr rfl⟩
  obtain ⟨s, eq | eq⟩ := begins <;> rw [eq, List.cons_append] at string ⊢ <;>
    simp [value?, string]

/-- A value without parts. -/
theorem value?_writeScalar (depth : Nat) (scalar : IsScalar v) (noNull : hasNull v = false)
    (closes : Closes rest) :
    value? depth (writeScalar v ++ rest) = some (v.reread rereadDouble, rest) := by
  cases v with
  | null => cases noNull
  | bool b => cases b <;> simp [writeScalar, value?, Value.reread]
  | integer i => exact value?_integer depth i closes
  | float x => exact value?_render depth x closes
  | string text => exact value?_string depth text closes
  | timestamp t => exact value?_string depth _ closes
  | list items => cases scalar
  | map entries => cases scalar

theorem itemsHaveNull_iff : itemsHaveNull items = false ↔ ∀ v ∈ items, hasNull v = false := by
  induction items with
  | nil => simp [itemsHaveNull]
  | cons v items ih => simp [itemsHaveNull, ih]

theorem entriesHaveNull_iff :
    entriesHaveNull entries = false ↔ ∀ e ∈ entries, hasNull e.2 = false := by
  induction entries with
  | nil => simp [entriesHaveNull]
  | cons e entries ih => simp [entriesHaveNull, ih]

-- The equations of the writer hold by computation; `simp` takes seconds to find them.
theorem writeItems_cons (v : Value) (items : List Value) : writeItems (v :: items) =
    "\n    ".toList ++ (writeInline v ++ ',' :: writeItems items) := rfl

theorem writeInline_single (v : Value) : writeInline (.list [v]) = '[' :: writeInline v ++ [']'] :=
  rfl

theorem writeInline_lines (v w : Value) (items : List Value) :
    writeInline (.list (v :: w :: items)) =
      '[' :: writeItems (v :: w :: items) ++ ['\n', ']'] := rfl

theorem writeInline_map (e : String × Value) (entries : List (String × Value)) :
    writeInline (.map (e :: entries)) =
      '\x7b' :: ' ' :: writeInlineEntries (e :: entries) ++ [' ', '\x7d'] := rfl

theorem writeInlineEntries_cons (e e' : String × Value) (entries : List (String × Value)) :
    writeInlineEntries (e :: e' :: entries) = writeKey e.1 ++ " = ".toList ++ writeInline e.2 ++
      ", ".toList ++ writeInlineEntries (e' :: entries) := rfl

theorem writeInline_scalar (scalar : IsScalar v) : writeInline v = writeScalar v := by
  cases v <;> first | rfl | cases scalar

/-- The front of a value. -/
theorem writeInline_cons (noNull : hasNull v = false) :
    ∃ c s, writeInline v = c :: s ∧ Opens c := by
  have ofScalar : IsScalar v → ∃ c s, writeInline v = c :: s ∧ Opens c := by
    intro scalar
    have read := value?_writeScalar 0 scalar noNull closes_nil
    rw [List.append_nil] at read
    rw [writeInline_scalar scalar]
    exact opens_of_value? (Option.isSome_of_eq_some read)
  cases v with
  | list items =>
      match items with
      | [] | [v] | v :: w :: items => exact ⟨'[', _, rfl, by decide⟩
  | map entries =>
      match entries with
      | [] | (key, v) :: entries => exact ⟨'\x7b', _, rfl, by decide⟩
  | _ => exact ofScalar trivial

/-! ## Lists -/

theorem items?_end (bracket : skipSpace s = ']' :: rest) :
    items? read (fuel + 1) s = some ([], rest) := by
  simp [items?, bracket]

theorem items?_refused (front : skipSpace s = c :: t) (opens : Opens c)
    (none : read (c :: t) = none) : items? read (fuel + 1) s = .none := by
  simp [items?, front, none, ne_of_opens opens]

theorem items?_last (front : skipSpace s = c :: t) (opens : Opens c) {after : List Char}
    (item : read (c :: t) = some (v, after)) (bracket : skipSpace after = ']' :: rest) :
    items? read (fuel + 1) s = some ([v], rest) := by
  simp [items?, front, item, bracket, ne_of_opens opens]

theorem items?_next (front : skipSpace s = c :: t) (opens : Opens c) {after : List Char}
    (item : read (c :: t) = some (v, after)) (comma : skipSpace after = ',' :: rest) :
    items? read (fuel + 1) s =
      (items? read fuel rest).map fun (items, rest) => (v :: items, rest) := by
  simp [items?, front, item, comma, ne_of_opens opens]

/-- What holds of a value in front of any text that goes on with the end of a value. -/
def Reads (read : ValueReader) (depth : Nat) (v : Value) : Prop := ∀ rest, Closes rest →
  read (writeInline v ++ rest) =
    if v.depth ≤ depth then some (v.reread rereadDouble, rest) else none

/-- Items with a line each are read up to the bracket on the last line. -/
theorem items?_writeItems (noNull : ∀ v ∈ items, hasNull v = false) (enough : items.length < fuel)
    (reads : ∀ v ∈ items, Reads read depth v) (rest : List Char) :
    items? read fuel (writeItems items ++ '\n' :: ']' :: rest) =
      if ∀ v ∈ items, v.depth ≤ depth then some (items.map (Value.reread rereadDouble), rest)
      else none := by
  induction items generalizing fuel with
  | nil =>
      obtain ⟨fuel, rfl⟩ := Nat.exists_eq_add_one.mpr (Nat.zero_lt_of_lt enough)
      rw [show writeItems [] = [] from rfl, List.nil_append,
        items?_end (skipSpace_newLine solid_mark.2 rest)]
      simp
  | cons v items ih =>
      obtain ⟨fuel, rfl⟩ := Nat.exists_eq_add_one.mpr (Nat.zero_lt_of_lt enough)
      simp only [List.mem_cons, forall_eq_or_imp, List.length_cons, Nat.add_lt_add_iff_right]
        at noNull enough reads ⊢
      have item := reads.1 (',' :: (writeItems items ++ '\n' :: ']' :: rest))
        (closes_cons (by simp))
      obtain ⟨c, s, eq, opens⟩ := writeInline_cons noNull.1
      rw [eq, List.cons_append] at item
      have text : writeItems (v :: items) ++ '\n' :: ']' :: rest =
          "\n    ".toList ++ c :: (s ++ ',' :: (writeItems items ++ '\n' :: ']' :: rest)) := by
        simp [writeItems_cons, eq]
      have front := skipSpace_indented (solid_of_opens opens)
        (s ++ ',' :: (writeItems items ++ '\n' :: ']' :: rest))
      rw [text]
      by_cases here : v.depth ≤ depth
      · rw [if_pos here] at item
        rw [items?_next front opens item (skipSpace_solid solid_mark.1 _),
          ih noNull.2 enough reads.2]
        by_cases all : ∀ v ∈ items, v.depth ≤ depth
        · rw [if_pos all, if_pos ⟨here, all⟩]
          rfl
        · rw [if_neg all, if_neg fun both => all both.2]
          rfl
      · rw [if_neg here] at item
        rw [items?_refused front opens item, if_neg fun both => here both.1]

/-- A single item stands right between the brackets. -/
theorem items?_single (noNull : hasNull v = false) (reads : Reads read depth v)
    (rest : List Char) : items? read (fuel + 1) (writeInline v ++ ']' :: rest) =
      if v.depth ≤ depth then some ([v.reread rereadDouble], rest) else none := by
  have item := reads (']' :: rest) (closes_cons (by simp))
  obtain ⟨c, s, eq, opens⟩ := writeInline_cons noNull
  rw [eq, List.cons_append] at item ⊢
  have front := skipSpace_solid (solid_of_opens opens) (s ++ ']' :: rest)
  by_cases here : v.depth ≤ depth
  · rw [if_pos here] at item ⊢
    exact items?_last front opens item (skipSpace_solid solid_mark.2 _)
  · rw [if_neg here] at item ⊢
    exact items?_refused front opens item

/-! ## Entries -/

theorem dottedKey?_skipBlanks (fuel : Nat) (s : List Char) :
    dottedKey? fuel (skipBlanks s) = dottedKey? fuel s := by
  cases fuel <;> simp [dottedKey?, skipBlanks_skipBlanks]

theorem assignment?_skipBlanks (read : ValueReader) (s : List Char) :
    assignment? read (skipBlanks s) = assignment? read s := by
  simp [assignment?, key?, dottedKey?_skipBlanks]

/-- A key, an equals sign and a value. -/
theorem assignment?_write (key : String) (noNull : hasNull v = false) (reads : Reads read depth v)
    (closes : Closes rest) :
    assignment? read (writeKey key ++ " = ".toList ++ writeInline v ++ rest) =
      if v.depth ≤ depth then some (([key], v.reread rereadDouble), rest) else none := by
  have path : key? (writeKey key ++ (" = ".toList ++ (writeInline v ++ rest))) =
      some ([key], '=' :: ' ' :: (writeInline v ++ rest)) := by
    have stop : ∀ c ∈ (" = ".toList ++ (writeInline v ++ rest)).head?, isBareChar c = false := by
      simp
      rfl
    have noDot : (skipBlanks (" = ".toList ++ (writeInline v ++ rest))).head? ≠ some '.' := by
      simp [skipBlanks, isBlank]
    have read := dottedKey?_writePath (List.cons_ne_nil key []) depthLimit stop noDot
    rw [writePath, List.map_singleton, List.intercalate_singleton] at read
    exact read.trans (if_pos (by simp [depthLimit]))
  obtain ⟨c, s, eq, opens⟩ := writeInline_cons noNull
  have front : skipBlanks (' ' :: (writeInline v ++ rest)) = writeInline v ++ rest := by
    rw [skipBlanks_blank, eq, List.cons_append, skipBlanks_cons (solid_of_opens opens).1]
  rw [List.append_assoc, List.append_assoc]
  simp only [assignment?, path, front, reads rest closes, Option.bind_eq_bind, Option.bind_some]
  split <;> rfl

/-- The entry of an inline table with the blank in front of it. -/
def inlineEntry (e : String × Value) : List Char :=
  ' ' :: (writeKey e.1 ++ " = ".toList ++ writeInline e.2)

theorem writeInlineEntries_eq (nonempty : entries ≠ []) :
    ' ' :: writeInlineEntries entries = [','].intercalate (entries.map inlineEntry) := by
  induction entries with
  | nil => contradiction
  | cons e entries ih =>
      cases entries with
      | nil =>
          rw [List.map_singleton, List.intercalate_singleton]
          rfl
      | cons e' entries =>
          rw [List.map_cons, List.map_cons, List.intercalate_cons_cons, ← List.map_cons,
            ← ih (by simp), writeInlineEntries_cons]
          simp [inlineEntry]

theorem sequential_entries (read : ValueReader) :
    Sequential ( assignment? read) skipBlanks '\x7d' (entries? read) where
  refused := by
    intro fuel s none
    simp [entries?, none]
  last := by
    intro fuel s e t rest entry bracket
    simp [entries?, entry, bracket]
  next := by
    intro fuel s e t rest entry comma
    simp [entries?, entry, comma]

theorem entries?_skipBlanks (fuel : Nat) (s : List Char) :
    entries? read fuel (skipBlanks s) = entries? read fuel s := by
  cases fuel <;> simp [entries?, assignment?_skipBlanks]

/-! ## Keys of a table -/

/-- A key of one segment is entered behind lower ones. -/
theorem setPath_of_above {table : List (String × Node)} {origin : Origin} {key : String}
    (own : origin ≠ .dotted) (above : ∀ e ∈ table, e.1 < key) (v : Value) :
    Node.setPath [key] v origin table = some (table ++ [(key, .leaf v)]) := by
  have absent : Entries.find? key table = none := by
    by_contra present
    obtain ⟨node, found⟩ := Option.ne_none_iff_exists'.mp present
    exact absurd (above _ (Entries.mem_of_find? found)) (String.lt_irrefl _)
  simp [Node.setPath, Node.edit, Node.setKey, own, absent, Entries.insert_of_above above]

theorem entriesToValues_leaves (entries : List (String × Value)) :
    Node.entriesToValues (entries.map fun e => (e.1, .leaf e.2)) = entries := by
  induction entries with
  | nil => rfl
  | cons e entries ih => simp [Node.entriesToValues, Node.toValue, ih]

/-- Entries in order are entered one behind another. -/
theorem setPaths_of_ascending {origin : Origin} (own : origin ≠ .dotted)
    (ascending : Ascending entries) :
    entries.foldlM (fun table e => Node.setPath [e.1] e.2 origin table) [] =
      some (entries.map fun e => (e.1, .leaf e.2)) := by
  induction entries using List.reverseRecOn with
  | nil => rfl
  | append_singleton entries last ih =>
      obtain ⟨before, -, below⟩ := List.pairwise_append.mp ascending
      have above : ∀ e ∈ entries.map fun e => (e.1, Node.leaf e.2), e.1 < last.1 :=
        List.forall_mem_map.mpr fun e listed => below e listed last (by simp)
      rw [List.foldlM_append, ih before]
      simp [setPath_of_above own above]

/-- Entries in order make up the inline table that holds them. -/
theorem inlineTable?_of_ascending (ascending : Ascending entries) :
    inlineTable? (entries.map fun e => ([e.1], e.2)) = some (.map entries) := by
  have own : Origin.header ≠ .dotted := by decide
  rw [inlineTable?, List.foldlM_map, setPaths_of_ascending own ascending, Option.map_some,
    entriesToValues_leaves]

theorem braced?_entries (front : (skipBlanks s).head? ≠ some '\x7d') :
    braced? read s = ( entries? read (skipBlanks s).length s).bind fun (entries, rest) =>
      (inlineTable? entries).map fun v => (v, rest) := by
  rw [braced?]
  split
  · next brace => exact absurd (brace ▸ rfl) front
  · simp only [entries?_skipBlanks, Option.bind_eq_bind, Option.map_eq_bind, Option.pure_def]
    rfl

/-- An inline table behind its brace. -/
theorem braced?_write (nonempty : entries ≠ []) (ascending : Ascending entries)
    (noNull : ∀ e ∈ entries, hasNull e.2 = false) (reads : ∀ e ∈ entries, Reads read depth e.2)
    (rest : List Char) : braced? read (' ' :: writeInlineEntries entries ++ ' ' :: '\x7d' :: rest) =
      if ∀ e ∈ entries, e.2.depth ≤ depth then
        some (.map (entries.map fun e => (e.1, e.2.reread rereadDouble)), rest)
      else none := by
  have bracket : skipBlanks (' ' :: '\x7d' :: rest) = '\x7d' :: rest := by
    simp [skipBlanks, isBlank]
  have closes : Closes (' ' :: '\x7d' :: rest) := closes_cons (by simp)
  have enough : entries.length ≤ (skipBlanks ([','].intercalate (entries.map inlineEntry) ++
      ' ' :: '\x7d' :: rest)).length := by
    have commas := length_le_dropWhile (by rfl) (by rfl) (entries.map inlineEntry) bracket
    rwa [List.length_map] at commas
  have each : ∀ e ∈ entries, ∀ rest, Closes rest → assignment? read (inlineEntry e ++ rest) =
      if e.2.depth ≤ depth then some (([e.1], e.2.reread rereadDouble), rest) else none := by
    intro e listed rest closes
    rw [inlineEntry, List.cons_append, ← assignment?_skipBlanks, skipBlanks_blank,
      assignment?_skipBlanks]
    exact assignment?_write e.1 (noNull e listed) (reads e listed) closes
  have front : (skipBlanks ([','].intercalate (entries.map inlineEntry) ++
      ' ' :: '\x7d' :: rest)).head? ≠ some '\x7d' := by
    obtain ⟨e, more, rfl⟩ := List.exists_cons_of_ne_nil nonempty
    obtain ⟨after, -, text⟩ := intercalate_cons closes (inlineEntry e) (more.map inlineEntry)
    obtain ⟨c, s, eq, first⟩ := writeKey_cons e.1
    rw [List.map_cons, text, inlineEntry, List.cons_append, skipBlanks_blank, List.append_assoc,
      List.append_assoc, skipBlanks_writeKey, eq]
    simp only [List.cons_append, List.head?_cons, ne_eq, Option.some.injEq]
    rintro rfl
    simp [isBareChar] at first
  have ordered := inlineTable?_of_ascending
    (Entries.ascending_map (Value.reread rereadDouble) ascending)
  rw [List.map_map] at ordered
  rw [writeInlineEntries_eq nonempty, braced?_entries front,
    (sequential_entries read).read (skipBlanks_cons (by rfl)) nonempty enough each closes bracket]
  split
  · exact congrArg (Option.map fun v => (v, rest)) ordered
  · rfl

/-! ## Values with parts -/

theorem value?_list (depth : Nat) (s : List Char) : value? (depth + 1) ('[' :: s) =
    (items? (value? depth) (s.length + 1) s).map fun (items, s) => (.list items, s) := by
  simp [value?]

theorem value?_list_zero (s : List Char) : value? 0 ('[' :: s) = none := by
  simp [value?]

theorem value?_map (depth : Nat) (s : List Char) :
    value? (depth + 1) ('\x7b' :: s) = braced? (value? depth) s := by
  simp [value?]

theorem value?_map_zero (s : List Char) : value? 0 ('\x7b' :: s) = none := by
  simp [value?]

theorem length_le_writeItems (items : List Value) : items.length ≤ (writeItems items).length := by
  induction items with
  | nil => simp
  | cons v items ih =>
      simp [writeItems_cons]
      omega

/-- The items of a list behind its bracket. -/
theorem items?_write (noNull : ∀ v ∈ items, hasNull v = false)
    (reads : ∀ v ∈ items, Reads read depth v) (rest : List Char) :
    ∃ s, writeInline (.list items) ++ rest = '[' :: s ∧ items? read (s.length + 1) s =
      if ∀ v ∈ items, v.depth ≤ depth then some (items.map (Value.reread rereadDouble), rest)
      else none := by
  match items with
  | [] =>
      refine ⟨']' :: rest, rfl, ?_⟩
      rw [items?_end (skipSpace_solid solid_mark.2 rest)]
      simp
  | [v] =>
      simp only [List.mem_singleton, forall_eq] at noNull reads ⊢
      exact ⟨writeInline v ++ ']' :: rest, by simp [writeInline_single],
        items?_single noNull reads rest⟩
  | v :: w :: items =>
      refine ⟨writeItems (v :: w :: items) ++ '\n' :: ']' :: rest, by simp [writeInline_lines], ?_⟩
      have lines := length_le_writeItems (v :: w :: items)
      exact items?_writeItems noNull (by rw [List.length_append]; omega) reads rest

/-- Text of a value is read as the value, or refused for its depth. -/
theorem value?_writeInline (sound : v.WellFormed) (noNull : hasNull v = false) (depth : Nat) :
    Reads (value? depth) depth v := by
  induction v using recParts generalizing depth with
  | scalar v scalar =>
      intro rest closes
      rw [writeInline_scalar scalar, value?_writeScalar depth scalar noNull closes,
        depth_of_isScalar scalar, if_pos (Nat.zero_le depth)]
  | list items ih =>
      intro rest closes
      rw [wellFormed_list] at sound
      rw [hasNull, itemsHaveNull_iff] at noNull
      have reads : ∀ depth, ∀ v ∈ items, Reads (value? depth) depth v := fun depth v listed =>
        ih v listed (sound v listed) (noNull v listed) depth
      rw [Value.depth, Value.reread, rereadItems_eq]
      cases depth with
      | zero =>
          obtain ⟨s, text, -⟩ := items?_write noNull (reads 0) rest
          rw [text, value?_list_zero, if_neg (by omega)]
      | succ depth =>
          obtain ⟨s, text, all⟩ := items?_write noNull (reads depth) rest
          rw [text, value?_list, all]
          simp only [Nat.add_le_add_iff_right, itemsDepth_le]
          split <;> rfl
  | map entries ih =>
      intro rest closes
      rw [wellFormed_map] at sound
      rw [hasNull, entriesHaveNull_iff] at noNull
      by_cases nonempty : entries = []
      · subst nonempty
        have braces : writeInline (.map []) = ['\x7b', '\x7d'] := rfl
        cases depth <;> simp [braces, value?_map_zero, value?_map, braced?, skipBlanks, isBlank,
          Value.depth, entriesDepth, Value.reread, rereadEntries]
      · have text : writeInline (.map entries) ++ rest =
            '\x7b' :: (' ' :: writeInlineEntries entries ++ ' ' :: '\x7d' :: rest) := by
          obtain ⟨e, more, rfl⟩ := List.exists_cons_of_ne_nil nonempty
          simp [writeInline_map]
        rw [text, Value.depth, Value.reread, rereadEntries_eq]
        cases depth with
        | zero => rw [value?_map_zero, if_neg (by omega)]
        | succ depth =>
            rw [value?_map, braced?_write nonempty sound.1 noNull
              (fun e listed => ih e listed (sound.2 e listed) (noNull e listed) depth) rest]
            simp only [Nat.add_le_add_iff_right, entriesDepth_le]

end Mvc.Toml
