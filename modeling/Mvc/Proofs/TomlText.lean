import Mvc.Proofs.TomlTables

/-! # Documents in TOML come back

The lines of a document are read one by one, and each says what was written in it. A header is
refused if its path is too long, and an entry if its value nests too deep; if no line is refused,
the document builds the table that it was made of.
-/

namespace Mvc.Toml

variable {c : Char} {s t text rest : List Char} {fuel : Nat} {v : Value}
  {entries : List (String × Value)} {said said' : List Statement} {fits fits' : Prop}

/-! ## Lines -/

/-- What a text says, however many lines are allowed for. -/
def Means (s : List Char) (said : Option (List Statement)) : Prop :=
  ∀ fuel, s.length < fuel → statements? fuel s = said

/-- A text says something in front of any other text, or makes it refused. -/
def Adds (text : List Char) (fits : Prop) (said : List Statement) : Prop :=
  ∀ s result, Means s result →
    (fits → Means (text ++ s) (result.map (said ++ ·))) ∧ (¬fits → Means (text ++ s) none)

theorem means_nil : Means [] (some []) := by
  intro fuel enough
  obtain ⟨fuel, rfl⟩ := Nat.exists_eq_add_one.mpr (Nat.zero_lt_of_lt enough)
  rfl

theorem adds_nil : Adds [] True [] := by
  intro s result means
  refine ⟨fun _ => ?_, fun never => absurd trivial never⟩
  cases result <;> exact means

theorem adds_append (first : Adds text fits said) (second : Adds t fits' said') :
    Adds (text ++ t) (fits ∧ fits') (said ++ said') := by
  intro s result means
  obtain ⟨read, refused⟩ := second s result means
  rw [List.append_assoc]
  constructor
  · rintro ⟨here, there⟩
    have both := (first _ _ (read there)).1 here
    rw [Option.map_map] at both
    simpa [Function.comp_def] using both
  · intro never
    by_cases there : fits'
    · exact (first _ _ (read there)).2 fun here => never ⟨here, there⟩
    · have none := refused there
      by_cases here : fits
      · exact (first _ _ none).1 here
      · exact (first _ _ none).2 here

theorem adds_flatMap {α : Type} {xs : List α} {write : α → List Char} {fits : α → Prop}
    {said : α → List Statement} (each : ∀ x ∈ xs, Adds (write x) (fits x) (said x)) :
    Adds (xs.flatMap write) (∀ x ∈ xs, fits x) (xs.flatMap said) := by
  induction xs with
  | nil => simpa using adds_nil
  | cons x xs ih =>
      simp only [List.mem_cons, forall_eq_or_imp] at each ⊢
      exact adds_append each.1 (ih each.2)

/-- An empty line says nothing. -/
theorem adds_newLine : Adds ['\n'] True [] := by
  intro s result means
  refine ⟨fun _ fuel enough => ?_, fun never => absurd trivial never⟩
  obtain ⟨fuel, rfl⟩ := Nat.exists_eq_add_one.mpr (Nat.zero_lt_of_lt enough)
  have step : statements? (fuel + 1) ('\n' :: s) = statements? fuel s := rfl
  rw [List.singleton_append, step, means fuel (by simpa using enough)]
  cases result <;> rfl

theorem lineEnd?_solid (solid : IsSolid c) (s : List Char) : lineEnd? (c :: s) = none := by
  simp [lineEnd?, skipBlanks_cons solid.1, skipComment_solid solid, newLine?_solid solid]

theorem statements?_line (solid : IsSolid c) (fuel : Nat) (s : List Char) :
    statements? (fuel + 1) (c :: s) = (statement? (c :: s)).bind fun (statement, s) =>
      (lineEnd? s).bind fun s => (statements? fuel s).map fun later => statement :: later := by
  simp only [statements?, skipBlanks_cons solid.1, lineEnd?_solid solid, Option.bind_eq_bind,
    Option.pure_def, Option.map_eq_bind, Function.comp_def]

/-- A line says what stands in front of its end, if that can be read. -/
theorem adds_line {statement : Statement} [Decidable fits]
    (front : ∃ c s, text = c :: s ∧ IsSolid c)
    (reads : ∀ s, statement? (text ++ '\n' :: s) =
      if fits then some (statement, '\n' :: s) else none) :
    Adds (text ++ ['\n']) fits [statement] := by
  obtain ⟨c, more, rfl, solid⟩ := front
  have line : ∀ s fuel, s.length < fuel → statements? (fuel + 1) (c :: more ++ '\n' :: s) =
      if fits then (statements? fuel s).map fun later => statement :: later else none := by
    intro s fuel enough
    rw [List.cons_append, statements?_line solid, ← List.cons_append, reads]
    split
    · have last : lineEnd? ('\n' :: s) = some s := rfl
      simp only [Option.bind_some, last]
    · rfl
  intro s result means
  rw [List.append_assoc, List.singleton_append]
  constructor
  · intro here fuel enough
    obtain ⟨fuel, rfl⟩ := Nat.exists_eq_add_one.mpr (Nat.zero_lt_of_lt enough)
    have enough' : s.length < fuel := by
      simp at enough
      omega
    rw [line s fuel enough', if_pos here, means fuel enough']
    rfl
  · intro never fuel enough
    obtain ⟨fuel, rfl⟩ := Nat.exists_eq_add_one.mpr (Nat.zero_lt_of_lt enough)
    rw [line s fuel (by simp at enough; omega), if_neg never]

/-! ## Sections -/

theorem solid_of_writeKey (key : String) : ∃ c s, writeKey key = c :: s ∧ IsSolid c ∧ c ≠ '[' := by
  obtain ⟨c, s, eq, front⟩ := writeKey_cons key
  refine ⟨c, s, eq, ?_⟩
  rcases front with bare | rfl | rfl
  · refine ⟨⟨(ne_of_isBareChar bare).2.2, ?_⟩, ?_⟩
    · intro member
      simp only [List.mem_cons, List.not_mem_nil, or_false] at member
      rcases member with rfl | rfl | rfl <;> cases bare
    · rintro rfl
      cases bare
  · simp [IsSolid, isBlank]
  · simp [IsSolid, isBlank]

/-- A value that can be written: its maps are in order, and none of its parts is `null`. -/
def Writable (v : Value) : Prop := v.WellFormed ∧ hasNull v = false

theorem Writable.entry (writable : Writable (.map entries)) {e : String × Value}
    (listed : e ∈ entries) : Writable e.2 :=
  ⟨(Value.wellFormed_map.mp writable.1).2 e listed, entriesHaveNull_iff.mp writable.2 e listed⟩

theorem Writable.item {items : List Value} (writable : Writable (.list items))
    (listed : v ∈ items) : Writable v :=
  ⟨Value.wellFormed_list.mp writable.1 v listed, itemsHaveNull_iff.mp writable.2 v listed⟩

/-- An entry on a line. -/
theorem adds_writeLine {e : String × Value} (writable : Writable e.2) :
    Adds (writeLine e) (e.2.depth ≤ depthLimit) [.entry [e.1] (e.2.reread rereadDouble)] := by
  obtain ⟨c, more, eq, solid, noBracket⟩ := solid_of_writeKey e.1
  have front : writeKey e.1 ++ " = ".toList ++ writeInline e.2 =
      c :: (more ++ (" = ".toList ++ writeInline e.2)) := by
    simp [eq]
  refine adds_line ⟨c, _, front, solid⟩ fun s => ?_
  have read := assignment?_write e.1 writable.2
    (value?_writeInline writable.1 writable.2 depthLimit)
    (closes_cons (c := '\n') (s := s) (by simp))
  rw [front, List.cons_append] at read ⊢
  have plain : statement? (c :: (more ++ (" = ".toList ++ writeInline e.2) ++ '\n' :: s)) =
      ( assignment? (value? depthLimit) (c :: (more ++ (" = ".toList ++ writeInline e.2) ++
        '\n' :: s))).map fun read => (.entry read.1.1 read.1.2, read.2) := by
    rw [statement?.eq_def]
    split
    · simp_all
    · rfl
  rw [plain, read]
  split <;> rfl

theorem key?_writePath {path : List String} (nonempty : path ≠ []) (s : List Char) :
    key? (writePath path ++ ']' :: s) =
      if path.length ≤ depthLimit then some (path, ']' :: s) else none :=
  dottedKey?_writePath nonempty depthLimit (by simp; rfl) (by simp [skipBlanks, isBlank])

theorem writePath_cons {path : List String} (nonempty : path ≠ []) :
    ∃ c s, writePath path = c :: s ∧ c ≠ '[' := by
  obtain ⟨key, more, rfl⟩ := List.exists_cons_of_ne_nil nonempty
  obtain ⟨c, s, eq, -, noBracket⟩ := solid_of_writeKey key
  cases more with
  | nil => exact ⟨c, s, by simp [writePath, eq], noBracket⟩
  | cons next more =>
      refine ⟨c, s ++ '.' :: writePath (next :: more), ?_, noBracket⟩
      simp [writePath, List.intercalate_cons_cons, eq]

theorem solid_bracket : IsSolid '[' := by simp [IsSolid, isBlank]

theorem header?_table {path : List String} (front : s.head? ≠ some '[')
    (read : key? s = some (path, ']' :: rest)) : header? s = some (.table path, rest) := by
  rw [header?.eq_def]
  split
  · simp at front
  · simp [read]

theorem header?_refused (front : s.head? ≠ some '[') (none : key? s = none) :
    header? s = .none := by
  rw [header?.eq_def]
  split
  · simp at front
  · simp [none]

/-- The header of a table on a line. -/
theorem adds_table {path : List String} (nonempty : path ≠ []) :
    Adds ('[' :: writePath path ++ [']'] ++ ['\n']) (path.length ≤ depthLimit) [.table path] := by
  refine adds_line ⟨'[', _, rfl, solid_bracket⟩ fun s => ?_
  have read := key?_writePath nonempty ('\n' :: s)
  have front : (writePath path ++ ']' :: '\n' :: s).head? ≠ some '[' := by
    obtain ⟨c, more, eq, noBracket⟩ := writePath_cons nonempty
    simp [eq, noBracket]
  have text : '[' :: writePath path ++ [']'] ++ '\n' :: s =
      '[' :: (writePath path ++ ']' :: '\n' :: s) := by simp
  rw [text, statement?]
  by_cases short : path.length ≤ depthLimit
  · rw [if_pos short] at read ⊢
    exact header?_table front read
  · rw [if_neg short] at read ⊢
    exact header?_refused front read

/-- The header of an element on a line. -/
theorem adds_element {path : List String} (nonempty : path ≠ []) :
    Adds ('[' :: '[' :: writePath path ++ [']', ']'] ++ ['\n']) (path.length ≤ depthLimit)
      [.element path] := by
  refine adds_line ⟨'[', _, rfl, solid_bracket⟩ fun s => ?_
  have read := key?_writePath nonempty (']' :: '\n' :: s)
  have text : '[' :: '[' :: writePath path ++ [']', ']'] ++ '\n' :: s =
      '[' :: '[' :: (writePath path ++ ']' :: ']' :: '\n' :: s) := by simp
  rw [text, statement?, header?, read]
  split <;> rfl

/-- The header of a section, if it has one. -/
theorem adds_header (s : Section) : Adds s.header (s.path.length ≤ depthLimit) s.heading := by
  obtain ⟨path, isElement, entries⟩ := s
  rw [Section.header, Section.heading]
  by_cases own : path = []
  · subst own
    simpa using adds_nil
  · cases isElement with
    | false => simpa [own] using adds_table own
    | true => simpa [own] using adds_element own

/-- Whether a section is read back: its path is not too long, nor any of its values too deep. -/
def Section.Fits (s : Section) : Prop :=
  s.path.length ≤ depthLimit ∧ ∀ e ∈ s.entries, e.2.depth ≤ depthLimit

instance : DecidablePred Section.Fits := fun _ => instDecidableAnd

/-- A section is read back as what it says. -/
theorem adds_section {s : Section} (writable : ∀ e ∈ s.entries, Writable e.2) :
    Adds s.write s.Fits s.statements := by
  have lines := adds_flatMap fun e listed => adds_writeLine (writable e listed)
  have whole := adds_append (adds_header s) lines
  rw [← List.map_eq_flatMap] at whole
  exact whole

/-! ## Documents -/

/-- Sections with empty lines between them. -/
theorem adds_sections {ss : List Section} (each : ∀ s ∈ ss, Adds s.write s.Fits s.statements) :
    Adds (['\n'].intercalate (ss.map Section.write)) (∀ s ∈ ss, s.Fits)
      (ss.flatMap Section.statements) := by
  induction ss with
  | nil => simpa using adds_nil
  | cons s ss ih =>
      simp only [List.mem_cons, forall_eq_or_imp] at each ⊢
      cases ss with
      | nil => simpa using each.1
      | cons next ss =>
          have separated := adds_append each.1 (adds_append adds_newLine (ih each.2))
          simpa [List.intercalate_cons_cons] using separated

/-- A section holds the plain entries of a map that stands at the end of its path. -/
def Stands (P : List String → Value → Prop) (s : Section) : Prop :=
  ∃ entries, s.entries = plainEntries entries ∧ P s.path (.map entries)

theorem mem_sectionsBelow {path : List String} {s : Section}
    (listed : s ∈ sectionsBelow path entries) :
    ∃ e ∈ entries, s ∈ valueSections (path ++ [e.1]) e.2 := by
  induction entries with
  | nil => simp [sectionsBelow] at listed
  | cons e entries ih =>
      rw [sectionsBelow, List.mem_append] at listed
      rcases listed with here | later
      · exact ⟨e, by simp, here⟩
      · obtain ⟨e', listed', there⟩ := ih later
        exact ⟨e', by simp [listed'], there⟩

theorem mem_elementSections {path : List String} {items : List Value} {s : Section}
    (listed : s ∈ elementSections path items) :
    ∃ entries, .map entries ∈ items ∧ s ∈ sections path true entries := by
  induction items with
  | nil => simp [elementSections] at listed
  | cons v items ih =>
      cases v with
      | map entries =>
          rw [elementSections, List.mem_append] at listed
          rcases listed with here | later
          · exact ⟨entries, by simp, here⟩
          · obtain ⟨entries', listed', there⟩ := ih later
            exact ⟨entries', by simp [listed'], there⟩
      | _ =>
          rw [elementSections] at listed
          · obtain ⟨entries, listed', there⟩ := ih listed
            exact ⟨entries, by simp [listed'], there⟩
          · simp

/-- What passes from a value to its parts holds of the maps that sections are made of. -/
theorem stands_of_mem {P : List String → Value → Prop}
    (ofMap : ∀ path entries, P path (.map entries) → ∀ e ∈ entries, P (path ++ [e.1]) e.2)
    (ofList : ∀ path items, P path (.list items) → ∀ v ∈ items, P path v) (v : Value) :
    (∀ path, P path v → ∀ s ∈ valueSections path v, Stands P s) ∧
      ∀ entries, v = .map entries → ∀ path isElement, P path v →
        ∀ s ∈ sections path isElement entries, Stands P s := by
  induction v using Value.recParts with
  | scalar v scalar => cases v <;> simp_all [Value.IsScalar, valueSections]
  | list items ih =>
      refine ⟨fun path holds s listed => ?_, by simp⟩
      rw [valueSections] at listed
      split at listed
      · obtain ⟨entries, member, here⟩ := mem_elementSections listed
        exact (ih _ member).2 entries rfl path true (ofList _ _ holds _ member) s here
      · cases listed
  | map entries ih =>
      have below : ∀ path, P path (.map entries) → ∀ s ∈ sectionsBelow path entries, Stands P s := by
        intro path holds s listed
        obtain ⟨e, member, here⟩ := mem_sectionsBelow listed
        exact (ih e member).1 _ (ofMap _ _ holds e member) s here
      have own : ∀ path isElement, P path (.map entries) →
          ∀ s ∈ sections path isElement entries, Stands P s := by
        intro path isElement holds s listed
        rw [sections, List.mem_append] at listed
        rcases listed with here | listed
        · split at here
          · obtain rfl := List.mem_singleton.mp here
            exact ⟨entries, rfl, holds⟩
          · cases here
        · exact below path holds s listed
      refine ⟨fun path holds s listed => ?_, ?_⟩
      · rw [valueSections] at listed
        exact own path false holds s listed
      · rintro _ ⟨⟩
        exact own

/-- Whether a table is read back: each of its sections is. -/
def Fits (entries : List (String × Value)) : Prop := ∀ s ∈ sections [] false entries, s.Fits

instance : DecidablePred Fits := fun entries =>
  inferInstanceAs (Decidable (∀ s ∈ sections [] false entries, s.Fits))

theorem fits_iff_written (entries : List (String × Value)) :
    Fits entries ↔ ∀ s ∈ written entries, s.Fits := by
  constructor
  · intro fits s listed
    exact fits s (List.mem_of_mem_filter listed)
  · intro fits s listed
    by_cases nothing : s.path = [] ∧ s.entries = []
    · simp [Section.Fits, nothing]
    · exact fits s (List.mem_filter.mpr ⟨listed, by simpa [or_iff_not_imp_left] using nothing⟩)

theorem mem_of_mem_plainEntries {e : String × Value} (listed : e ∈ plainEntries entries) :
    e ∈ entries :=
  List.mem_of_mem_filter listed

/-- The names on the way to a value and the lists and maps in it make no more than 80 levels. -/
def Shallow (path : List String) (v : Value) : Prop := path.length + v.depth ≤ depthLimit + 1

theorem Shallow.entry {path : List String} (shallow : Shallow path (.map entries))
    {e : String × Value} (listed : e ∈ entries) : Shallow (path ++ [e.1]) e.2 := by
  have inside := Value.entriesDepth_le.mp le_rfl e listed
  simp only [Shallow, Value.depth, List.length_append, List.length_singleton] at shallow ⊢
  omega

theorem Shallow.item {path : List String} {items : List Value}
    (shallow : Shallow path (.list items)) (listed : v ∈ items) : Shallow path v := by
  have inside := Value.itemsDepth_le.mp le_rfl v listed
  simp only [Shallow, Value.depth] at shallow ⊢
  omega

/-- A table in which maps and lists nest no deeper than 80 is read back. -/
theorem fits_of_depth (shallow : (Value.map entries).depth ≤ depthLimit + 1) : Fits entries := by
  intro s listed
  have start : Shallow [] (.map entries) := by simpa [Shallow] using shallow
  obtain ⟨entries, plain, here⟩ :=
    (stands_of_mem (fun _ _ shallow _ => shallow.entry) (fun _ _ shallow _ => shallow.item)
      (.map entries)).2 entries rfl [] false start s listed
  simp only [Shallow, Value.depth] at here
  refine ⟨by omega, fun e member => ?_⟩
  rw [plain] at member
  have inside := Value.entriesDepth_le.mp le_rfl e (mem_of_mem_plainEntries member)
  omega

/-- Sections of a value in order without `null` are read back as what they say. -/
theorem adds_of_mem (writable : Writable (.map entries)) {s : Section}
    (listed : s ∈ sections [] false entries) : Adds s.write s.Fits s.statements := by
  obtain ⟨entries, plain, here⟩ :=
    (stands_of_mem (P := fun _ => Writable) (fun _ _ writable _ => writable.entry)
      (fun _ _ writable _ => writable.item) (.map entries)).2 entries rfl [] false writable s listed
  refine adds_section fun e member => ?_
  rw [plain] at member
  exact here.entry (mem_of_mem_plainEntries member)

theorem document?_eq (noNull : entriesHaveNull entries = false) : document? entries =
    some (String.ofList (['\n'].intercalate ((written entries).map Section.write))) := by
  rw [document?, if_neg (by simp [noNull])]
  rfl

/-- The front of a section that is written. -/
theorem head?_write {s : Section} (listed : s ∈ written entries) :
    ∃ c, s.write.head? = some c ∧ c ≠ '\uFEFF' := by
  obtain ⟨path, isElement, entries⟩ := s
  by_cases own : path = []
  · have some : entries ≠ [] := by
      simpa [own] using (List.mem_filter.mp listed).2
    obtain ⟨e, more, rfl⟩ := List.exists_cons_of_ne_nil some
    obtain ⟨c, s, eq, front⟩ := writeKey_cons e.1
    refine ⟨c, by simp [Section.write, Section.header, own, writeLine, eq], ?_⟩
    rintro rfl
    rcases front with bare | quote | quote
    · cases bare
    · cases quote
    · cases quote
  · refine ⟨'[', ?_, by decide⟩
    cases isElement <;> simp [Section.write, Section.header, own]

/-- No document begins with a byte order mark. -/
theorem skipMark_written (entries : List (String × Value)) :
    skipMark (['\n'].intercalate ((written entries).map Section.write)) =
      ['\n'].intercalate ((written entries).map Section.write) := by
  have front : (['\n'].intercalate ((written entries).map Section.write)).head? ≠
      some '\uFEFF' := by
    cases eq : written entries with
    | nil => simp
    | cons s more =>
        have listed : s ∈ written entries := by simp [eq]
        obtain ⟨c, text, noMark⟩ := head?_write listed
        cases more with
        | nil => simp [text, noMark]
        | cons next more => simp [List.intercalate_cons_cons, text, noMark]
  rw [skipMark.eq_def]
  split
  · next eq => simp [eq] at front
  · rfl

/-- A document denotes the table that it was made of, or is refused for its depth. -/
theorem parse?_document (sound : (Value.map entries).WellFormed) {text : String}
    (document : document? entries = some text) : parse? text =
      if Fits entries then some ((Value.map entries).reread rereadDouble) else none := by
  have noNull : entriesHaveNull entries = false := by
    by_contra null
    simp [document?, null] at document
  rw [document?_eq noNull, Option.some.injEq] at document
  subst document
  have each : ∀ s ∈ written entries, Adds s.write s.Fits s.statements := fun s listed =>
    adds_of_mem ⟨sound, noNull⟩ (List.mem_of_mem_filter listed)
  have means := adds_sections each [] (some []) means_nil
  rw [List.append_nil, ← fits_iff_written] at means
  rw [parse?, String.toList_ofList, skipMark_written]
  by_cases fits : Fits entries
  · obtain ⟨d, built, value⟩ := ofStatements?_written sound
    rw [if_pos fits, means.1 fits _ (Nat.lt_succ_self _)]
    simp [built, value]
  · rw [if_neg fits, means.2 fits _ (Nat.lt_succ_self _)]
    rfl

end Mvc.Toml
