import Mvc.Proofs.TomlValues

/-! # Tables in TOML come back

A document builds a table from its plain entries and from the sections of the tables in it. Below a
key, sections change the table under that key as they would change a table of their own; so what
the sections of a value build follows from what those of its parts build. All the sections of a
table together build the table.
-/

namespace Mvc

namespace Entries

variable {α : Type} {key : String} {value value' : α} {entries : List (String × α)}

theorem insert_insert (key : String) (value value' : α) (entries : List (String × α)) :
    insert key value (insert key value' entries) = insert key value entries := by
  induction entries with
  | nil => simp [insert]
  | cons first rest ih =>
      obtain ⟨k, v⟩ := first
      by_cases before : key < k
      · simp [insert, before]
      · by_cases same : key = k
        · subst same
          simp [insert]
        · simp [insert, before, same, ih]

theorem find?_append (key : String) (first second : List (String × α)) :
    find? key (first ++ second) = (find? key first).or (find? key second) := by
  induction first with
  | nil => rfl
  | cons e first ih =>
      simp only [List.cons_append, find?, ih]
      split <;> rfl

theorem foldl_insert (ascending : Ascending entries) (pairs : List (String × α)) :
    pairs.foldl (fun entries e => insert e.1 e.2 entries) entries = ofList (entries ++ pairs) := by
  have ordered := ofList_of_ascending ascending
  rw [ofList] at ordered
  rw [ofList, List.foldl_append, ordered]

/-- Entries in order come together again when some of them are entered behind the others. -/
theorem ofList_partition {β : Type} (f : α → β) (ascending : Ascending entries)
    (p : String × α → Bool) :
    ofList ((entries.filter fun e => !p e).map (fun e => (e.1, f e.2)) ++
      (entries.filter p).map fun e => (e.1, f e.2)) = entries.map fun e => (e.1, f e.2) := by
  refine ext_find? (ascending_ofList _) (ascending_map f ascending) fun key => ?_
  have ordered : ∀ q, find? key ((entries.filter q).map fun e => (e.1, f e.2)).reverse =
      ((find? key entries).filter fun value => q (key, value)).map f := by
    intro q
    rw [← find?_ofList, ofList_of_ascending (ascending_map f (ascending.filter q)), find?_map,
      find?_filter ascending]
  rw [find?_ofList, List.reverse_append, find?_append, ordered, ordered, find?_map]
  cases find? key entries with
  | none => rfl
  | some value => cases chosen : p (key, value) <;> simp [chosen]

end Entries

namespace Toml

open Node (edit entriesToValues elementsToValues toValue Change)

variable {key : String} {path : List String} {origin own : Origin}
  {table inner : List (String × Node)} {wrap : List (String × Node) → Node}
  {f g : Change} {v : Value} {items : List Value} {entries : List (String × Value)}

/-! ## Entering a table -/

/-- What stands under a key that statements go on in: a table, or the last element of an array of
    tables. -/
def Wraps (own : Origin) (wrap : List (String × Node) → Node) : Prop :=
  (∀ inner, wrap inner = .table own inner) ∨
    own = .header ∧ ∃ before, ∀ inner, wrap inner = .tables (inner :: before)

/-- One change does below a key what another one does in the table there. -/
def Below (key : String) (g f : Change) : Prop :=
  ∀ own wrap, Wraps own wrap → ∀ origin inner table,
    f origin (Entries.insert key (wrap inner) table) =
      (g own inner).map fun inner => Entries.insert key (wrap inner) table

theorem below_edit (key : String) (change : Change) (path : List String) :
    Below key (edit .implied change path) (edit .implied change (key :: path)) := by
  intro own wrap wraps origin inner table
  rcases wraps with here | ⟨rfl, before, here⟩ <;>
    simp [edit, Entries.find?_insert, here, Entries.insert_insert]

theorem below_bind {f' g' : Change} (first : Below key g f) (second : Below key g' f') :
    Below key (fun origin table => (g origin table).bind (g' origin))
      (fun origin table => (f origin table).bind (f' origin)) := by
  intro own wrap wraps origin inner table
  simp only [first own wrap wraps]
  cases g own inner with
  | none => rfl
  | some inner => exact second own wrap wraps origin inner table

theorem below_foldlM {α : Type} {f g : α → Change} {xs : List α}
    (each : ∀ x ∈ xs, Below key (g x) (f x)) :
    Below key (fun origin table => xs.foldlM (fun table x => g x origin table) table)
      (fun origin table => xs.foldlM (fun table x => f x origin table) table) := by
  induction xs with
  | nil =>
      intro own wrap wraps origin inner table
      rfl
  | cons x xs ih =>
      simp only [List.mem_cons, forall_eq_or_imp] at each
      simp only [List.foldlM_cons, Option.bind_eq_bind]
      exact below_bind each.1 (ih each.2)

/-- A table that is missing is like an empty one on the way. -/
theorem edit_missing (absent : Entries.find? key table = none) (change : Change)
    (path : List String) (origin : Origin) : edit .implied change (key :: path) origin table =
      edit .implied change (key :: path) origin (Entries.insert key (.table .implied []) table) := by
  rw [below_edit key change path .implied _ (.inl fun _ => rfl)]
  simp [edit, absent]

/-! ## What a section changes -/

/-- A section under a key. -/
def Section.under (key : String) (s : Section) : Section := { s with path := key :: s.path }

/-- What the header of a section changes. -/
def Section.opening (s : Section) : Change :=
  match s.path.getLast? with
  | none => fun _ table => some table
  | some key =>
    edit .implied (if s.isElement then Node.openElement key else Node.openTable key) s.path.dropLast

/-- What entries change as they come back, in the table at the end of a path. -/
def entering (path : List String) (entries : List (String × Value)) : Change := fun origin table =>
  entries.foldlM (fun table e =>
    edit .implied (Node.setPath [e.1] (e.2.reread rereadDouble)) path origin table) table

/-- What a section changes. -/
def Section.change (s : Section) : Change := fun origin table =>
  (s.opening origin table).bind (entering s.path s.entries origin)

/-- What sections change, one after another. -/
def changing (ss : List Section) : Change := fun origin table =>
  ss.foldlM (fun table s => s.change origin table) table

theorem below_entering (key : String) (path : List String) (entries : List (String × Value)) :
    Below key (entering path entries) (entering (key :: path) entries) :=
  below_foldlM fun _ _ => below_edit key _ path

theorem opening_under (key : String) {s : Section} (some : s.path ≠ []) : ∃ change,
    s.opening = edit .implied change s.path.dropLast ∧
      (s.under key).opening = edit .implied change (key :: s.path.dropLast) := by
  have last := List.getLast?_eq_some_getLast some
  have last' : (key :: s.path).getLast? = .some (s.path.getLast some) := by
    rw [List.getLast?_cons_of_ne_nil some, last]
  refine ⟨if s.isElement then Node.openElement (s.path.getLast some)
    else Node.openTable (s.path.getLast some), ?_, ?_⟩
  · rw [Section.opening, last]
  · rw [Section.opening, Section.under, last', List.dropLast_cons_of_ne_nil some]

theorem below_change (key : String) {s : Section} (some : s.path ≠ []) :
    Below key s.change (s.under key).change := by
  obtain ⟨change, here, there⟩ := opening_under key some
  unfold Section.change
  rw [here, there]
  exact below_bind (below_edit key change _) (below_entering key s.path s.entries)

theorem below_changing (key : String) {ss : List Section} (some : ∀ s ∈ ss, s.path ≠ []) :
    Below key (changing ss) (changing (ss.map (Section.under key))) := by
  unfold changing
  simp only [List.foldlM_map]
  exact below_foldlM fun s listed => below_change key (some s listed)

/-- Sections below a key make the table there, if it is missing. -/
theorem changing_missing (absent : Entries.find? key table = none) {ss : List Section}
    (nonempty : ss ≠ []) (some : ∀ s ∈ ss, s.path ≠ []) (origin : Origin) :
    changing (ss.map (Section.under key)) origin table =
      (changing ss .implied []).map fun inner =>
        Entries.insert key (.table .implied inner) table := by
  rw [← below_changing key some .implied _ (.inl fun _ => rfl) origin]
  obtain ⟨s, more, rfl⟩ := List.exists_cons_of_ne_nil nonempty
  obtain ⟨change, -, there⟩ := opening_under key (some s (by simp))
  simp only [changing, List.map_cons, List.foldlM_cons, Section.change, there]
  rw [edit_missing absent]

/-! ## The sections of the tables in a table -/

mutual

theorem sections_under (key : String) (path : List String) (isElement : Bool)
    (entries : List (String × Value)) : sections (key :: path) isElement entries =
      (sections path isElement entries).map (Section.under key) := by
  rw [sections, sections, sectionsBelow_under key path entries]
  split <;> simp [Section.under]

theorem sectionsBelow_under (key : String) (path : List String)
    (entries : List (String × Value)) : sectionsBelow (key :: path) entries =
      (sectionsBelow path entries).map (Section.under key) := by
  match entries with
  | [] => simp [sectionsBelow]
  | (name, v) :: entries =>
      rw [sectionsBelow, sectionsBelow, List.cons_append,
        valueSections_under key (path ++ [name]) v, sectionsBelow_under key path entries,
        List.map_append]

theorem valueSections_under (key : String) (path : List String) (v : Value) :
    valueSections (key :: path) v = (valueSections path v).map (Section.under key) := by
  match v with
  | .map entries => rw [valueSections, valueSections, sections_under key path false entries]
  | .list items =>
      rw [valueSections, valueSections, elementSections_under key path items]
      split <;> rfl
  | .null | .bool _ | .integer _ | .float _ | .string _ | .timestamp _ => simp [valueSections]

theorem elementSections_under (key : String) (path : List String) (items : List Value) :
    elementSections (key :: path) items =
      (elementSections path items).map (Section.under key) := by
  match items with
  | [] => simp [elementSections]
  | .map entries :: items =>
      rw [elementSections, elementSections, sections_under key path true entries,
        elementSections_under key path items, List.map_append]
  | .null :: items | .bool _ :: items | .integer _ :: items | .float _ :: items
  | .string _ :: items | .timestamp _ :: items | .list _ :: items =>
      simp [elementSections, elementSections_under key path items]

end

theorem path_ne_nil_of_mem {s : Section} (listed : s ∈ sectionsBelow [] entries) :
    s.path ≠ [] := by
  induction entries with
  | nil => simp [sectionsBelow] at listed
  | cons e entries ih =>
      rw [sectionsBelow, List.nil_append, valueSections_under, List.mem_append] at listed
      rcases listed with here | later
      · obtain ⟨s, -, rfl⟩ := List.mem_map.mp here
        simp [Section.under]
      · exact ih later

/-! ## What the sections of a value build -/

/-- What the plain entries of a table and the sections of the tables in it change. -/
def filling (path : List String) (entries : List (String × Value)) : Change := fun origin table =>
  (entering path (plainEntries entries) origin table).bind
    (changing (sectionsBelow path entries) origin)

theorem below_filling (key : String) (entries : List (String × Value)) :
    Below key (filling [] entries) (filling [key] entries) := by
  unfold filling
  rw [sectionsBelow_under]
  exact below_bind (below_entering key [] _) (below_changing key fun s => path_ne_nil_of_mem)

/-- A table is filled with its entries as they come back. -/
def Fills (entries : List (String × Value)) : Prop := ∀ origin, origin ≠ .dotted →
  ∃ inner, filling [] entries origin [] = some inner ∧
    entriesToValues inner = entries.map fun e => (e.1, e.2.reread rereadDouble)

/-- The sections of a value build it under a key that is missing. -/
def Builds (v : Value) : Prop := ∀ key origin table, Entries.find? key table = none →
  ∃ node, changing (valueSections [key] v) origin table = some (Entries.insert key node table) ∧
    toValue node = v.reread rereadDouble

theorem changing_append (first second : List Section) (origin : Origin)
    (table : List (String × Node)) : changing (first ++ second) origin table =
      (changing first origin table).bind (changing second origin) :=
  List.foldlM_append ..

theorem reread_map (entries : List (String × Value)) : (Value.map entries).reread rereadDouble =
    .map (entries.map fun e => (e.1, e.2.reread rereadDouble)) := by
  rw [Value.reread, Value.rereadEntries_eq]

/-- A table behind a header of its own. -/
theorem changing_opened (fills : Fills entries) (wraps : Wraps own wrap) (notDotted : own ≠ .dotted)
    {isElement : Bool} {table' : List (String × Node)}
    (opened : Section.opening ⟨[key], isElement, plainEntries entries⟩ origin table =
      some (Entries.insert key (wrap []) table')) :
    ∃ inner, changing (⟨[key], isElement, plainEntries entries⟩ :: sectionsBelow [key] entries)
        origin table = some (Entries.insert key (wrap inner) table') ∧
      .map (entriesToValues inner) = (Value.map entries).reread rereadDouble := by
  obtain ⟨inner, filled, values⟩ := fills own notDotted
  refine ⟨inner, ?_, by rw [values, reread_map]⟩
  have below := below_filling key entries own wrap wraps origin [] table'
  rw [filled] at below
  simp only [changing, List.foldlM_cons, Section.change, opened, Option.bind_some]
  exact below

/-- A table without a header of its own. -/
theorem changing_implied (fills : Fills entries) (absent : Entries.find? key table = none)
    (plain : plainEntries entries = []) (nonempty : entries ≠ []) (origin : Origin) : ∃ inner,
      changing (sectionsBelow [key] entries) origin table =
        some (Entries.insert key (.table .implied inner) table) ∧
      .map (entriesToValues inner) = (Value.map entries).reread rereadDouble := by
  obtain ⟨inner, filled, values⟩ := fills .implied (by decide)
  refine ⟨inner, ?_, by rw [values, reread_map]⟩
  have sections : changing (sectionsBelow [] entries) .implied [] = some inner := by
    rw [filling, plain] at filled
    exact filled
  have some : sectionsBelow [] entries ≠ [] := by
    intro none
    rw [none] at sections
    obtain rfl : [] = inner := Option.some.inj sections
    exact nonempty (List.map_eq_nil_iff.mp values.symm)
  rw [sectionsBelow_under, changing_missing absent some (fun s => path_ne_nil_of_mem), sections]
  rfl

theorem builds_map (fills : Fills entries) : Builds (.map entries) := by
  intro key origin table absent
  rw [valueSections, sections]
  by_cases own : !(plainEntries entries).isEmpty || entries.isEmpty
  · have opened : Section.opening ⟨[key], false, plainEntries entries⟩ origin table =
        some (Entries.insert key (.table .header []) table) := by
      simp [Section.opening, edit, Node.openTable, absent]
    obtain ⟨inner, built, values⟩ := changing_opened fills (.inl fun _ => rfl) (by decide) opened
    exact ⟨.table .header inner, by simpa [own] using built, values⟩
  · simp only [Bool.or_eq_true, Bool.not_eq_true', not_or, Bool.not_eq_false,
      List.isEmpty_iff] at own
    obtain ⟨inner, built, values⟩ := changing_implied fills absent own.1 own.2 origin
    exact ⟨.table .implied inner, by simpa [own] using built, values⟩

/-! ### Arrays of tables -/

/-- Each table of an array is its last element for a while. -/
theorem changing_elements (isTable : ∀ v ∈ items, ∃ entries, v = .map entries ∧ Fills entries)
    (key : String) (before : List (List (String × Node))) (origin : Origin)
    (table : List (String × Node)) :
    ∃ after, changing (elementSections [key] items) origin
        (Entries.insert key (.tables before) table) =
          some (Entries.insert key (.tables after) table) ∧
      (elementsToValues after).reverse =
        (elementsToValues before).reverse ++ items.map (Value.reread rereadDouble) := by
  induction items generalizing before with
  | nil =>
      rw [elementSections]
      exact ⟨before, rfl, by simp⟩
  | cons v items ih =>
      simp only [List.mem_cons, forall_eq_or_imp] at isTable
      obtain ⟨⟨entries, rfl, fills⟩, others⟩ := isTable
      have opened : Section.opening ⟨[key], true, plainEntries entries⟩ origin
          (Entries.insert key (.tables before) table) =
            some (Entries.insert key (.tables ([] :: before)) table) := by
        simp [Section.opening, edit, Node.openElement, Entries.find?_insert,
          Entries.insert_insert]
      obtain ⟨inner, built, values⟩ :=
        changing_opened fills (.inr ⟨rfl, before, fun _ => rfl⟩) (by decide) opened
      obtain ⟨after, built', order⟩ := ih others (inner :: before)
      refine ⟨after, ?_, ?_⟩
      · rw [elementSections, sections, Bool.true_or, Bool.true_or, if_pos rfl,
          List.singleton_append, changing_append, built]
        exact built'
      · rw [order]
        simp [elementsToValues, values]

/-- The first element makes the array. -/
theorem changing_elements_missing (absent : Entries.find? key table = none)
    (entries : List (String × Value)) (items : List Value) (origin : Origin) :
    changing (elementSections [key] (.map entries :: items)) origin table =
      changing (elementSections [key] (.map entries :: items)) origin
        (Entries.insert key (.tables []) table) := by
  rw [elementSections, sections, Bool.true_or, Bool.true_or, if_pos rfl, List.singleton_append,
    List.cons_append]
  simp only [changing, List.foldlM_cons, Section.change]
  simp [Section.opening, edit, Node.openElement, absent, Entries.find?_insert,
    Entries.insert_insert]

theorem builds_list (nonempty : items ≠ [])
    (isTable : ∀ v ∈ items, ∃ entries, v = .map entries ∧ Fills entries) :
    Builds (.list items) := by
  intro key origin table absent
  obtain ⟨after, built, order⟩ := changing_elements isTable key [] origin table
  have all : items.all isMap = true := by
    rw [List.all_eq_true]
    intro v listed
    obtain ⟨entries, rfl, -⟩ := isTable v listed
    rfl
  refine ⟨.tables after, ?_, ?_⟩
  · obtain ⟨v, more, rfl⟩ := List.exists_cons_of_ne_nil nonempty
    obtain ⟨entries, rfl, -⟩ := isTable v (by simp)
    rw [valueSections, if_pos all, changing_elements_missing absent, built]
  · rw [toValue, order, Value.reread, Value.rereadItems_eq]
    rfl

/-! ### A whole table -/

theorem valueSections_plain (path : List String) (plain : isTabular v = false) :
    valueSections path v = [] := by
  cases v with
  | map entries => cases plain
  | list items =>
      rw [valueSections]
      simp only [isTabular, Bool.and_eq_false_iff, Bool.not_eq_false', List.isEmpty_iff] at plain
      rcases plain with rfl | some
      · simp [elementSections]
      · simp [some]
  | _ => simp [valueSections]

theorem entriesToValues_insert (key : String) (node : Node) (table : List (String × Node)) :
    entriesToValues (Entries.insert key node table) =
      Entries.insert key (toValue node) (entriesToValues table) := by
  induction table with
  | nil => rfl
  | cons first rest ih =>
      obtain ⟨k, n⟩ := first
      simp only [Entries.insert, entriesToValues]
      split
      · simp [entriesToValues]
      · split
        · simp [entriesToValues]
        · simp [entriesToValues, ih]

/-- The tables in a table are entered one after another. -/
theorem changing_below (ascending : Ascending entries) (origin : Origin)
    (builds : ∀ e ∈ entries, isTabular e.2 = true → Builds e.2)
    (absent : ∀ e ∈ entries, isTabular e.2 = true → Entries.find? e.1 table = none) :
    ∃ inner, changing (sectionsBelow [] entries) origin table = some inner ∧
      entriesToValues inner = ((entries.filter fun e => isTabular e.2).map fun e =>
        (e.1, e.2.reread rereadDouble)).foldl (fun values e => Entries.insert e.1 e.2 values)
          (entriesToValues table) := by
  induction entries generalizing table with
  | nil =>
      rw [sectionsBelow]
      exact ⟨table, rfl, rfl⟩
  | cons e entries ih =>
      obtain ⟨above, ascending⟩ := List.pairwise_cons.mp ascending
      simp only [List.mem_cons, forall_eq_or_imp] at builds absent
      rw [sectionsBelow, List.nil_append, changing_append]
      cases tabular : isTabular e.2 with
      | false =>
          rw [valueSections_plain [e.1] tabular, List.filter_cons_of_neg (by simp [tabular])]
          exact ih ascending builds.2 absent.2
      | true =>
          obtain ⟨node, built, value⟩ := builds.1 tabular e.1 origin table (absent.1 tabular)
          -- The other keys are greater, so their tables are still missing.
          have others : ∀ e' ∈ entries, isTabular e'.2 = true →
              Entries.find? e'.1 (Entries.insert e.1 node table) = none := by
            intro e' listed tabular'
            rw [Entries.find?_insert, if_neg, absent.2 e' listed tabular']
            exact fun same => absurd (same ▸ above e' listed) (String.lt_irrefl _)
          obtain ⟨inner, built', values⟩ := ih ascending builds.2 others
          refine ⟨inner, by rw [built]; exact built', ?_⟩
          rw [values, List.filter_cons_of_pos (by simp [tabular]), entriesToValues_insert, value]
          rfl

theorem entering_of_ascending (ascending : Ascending entries) (notDotted : origin ≠ .dotted) :
    entering [] entries origin [] =
      some ((entries.map fun e => (e.1, e.2.reread rereadDouble)).map fun e => (e.1, .leaf e.2)) := by
  rw [← setPaths_of_ascending notDotted (Entries.ascending_map _ ascending), List.foldlM_map]
  rfl

/-- Plain entries and tables together are all entries. -/
theorem fills_of_builds (ascending : Ascending entries)
    (builds : ∀ e ∈ entries, isTabular e.2 = true → Builds e.2) : Fills entries := by
  intro origin notDotted
  have ordered : Ascending (plainEntries entries) := ascending.filter _
  have plain := entering_of_ascending ordered notDotted
  have absent : ∀ e ∈ entries, isTabular e.2 = true → Entries.find? e.1
      (((plainEntries entries).map fun e => (e.1, e.2.reread rereadDouble)).map
        fun e => (e.1, Node.leaf e.2)) = none := by
    intro e listed tabular
    have found := (Entries.find?_eq_some ascending).mpr listed
    rw [Entries.find?_map, Entries.find?_map, plainEntries, Entries.find?_filter ascending, found]
    simp [tabular]
  obtain ⟨inner, built, values⟩ := changing_below ascending origin builds absent
  refine ⟨inner, by rw [filling, plain]; exact built, ?_⟩
  rw [values, entriesToValues_leaves, Entries.foldl_insert (Entries.ascending_map _ ordered)]
  exact Entries.ofList_partition (Value.reread rereadDouble) ascending fun e => isTabular e.2

/-- A value in order is built by its sections, and a map is filled with its entries. -/
theorem builds_of_wellFormed (sound : v.WellFormed) :
    (isTabular v = true → Builds v) ∧ ∀ entries, v = .map entries → Fills entries := by
  induction v using Value.recParts with
  | scalar v scalar => cases v <;> simp_all [Value.IsScalar, isTabular]
  | list items ih =>
      rw [Value.wellFormed_list] at sound
      refine ⟨fun tabular => ?_, by simp⟩
      simp only [isTabular, Bool.and_eq_true, Bool.not_eq_true', List.isEmpty_eq_false_iff,
        List.all_eq_true] at tabular
      refine builds_list tabular.1 fun v listed => ?_
      have map := tabular.2 v listed
      cases v with
      | map entries => exact ⟨entries, rfl, (ih _ listed (sound _ listed)).2 entries rfl⟩
      | _ => cases map
  | map entries ih =>
      rw [Value.wellFormed_map] at sound
      have fills : Fills entries := fills_of_builds sound.1 fun e listed tabular =>
        (ih e listed (sound.2 e listed)).1 tabular
      refine ⟨fun _ => builds_map fills, ?_⟩
      rintro _ ⟨⟩
      exact fills

/-! ## A document -/

/-- The statement that the header of a section makes. -/
def Section.heading (s : Section) : List Statement :=
  if s.path.isEmpty then [] else [if s.isElement then .element s.path else .table s.path]

/-- What a section says as it comes back. -/
def Section.statements (s : Section) : List Statement :=
  s.heading ++ s.entries.map fun e => .entry [e.1] (e.2.reread rereadDouble)

theorem say_entries (path : List String) (entries : List (String × Value))
    (table : List (String × Node)) :
    (entries.map fun e => Statement.entry [e.1] (e.2.reread rereadDouble)).foldlM Document.say
        ⟨path, table⟩ =
      (entering path entries .header table).map fun table => ⟨path, table⟩ := by
  induction entries generalizing table with
  | nil => rfl
  | cons e entries ih =>
      rw [List.map_cons, List.foldlM_cons, entering, List.foldlM_cons]
      simp only [Document.say]
      cases edit .implied (Node.setPath [e.1] (e.2.reread rereadDouble)) path .header table with
      | none => rfl
      | some table => exact ih table

theorem say_heading {s : Section} (some : s.path ≠ []) (current : List String)
    (table : List (String × Node)) : s.heading.foldlM Document.say ⟨current, table⟩ =
      (s.opening .header table).map fun table => ⟨s.path, table⟩ := by
  obtain ⟨path, isElement, entries⟩ := s
  have last := List.getLast?_eq_some_getLast some
  simp only at some last
  cases isElement <;>
    simp [Section.heading, Section.opening, Document.say, Document.openAt, some, last]

/-- A section changes the document; its entries go to the table of its header. -/
theorem say_section {s : Section} {current : List String} (here : s.path = [] → current = [])
    (table : List (String × Node)) : s.statements.foldlM Document.say ⟨current, table⟩ =
      (s.change .header table).map fun table => ⟨s.path, table⟩ := by
  rw [Section.statements, List.foldlM_append]
  by_cases own : s.path = []
  · rw [Section.heading, Section.change, Section.opening, here own, own]
    exact say_entries [] s.entries table
  · rw [say_heading own, Section.change]
    cases s.opening .header table with
    | none => rfl
    | some table => exact say_entries s.path s.entries table

/-- Further sections have headers. -/
theorem say_sections {ss : List Section} (some : ∀ s ∈ ss, s.path ≠ []) (d : Document) :
    ((ss.flatMap Section.statements).foldlM Document.say d).map Document.entries =
      changing ss .header d.entries := by
  induction ss generalizing d with
  | nil => rfl
  | cons s ss ih =>
      simp only [List.mem_cons, forall_eq_or_imp] at some
      rw [List.flatMap_cons, List.foldlM_append, changing, List.foldlM_cons,
        say_section (fun none => absurd none some.1)]
      cases s.change .header d.entries with
      | none => rfl
      | some table => exact ih some.2 ⟨s.path, table⟩

/-- The sections that are written: the document's own section only if it has entries. -/
def written (entries : List (String × Value)) : List Section :=
  (sections [] false entries).filter fun s => !(s.path.isEmpty && s.entries.isEmpty)

theorem written_eq (entries : List (String × Value)) : written entries =
    (if plainEntries entries = [] then [] else [⟨[], false, plainEntries entries⟩]) ++
      sectionsBelow [] entries := by
  have below : (sectionsBelow [] entries).filter (fun s => !(s.path.isEmpty && s.entries.isEmpty)) =
      sectionsBelow [] entries := by
    rw [List.filter_eq_self]
    intro s listed
    simp [path_ne_nil_of_mem listed]
  rw [written, sections, List.filter_append, below]
  by_cases plain : plainEntries entries = []
  · simp [plain]
  · simp [plain]

/-- What a document says builds its entries as they come back. -/
theorem ofStatements?_written (sound : (Value.map entries).WellFormed) :
    ∃ d, Document.ofStatements? ((written entries).flatMap Section.statements) = some d ∧
      d.toValue = (Value.map entries).reread rereadDouble := by
  obtain ⟨inner, filled, values⟩ :=
    (builds_of_wellFormed sound).2 entries rfl .header (by decide)
  have said : (Document.ofStatements? ((written entries).flatMap Section.statements)).map
      Document.entries = some inner := by
    rw [Document.ofStatements?, written_eq, List.flatMap_append, List.foldlM_append, ← filled,
      filling]
    by_cases plain : plainEntries entries = []
    · rw [if_pos plain, plain]
      exact say_sections (fun s => path_ne_nil_of_mem) .empty
    · rw [if_neg plain, List.flatMap_singleton, Document.empty, say_section fun _ => rfl]
      have own : Section.change ⟨[], false, plainEntries entries⟩ .header [] =
          entering [] (plainEntries entries) .header [] := rfl
      rw [own]
      cases entering [] (plainEntries entries) .header [] with
      | none => rfl
      | some table => exact say_sections (fun s => path_ne_nil_of_mem) ⟨[], table⟩
  obtain ⟨d, built, eq⟩ := Option.map_eq_some_iff.mp said
  exact ⟨d, built, by rw [Document.toValue, eq, values, reread_map]⟩

end Toml

end Mvc
