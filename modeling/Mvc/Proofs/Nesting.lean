import Mvc.Proofs.Addressing

/-! # What nesting keeps

Nesting puts values one by one at the ends of their paths. What one step changes is settled by how
a path lies to the one that is written: behind its end, on the way to it, or apart. The keys come
in order, so a key comes before all keys below it. An entry whose key has others below it gives
way to their group; every other entry stays where it was put, as long as no map that is stored as
a value stands there already.
-/

namespace Mvc.Settings

open Key Value

variable {tree : List (String × Value)} {v w : Value} {path more : List String}
  {flat : Dict Value} {key key' : String}

/-! ## One step -/

theorem at?_groupEntries (found : Option Value) (some : path ≠ []) :
    at? path (.map (groupEntries found)) = found.bind (at? path) := by
  obtain ⟨name, rest, rfl⟩ := List.exists_cons_of_ne_nil some
  cases found with
  | none => rfl
  | some v => cases v <;> rfl

theorem insertNested_cons (name : String) (some : path ≠ []) (v : Value)
    (tree : List (String × Value)) : insertNested v (name :: path) tree =
      Entries.insert name (.map (insertNested v path (groupEntries (Entries.find? name tree))))
        tree := by
  obtain ⟨next, rest, rfl⟩ := List.exists_cons_of_ne_nil some
  rfl

theorem find?_insertNested (name name' : String) (some : path ≠ []) :
    Entries.find? name' (insertNested v (name :: path) tree) =
      if name' = name then
        .some (.map (insertNested v path (groupEntries (Entries.find? name tree))))
      else Entries.find? name' tree := by
  rw [insertNested_cons name some, Entries.find?_insert]

theorem find?_insertNested_last (name name' : String) :
    Entries.find? name' (insertNested v [name] tree) =
      if name' = name then some ((Entries.find? name tree).getD v) else Entries.find? name' tree := by
  simp only [insertNested]
  split
  · next there =>
      obtain ⟨w, found⟩ := Option.isSome_iff_exists.mp there
      split
      · next same => simp [same, found]
      · rfl
  · next absent =>
      rw [Entries.find?_insert]
      simp [Option.not_isSome_iff_eq_none.mp absent]

/-- At the end of the path stands what stood there before, else what was put there. -/
theorem at?_insertNested (some : path ≠ []) :
    at? path (.map (insertNested v path tree)) = .some ((at? path (.map tree)).getD v) := by
  induction path generalizing tree with
  | nil => contradiction
  | cons name path ih =>
      by_cases last : path = []
      · subst last
        cases found : Entries.find? name tree <;> simp [find?_insertNested_last, found]
      · simp only [at?_cons, find?_insertNested name name last, if_true, Option.bind_some, ih last,
          at?_groupEntries _ last]

theorem at?_insertNested_below (some : path ≠ []) (more : List String) :
    at? (path ++ more) (.map (insertNested v path tree)) =
      at? more ((at? path (.map tree)).getD v) := by
  rw [at?_append, at?_insertNested some, Option.bind_some]

/-- On the way to the end of the path stand groups. -/
theorem at?_insertNested_above (v : Value) (path : List String) (tree : List (String × Value))
    (some : more ≠ []) :
    ∃ group, at? path (.map (insertNested v (path ++ more) tree)) = .some (.map group) := by
  induction path generalizing tree with
  | nil => exact ⟨_, rfl⟩
  | cons name path ih =>
      have longer : path ++ more ≠ [] := by simp [some]
      simp only [List.cons_append, at?_cons, find?_insertNested name name longer, if_true,
        Option.bind_some]
      exact ih _

/-- Apart from the path nothing changes. -/
theorem at?_insertNested_apart {other : List String} (notBelow : ¬path <+: other)
    (notAbove : ¬other <+: path) :
    at? other (.map (insertNested v path tree)) = at? other (.map tree) := by
  induction path generalizing other tree with
  | nil => exact absurd List.nil_prefix notBelow
  | cons name path ih =>
      cases other with
      | nil => exact absurd List.nil_prefix notAbove
      | cons name' other =>
          by_cases same : name' = name
          · subst same
            simp only [List.cons_prefix_cons, true_and] at notBelow notAbove
            have some : path ≠ [] := fun none => notBelow (none ▸ List.nil_prefix)
            have some' : other ≠ [] := fun none => notAbove (none ▸ List.nil_prefix)
            simp only [at?_cons, find?_insertNested name' name' some, if_true, Option.bind_some,
              ih notBelow notAbove, at?_groupEntries _ some']
          · cases path with
            | nil => simp [find?_insertNested_last, same]
            | cons => simp [find?_insertNested, same]

/-- What holds of a map as soon as it holds of all its values, and the keys ascend, is kept. -/
theorem kept_insertNested {P : Value → Prop}
    (maps : ∀ tree, P (.map tree) ↔ Ascending tree ∧ ∀ e ∈ tree, P e.2) (before : P (.map tree))
    (value : P v) : P (.map (insertNested v path tree)) := by
  induction path generalizing tree with
  | nil => exact before
  | cons name path ih =>
      obtain ⟨ascending, inside⟩ := (maps tree).mp before
      have entered : ∀ {w : Value}, P w → P (.map (Entries.insert name w tree)) := by
        intro w here
        refine (maps _).mpr ⟨Entries.ascending_insert name w ascending, fun e listed => ?_⟩
        rcases Entries.mem_insert listed with rfl | listed
        · exact here
        · exact inside e listed
      cases path with
      | nil =>
          simp only [insertNested]
          split
          · exact before
          · exact entered value
      | cons next path =>
          refine entered (ih ?_)
          have none : P (.map []) := (maps []).mpr ⟨List.Pairwise.nil, by simp⟩
          cases found : Entries.find? name tree with
          | none => exact none
          | some w =>
              have here := inside _ (Entries.mem_of_find? found)
              cases w with
              | map entries => exact here
              | _ => exact none

/-! ## All steps -/

/-- The tree of some values, put in one after another. -/
def nestAll (entries : List (String × Value)) : List (String × Value) :=
  entries.foldl (fun tree e => insertNested e.2 (Key.path e.1) tree) []

theorem nest_eq (flat : Dict Value) : nest flat = nestAll flat.entries := rfl

theorem nestAll_append (entries : List (String × Value)) (e : String × Value) :
    nestAll (entries ++ [e]) = insertNested e.2 (Key.path e.1) (nestAll entries) := by
  simp [nestAll]

variable {entries : List (String × Value)}

theorem kept_nestAll {P : Value → Prop}
    (maps : ∀ tree, P (.map tree) ↔ Ascending tree ∧ ∀ e ∈ tree, P e.2)
    (values : ∀ e ∈ entries, P e.2) : P (.map (nestAll entries)) := by
  induction entries using List.reverseRecOn with
  | nil => exact (maps []).mpr ⟨List.Pairwise.nil, by simp⟩
  | append_singleton entries e ih =>
      rw [nestAll_append]
      exact kept_insertNested maps (ih fun e' listed => values e' (by simp [listed]))
        (values e (by simp))

theorem ordered_nestAll (ordered : ∀ e ∈ entries, e.2.Ordered) :
    (Value.map (nestAll entries)).Ordered :=
  kept_nestAll (fun _ => ordered_map) ordered

/-- How a path lies to another one. -/
theorem prefix_cases (path other : List String) : (∃ more, other = path ++ more) ∨
    (∃ more, more ≠ [] ∧ path = other ++ more) ∨ ¬path <+: other ∧ ¬other <+: path := by
  by_cases below : path <+: other
  · obtain ⟨more, eq⟩ := below
    exact .inl ⟨more, eq.symm⟩
  · by_cases above : other <+: path
    · obtain ⟨more, rfl⟩ := above
      refine .inr (.inl ⟨more, ?_, rfl⟩)
      rintro rfl
      simp at below
    · exact .inr (.inr ⟨below, above⟩)

/-- Whatever stands in the tree is a group on the way to some key or comes from an entry. -/
theorem origin (some : path ≠ []) (found : at? path (.map (nestAll entries)) = .some w)
    (noGroup : IsLeaf w ∨ ∀ e ∈ entries, ∀ more, more ≠ [] → Key.path e.1 ≠ path ++ more) :
    ∃ e ∈ entries, ∃ more, path = Key.path e.1 ++ more ∧ at? more e.2 = .some w := by
  induction entries using List.reverseRecOn with
  | nil =>
      obtain ⟨name, rest, rfl⟩ := List.exists_cons_of_ne_nil some
      simp [nestAll] at found
  | append_singleton entries e ih =>
      have earlier : at? path (.map (nestAll entries)) = .some w → ∃ e' ∈ entries ++ [e],
          ∃ more, path = Key.path e'.1 ++ more ∧ at? more e'.2 = .some w := by
        intro before
        have noGroup' : IsLeaf w ∨ ∀ e' ∈ entries, ∀ more, more ≠ [] →
            Key.path e'.1 ≠ path ++ more :=
          noGroup.imp_right fun apart e' listed => apart e' (by simp [listed])
        obtain ⟨e', listed, more, eq, held⟩ := ih before noGroup'
        exact ⟨e', by simp [listed], more, eq, held⟩
      rw [nestAll_append] at found
      rcases prefix_cases (Key.path e.1) path with ⟨more, rfl⟩ | ⟨more, longer, eq⟩ | ⟨below, above⟩
      · rw [at?_insertNested_below (path_ne_nil e.1)] at found
        cases before : at? (Key.path e.1) (.map (nestAll entries)) with
        | none => exact ⟨e, by simp, more, rfl, by simpa [before] using found⟩
        | some x =>
            rw [before, Option.getD_some] at found
            exact earlier (by rw [at?_append, before, Option.bind_some, found])
      · obtain ⟨group, here⟩ := eq ▸ at?_insertNested_above e.2 path (nestAll entries) longer
        rw [here, Option.some.injEq] at found
        rcases noGroup with leaf | apart
        · exact absurd leaf (found ▸ id)
        · exact absurd eq (apart e (by simp) more longer)
      · rw [at?_insertNested_apart below above] at found
        exact earlier found

/-- A group stays a group. -/
theorem group_stays (later : List (String × Value)) {group : List (String × Value)}
    (found : at? path (.map (nestAll entries)) = some (.map group)) :
    ∃ group, at? path (.map (nestAll (entries ++ later))) = some (.map group) := by
  induction later using List.reverseRecOn with
  | nil => exact ⟨group, by rwa [List.append_nil]⟩
  | append_singleton later e ih =>
      obtain ⟨group', here⟩ := ih
      rw [← List.append_assoc, nestAll_append]
      rcases prefix_cases (Key.path e.1) path with ⟨more, rfl⟩ | ⟨more, longer, eq⟩ | ⟨below, above⟩
      · refine ⟨group', ?_⟩
        rw [at?_append, Option.bind_eq_some_iff] at here
        obtain ⟨x, there, inside⟩ := here
        rw [at?_insertNested_below (path_ne_nil e.1), there, Option.getD_some, inside]
      · exact eq ▸ at?_insertNested_above e.2 path _ longer
      · exact ⟨group', by rw [at?_insertNested_apart below above, here]⟩

/-- Where a key has others below it stands a group. -/
theorem group_of_isBelow (listed : key' ∈ entries.map (·.1)) (below : IsBelow key' key) :
    ∃ group, at? (Key.path key) (.map (nestAll entries)) = some (.map group) := by
  obtain ⟨e, there, rfl⟩ := List.mem_map.mp listed
  obtain ⟨before, later, rfl⟩ := List.append_of_mem there
  obtain ⟨more, longer, eq⟩ := isBelow_iff.mp below
  obtain ⟨group, here⟩ := at?_insertNested_above e.2 (Key.path key) (nestAll before) longer
  rw [← eq, ← nestAll_append] at here
  rw [show before ++ e :: later = before ++ [e] ++ later by simp]
  exact group_stays later here

/-- A value stored under one key holds something at the place of another key, or a leaf that
    flattens to it. -/
def Covers (key : String) (v : Value) (key' : String) : Prop :=
  ∃ names w, names ≠ [] ∧ at? names v = some w ∧
    (Key.path key' = Key.path key ++ names ∨ IsLeaf w ∧ keyAlong key names = key')

theorem not_covers_of_isLeaf (leaf : IsLeaf v) : ¬Covers key v key' := by
  rintro ⟨names, w, some, found, -⟩
  rw [at?_of_isLeaf leaf some] at found
  cases found

/-- An entry that no other key goes below stays where it is put, if nothing covers its key. -/
theorem at?_nest (listed : (key, v) ∈ flat.entries) (outermost : ∀ k ∈ flat.keys, ¬IsBelow k key)
    (free : ∀ e ∈ flat.entries, ¬Covers e.1 e.2 key) :
    at? (Key.path key) (.map (nest flat)) = some v := by
  obtain ⟨before, later, split⟩ := List.append_of_mem listed
  have ascending := flat.ascending
  rw [Ascending, split, List.pairwise_append] at ascending
  obtain ⟨-, ascending, below⟩ := ascending
  have after := (List.pairwise_cons.mp ascending).1
  have keys : ∀ e ∈ flat.entries, ∀ more, more ≠ [] → Key.path e.1 ≠ Key.path key ++ more :=
    fun e there more some eq =>
      outermost e.1 (List.mem_map_of_mem there) (isBelow_iff.mpr ⟨more, some, eq⟩)
  -- Nothing stands there when the entry is put: what stood there would cover its key.
  have vacant : at? (Key.path key) (.map (nestAll before)) = none := by
    by_contra taken
    obtain ⟨w, found⟩ := Option.ne_none_iff_exists'.mp taken
    obtain ⟨e, there, more, eq, held⟩ := origin (path_ne_nil key) found
      (.inr fun e there => keys e (by simp [split, there]))
    by_cases here : more = []
    · subst here
      rw [List.append_nil, path_injective] at eq
      exact absurd (eq ▸ below e there (key, v) (by simp)) (String.lt_irrefl _)
    · exact free e (by simp [split, there]) ⟨more, w, here, held, .inl eq⟩
  have placed : at? (Key.path key) (.map (nestAll (before ++ [(key, v)]))) = some v := by
    rw [nestAll_append, at?_insertNested (path_ne_nil key), vacant, Option.getD_none]
  -- The keys ascend, so no later one leads to the place or to a group that it lies in.
  have stays : ∀ more : List (String × Value), (∀ e ∈ more, e ∈ later) →
      at? (Key.path key) (.map (nestAll (before ++ [(key, v)] ++ more))) = some v := by
    intro more
    induction more using List.reverseRecOn with
    | nil => simpa using placed
    | append_singleton more e ih =>
        intro among
        have there : e ∈ later := among e (by simp)
        have lt : key < e.1 := after e there
        rw [← List.append_assoc, nestAll_append]
        rcases prefix_cases (Key.path e.1) (Key.path key) with ⟨rest, eq⟩ | ⟨rest, longer, eq⟩ | apart
        · by_cases here : rest = []
          · subst here
            rw [List.append_nil, path_injective] at eq
            exact absurd (eq ▸ lt) (String.lt_irrefl _)
          · exact absurd (String.lt_trans lt (lt_of_isBelow (isBelow_iff.mpr ⟨rest, here, eq⟩)))
              (String.lt_irrefl _)
        · exact absurd eq (keys e (by simp [split, there]) rest longer)
        · rw [at?_insertNested_apart apart.1 apart.2]
          exact ih fun e' member => among e' (by simp [member])
  rw [nest_eq, split, show before ++ (key, v) :: later = before ++ [(key, v)] ++ later by simp]
  exact stays later fun _ member => member

/-! ## There and back -/

variable (normal : ∀ key ∈ flat.keys, IsNormal key)

include normal in
/-- What comes back under a key comes from an entry. -/
theorem origin_of_get? (ordered : ∀ e ∈ flat.entries, e.2.Ordered)
    {leaf : List String × Value} (listed : leaf ∈ entriesLeaves (nest flat)) :
    ∃ e ∈ flat.entries, ∃ more, at? more e.2 = some leaf.2 ∧ IsLeaf leaf.2 ∧
      leaf.1 = Key.path e.1 ++ more ∧ keyAlong "" leaf.1 = keyAlong e.1 more := by
  obtain ⟨found, isLeaf⟩ := (mem_leaves (ordered_nestAll ordered)).mp listed
  have some : leaf.1 ≠ [] := by
    intro none
    rw [none, at?_nil, Option.some.injEq] at found
    exact absurd isLeaf (found ▸ id)
  obtain ⟨e, there, more, eq, held⟩ := origin some found (.inl isLeaf)
  refine ⟨e, there, more, held, isLeaf, eq, ?_⟩
  rw [eq, keyAlong_path_append (normal e.1 (List.mem_map_of_mem there))]

include normal in
/-- An entry that is put in the tree is the only leaf that its key spells. -/
theorem sole_leaf (ordered : ∀ e ∈ flat.entries, e.2.Ordered)
    (listed : (key, v) ∈ flat.entries) (leaf : IsLeaf v)
    (outermost : ∀ k ∈ flat.keys, ¬IsBelow k key)
    (free : ∀ e ∈ flat.entries, ¬Covers e.1 e.2 key) :
    (Key.path key, v) ∈ entriesLeaves (nest flat) ∧
      ∀ leaf ∈ entriesLeaves (nest flat), keyAlong "" leaf.1 = key → leaf.2 = v := by
  refine ⟨(mem_leaves (ordered_nestAll ordered)).mpr ⟨at?_nest listed outermost free, leaf⟩, ?_⟩
  intro other there spelled
  obtain ⟨e, listed', more, held, isLeaf, -, eq⟩ := origin_of_get? normal ordered there
  rw [eq] at spelled
  by_cases last : more = []
  · subst last
    rw [keyAlong_nil] at spelled
    rw [at?_nil, Option.some.injEq] at held
    have found := (Entries.find?_eq_some flat.ascending).mpr listed
    rw [← spelled, (Entries.find?_eq_some flat.ascending).mpr listed', Option.some.injEq] at found
    exact held.symm.trans found
  · exact absurd ⟨more, other.2, last, held, .inr ⟨isLeaf, spelled⟩⟩ (free e listed')

include normal in
theorem get?_flatten_nest (ordered : ∀ e ∈ flat.entries, e.2.Ordered)
    (listed : (key, v) ∈ flat.entries) (leaf : IsLeaf v)
    (outermost : ∀ k ∈ flat.keys, ¬IsBelow k key)
    (free : ∀ e ∈ flat.entries, ¬Covers e.1 e.2 key) :
    (flatten (nest flat)).get? key = some v := by
  obtain ⟨here, sole⟩ := sole_leaf normal ordered listed leaf outermost free
  have spelled := keyAlong_path (normal key (List.mem_map_of_mem listed))
  exact get?_flatten_eq_some here spelled sole

/-- The entries whose key no other key extends. -/
def outermost (flat : Dict Value) : Dict Value :=
  flat.filter fun key _ => !flat.keys.any fun other => IsBelow other key

theorem get?_outermost (key : String) :
    (outermost flat).get? key = some v ↔ flat.get? key = some v ∧ ∀ k ∈ flat.keys, ¬IsBelow k key := by
  rw [outermost, Dict.get?, Dict.filter, Entries.find?_filter flat.ascending,
    Option.filter_eq_some_iff]
  simp [Dict.get?]

theorem keys_outermost (listed : key ∈ (outermost flat).keys) :
    key ∈ flat.keys ∧ ∀ k ∈ flat.keys, ¬IsBelow k key := by
  obtain ⟨v, found⟩ := Option.isSome_iff_exists.mp (Dict.mem_keys.mp listed)
  rw [get?_outermost] at found
  exact ⟨Dict.mem_keys.mpr (by simp [found.1]), found.2⟩

theorem leaf_of_get? (leaves : ∀ e ∈ flat.entries, IsLeaf e.2) (found : flat.get? key = some v) :
    (key, v) ∈ flat.entries ∧ IsLeaf v := by
  have listed := (Entries.find?_eq_some flat.ascending).mp found
  exact ⟨listed, leaves _ listed⟩

include normal in
theorem flatten_nest (leaves : ∀ e ∈ flat.entries, IsLeaf e.2) :
    flatten (nest flat) = outermost flat := by
  have ordered : ∀ e ∈ flat.entries, e.2.Ordered := fun e listed =>
    ordered_of_isLeaf (leaves e listed)
  refine Dict.ext_get? fun key => Option.ext fun v => ?_
  rw [get?_outermost]
  constructor
  · intro found
    obtain ⟨path, listed, spelled⟩ := mem_entriesLeaves_of_get? found
    obtain ⟨e, there, more, held, isLeaf, eq, along⟩ := origin_of_get? normal ordered listed
    have last : more = [] := by
      by_contra longer
      rw [at?_of_isLeaf (leaves e there) longer] at held
      cases held
    subst last
    simp only [keyAlong_nil, List.append_nil, at?_nil, Option.some.injEq] at along held eq
    obtain rfl : e.1 = key := along.symm.trans spelled
    refine ⟨(Entries.find?_eq_some flat.ascending).mpr (held ▸ there), fun k listed' below => ?_⟩
    obtain ⟨group, here⟩ := group_of_isBelow listed' below
    have found' := ((mem_leaves (ordered_nestAll ordered)).mp listed).1
    rw [eq, here, Option.some.injEq] at found'
    exact absurd isLeaf (found' ▸ id)
  · rintro ⟨found, alone⟩
    obtain ⟨listed, isLeaf⟩ := leaf_of_get? leaves found
    exact get?_flatten_nest normal ordered listed isLeaf alone fun e there =>
      not_covers_of_isLeaf (leaves e there)

theorem outermost_eq_self (apart : ∀ key ∈ flat.keys, ∀ k ∈ flat.keys, ¬IsBelow k key) :
    outermost flat = flat := by
  refine Dict.ext_get? fun key => Option.ext fun v => ?_
  rw [get?_outermost]
  refine ⟨And.left, fun found => ⟨found, apart key (Dict.mem_keys.mpr (by simp [found]))⟩⟩

theorem outermost_outermost (flat : Dict Value) : outermost (outermost flat) = outermost flat :=
  outermost_eq_self fun _ listed k listed' below =>
    (keys_outermost listed).2 k (keys_outermost listed').1 below

/-- Flattening what was nested gives back the entries whose key no other key extends: all of them
    if no key extends another, and nothing less the second time. -/
theorem flatten_nest_outermost (flat : Dict Value) (normal : ∀ key ∈ flat.keys, IsNormal key)
    (leaves : ∀ e ∈ flat.entries, IsLeaf e.2) :
    flatten (nest flat) = outermost flat ∧
      ((∀ key ∈ flat.keys, ∀ k ∈ flat.keys, ¬IsBelow k key) → flatten (nest flat) = flat) ∧
      flatten (nest (flatten (nest flat))) = flatten (nest flat) := by
  have once := flatten_nest normal leaves
  refine ⟨once, fun apart => once.trans (outermost_eq_self apart), ?_⟩
  rw [once]
  refine (flatten_nest (fun key listed => normal key (keys_outermost listed).1) ?_).trans
    (outermost_outermost flat)
  intro e listed
  exact leaves e (List.mem_of_mem_filter listed)

/-- A leaf, a neighbour between it and its group in key order, and the group. -/
def crowded : Dict Value :=
  .ofList [("a", .integer 1), ("a!", .integer 2), ("a/b", .integer 3), ("c", .list [.null])]

theorem flatten_nest_crowded : (∀ key ∈ crowded.keys, IsNormal key) ∧
    (∀ e ∈ crowded.entries, IsLeaf e.2) ∧
      flatten (nest crowded) =
        .ofList [("a!", .integer 2), ("a/b", .integer 3), ("c", .list [.null])] := by
  have normal : ∀ key ∈ crowded.keys, IsNormal key := by decide +kernel
  have leaves : ∀ e ∈ crowded.entries, IsLeaf e.2 := by decide +kernel
  refine ⟨normal, leaves, (flatten_nest_outermost crowded normal leaves).1.trans ?_⟩
  exact Dict.ext_get? fun key => congrArg (Entries.find? key) (by decide +kernel)

/-! ## Settings with maps among their values -/

/-- Writing leaves keys in normal form and well-formed values. -/
theorem sound_after (deeds : List Deed) :
    (∀ key ∈ (after .empty deeds).values.keys, IsNormal key) ∧
      ∀ e ∈ (after .empty deeds).values.entries, e.2.WellFormed := by
  have held : ∀ key v, (after .empty deeds).values.get? key = some v →
      IsNormal key ∧ v.WellFormed := by
    refine holds_after (P := fun s => ∀ key v, s.values.get? key = some v →
      IsNormal key ∧ v.WellFormed) ?_ ?_ ?_ ?_
    · intro key v found
      cases found
    · intro s key v found
      rw [get?_clear] at found
      cases found
    · intro s key held k v found
      rw [get?_remove] at found
      split at found
      · cases found
      · exact held k v found
    · intro s key value sound held k v found
      rw [get?_set] at found
      split at found
      · next here =>
          obtain ⟨rfl, some⟩ := here
          split at found
          · cases found
          · cases found
            exact ⟨isNormal_normalize some, sound⟩
      · exact held k v found
  constructor
  · intro key listed
    obtain ⟨v, found⟩ := Option.isSome_iff_exists.mp (Dict.mem_keys.mp listed)
    exact (held key v found).1
  · intro e listed
    exact (held e.1 e.2 ((Entries.find?_eq_some (after .empty deeds).values.ascending).mpr listed)).2

/-- An entry that is neither a map nor `null` and whose key no other key extends comes back as it
    was, unless some map is stored that covers its key. -/
theorem entry_kept (deeds : List Deed) {key : String} {v : Value}
    (listed : (key, v) ∈ (after .empty deeds).values.entries) (leaf : IsLeaf v)
    (outermost : ∀ k ∈ (after .empty deeds).values.keys, ¬IsBelow k key)
    (free : ∀ e ∈ (after .empty deeds).values.entries, ¬Covers e.1 e.2 key) :
    (flatten (nest (after .empty deeds).values)).get? key = some v := by
  obtain ⟨normal, sound⟩ := sound_after deeds
  exact get?_flatten_nest normal (fun e there => ordered_of_wellFormed (sound e there)) listed leaf
    outermost free

/-- A map with one integer covers the key of that integer only. -/
theorem covers_singleton {name : String} {i : Int64}
    (covers : Covers key (.map [(name, .integer i)]) key') :
    Key.path key' = Key.path key ++ [name] ∨ keyBelow key name = key' := by
  obtain ⟨names, w, some, found, place⟩ := covers
  obtain ⟨first, rest, rfl⟩ := List.exists_cons_of_ne_nil some
  rw [at?_cons, Option.bind_eq_some_iff] at found
  obtain ⟨inner, here, below⟩ := found
  obtain ⟨rfl, rfl⟩ : first = name ∧ inner = .integer i := by
    simpa using Entries.mem_of_find? here
  obtain rfl : rest = [] := by
    by_contra longer
    rw [at?_of_isLeaf (v := .integer i) trivial longer] at below
    cases below
  exact place.imp id And.right

/-- A map beside another entry of its group. -/
def besideMap : List Deed :=
  [.set "a" (.map [("b", .integer 1)]) ⟨List.pairwise_singleton _ _, trivial, trivial⟩,
    .set "a/c" (.integer 2) trivial]

theorem entry_kept_beside_map :
    (("a/c", .integer 2) : String × Value) ∈ (after .empty besideMap).values.entries ∧
      (flatten (nest (after .empty besideMap).values)).get? "a/c" = some (.integer 2) := by
  have entries : (after .empty besideMap).values.entries =
      [("a", .map [("b", .integer 1)]), ("a/c", .integer 2)] := by decide +kernel
  have listed : (("a/c", .integer 2) : String × Value) ∈
      (after .empty besideMap).values.entries := by simp [entries]
  refine ⟨listed, entry_kept besideMap listed trivial (by decide +kernel) ?_⟩
  intro e there covers
  simp only [entries, List.mem_cons, List.not_mem_nil, or_false] at there
  rcases there with rfl | rfl
  · exact absurd (covers_singleton covers) (by decide +kernel)
  · exact not_covers_of_isLeaf (v := .integer 2) trivial covers

/-- A map that holds a value under the name of an entry of its group. -/
def overMap : List Deed :=
  [.set "a" (.map [("b", .integer 1)]) ⟨List.pairwise_singleton _ _, trivial, trivial⟩,
    .set "a/b" (.integer 2) trivial]

/-- The entry gives way to the value in the map. -/
theorem entry_lost_in_map :
    (("a/b", .integer 2) : String × Value) ∈ (after .empty overMap).values.entries ∧
      (∀ k ∈ (after .empty overMap).values.keys, ¬IsBelow k "a/b") ∧
      (flatten (nest (after .empty overMap).values)).get? "a/b" = some (.integer 1) := by
  decide +kernel

end Mvc.Settings
