import Mvc.Proofs.Naming
import Mvc.Proofs.Parts

/-! # The leaves of a tree

A leaf is a value in a tree that is neither a map nor `null`. Flattening enters the leaves in
order, each under the key that its path spells; so what a tree flattens to is settled by its
leaves and their keys. In a tree whose maps list each key once, a leaf is found by its path.
-/

namespace Mvc

namespace Value

/-- A value that flattening keeps as it is. -/
def IsLeaf : Value → Prop
  | null => False
  | map _ => False
  | _ => True

instance : DecidablePred IsLeaf := fun v => by
  cases v <;> unfold IsLeaf <;> infer_instance

/-- What a path of names leads to inside a value. -/
def at? : List String → Value → Option Value
  | [], v => some v
  | name :: path, map entries => (Entries.find? name entries).bind (at? path)
  | _ :: _, _ => none

variable {v w : Value} {entries : List (String × Value)} {name : String}
  {path path' : List String}

@[simp] theorem at?_nil (v : Value) : at? [] v = some v := by
  cases v <;> rfl

@[simp] theorem at?_cons : at? (name :: path) (.map entries) =
    (Entries.find? name entries).bind (at? path) := rfl

theorem at?_of_isLeaf (leaf : IsLeaf v) (some : path ≠ []) : at? path v = none := by
  obtain ⟨name, path, rfl⟩ := List.exists_cons_of_ne_nil some
  cases v <;> simp_all [IsLeaf, at?]

theorem at?_append (path path' : List String) (v : Value) :
    at? (path ++ path') v = (at? path v).bind (at? path') := by
  induction path generalizing v with
  | nil => simp
  | cons name path ih =>
      cases v with
      | map entries =>
          simp only [List.cons_append, at?_cons]
          cases Entries.find? name entries with
          | none => rfl
          | some inner => simp [ih]
      | _ => rfl

mutual

/-- Every map outside lists lists each key once, in order. -/
def Ordered : Value → Prop
  | map entries => Ascending entries ∧ EntriesOrdered entries
  | _ => True

/-- So does every map in a map's entries. -/
def EntriesOrdered : List (String × Value) → Prop
  | [] => True
  | (_, v) :: rest => Ordered v ∧ EntriesOrdered rest

end

theorem entriesOrdered_iff : EntriesOrdered entries ↔ ∀ e ∈ entries, e.2.Ordered := by
  induction entries with
  | nil => simp [EntriesOrdered]
  | cons e rest ih => simp [EntriesOrdered, ih]

theorem ordered_map : (map entries).Ordered ↔ Ascending entries ∧ ∀ e ∈ entries, e.2.Ordered := by
  rw [Ordered, entriesOrdered_iff]

theorem ordered_of_wellFormed (sound : v.WellFormed) : v.Ordered := by
  induction v using recParts with
  | scalar v scalar => cases v <;> simp_all [IsScalar, Ordered]
  | list items => trivial
  | map entries ih =>
      rw [wellFormed_map] at sound
      exact ordered_map.mpr ⟨sound.1, fun e listed => ih e listed (sound.2 e listed)⟩

theorem ordered_of_isLeaf (leaf : IsLeaf v) : v.Ordered := by
  cases v <;> simp_all [IsLeaf, Ordered]

mutual

/-- The leaves of a value with their paths, in order. -/
def leaves : Value → List (List String × Value)
  | map entries => entriesLeaves entries
  | null => []
  | v => [([], v)]

/-- The leaves in a map's entries. -/
def entriesLeaves : List (String × Value) → List (List String × Value)
  | [] => []
  | (name, v) :: rest =>
    ((leaves v).map fun leaf => (name :: leaf.1, leaf.2)) ++ entriesLeaves rest

end

theorem mem_entriesLeaves : (path, w) ∈ entriesLeaves entries ↔
    ∃ name rest v, path = name :: rest ∧ (name, v) ∈ entries ∧ (rest, w) ∈ leaves v := by
  induction entries with
  | nil => simp [entriesLeaves]
  | cons first others ih =>
      obtain ⟨key, u⟩ := first
      simp only [entriesLeaves, List.mem_append, List.mem_map, ih, List.mem_cons, Prod.mk.injEq,
        Prod.exists]
      constructor
      · rintro (⟨rest, leaf, here, rfl, rfl⟩ | ⟨name, rest, v, rfl, listed, here⟩)
        · exact ⟨key, rest, u, rfl, .inl ⟨rfl, rfl⟩, here⟩
        · exact ⟨name, rest, v, rfl, .inr listed, here⟩
      · rintro ⟨name, rest, v, rfl, ⟨rfl, rfl⟩ | listed, here⟩
        · exact .inl ⟨rest, w, here, rfl, rfl⟩
        · exact .inr ⟨name, rest, v, rfl, listed, here⟩

theorem isLeaf_of_mem_leaves (member : (path, w) ∈ leaves v) : IsLeaf w := by
  induction v using recParts generalizing path with
  | scalar v scalar =>
      cases v <;> simp_all [leaves, IsScalar, IsLeaf]
  | list items => simp_all [leaves, IsLeaf]
  | map entries ih =>
      rw [leaves, mem_entriesLeaves] at member
      obtain ⟨name, rest, v, -, listed, here⟩ := member
      exact ih (name, v) listed here

/-- A leaf is listed where its path leads. -/
theorem mem_leaves (ordered : v.Ordered) :
    (path, w) ∈ leaves v ↔ at? path v = some w ∧ IsLeaf w := by
  induction v using recParts generalizing path with
  | scalar v scalar =>
      cases v <;> cases path <;> simp_all [leaves, IsScalar, IsLeaf, at?] <;> grind [IsLeaf]
  | list items =>
      cases path <;> simp_all [leaves, at?]
      grind [IsLeaf]
  | map entries ih =>
      obtain ⟨ascending, inside⟩ := ordered_map.mp ordered
      rw [leaves, mem_entriesLeaves]
      constructor
      · rintro ⟨name, rest, v, rfl, listed, here⟩
        have found := (Entries.find?_eq_some ascending).mpr listed
        rw [at?_cons, found, Option.bind_some]
        exact (ih (name, v) listed (inside _ listed)).mp here
      · rintro ⟨found, leaf⟩
        cases path with
        | nil =>
            rw [at?_nil, Option.some.injEq] at found
            exact absurd leaf (found ▸ id)
        | cons name rest =>
            rw [at?_cons, Option.bind_eq_some_iff] at found
            obtain ⟨v, here, below⟩ := found
            have listed := Entries.mem_of_find? here
            exact ⟨name, rest, v, rfl, listed, (ih (name, v) listed (inside _ listed)).mpr
              ⟨below, leaf⟩⟩

end Value

namespace Settings

open Key Value

/-- The key that a path of names spells inside a group. -/
def keyAlong (group : String) (path : List String) : String := path.foldl keyBelow group

variable {group key : String} {names more : List String} {tree : List (String × Value)}

@[simp] theorem keyAlong_nil (group : String) : keyAlong group [] = group := rfl

@[simp] theorem keyAlong_cons (name : String) :
    keyAlong group (name :: names) = keyAlong (keyBelow group name) names := rfl

/-- Enter each leaf under the key that its path spells inside a group. -/
def enter (group : String) (leaves : List (List String × Value)) (flat : Dict Value) :
    Dict Value :=
  leaves.foldl (fun flat leaf => flat.insert (keyAlong group leaf.1) leaf.2) flat

theorem enter_append (group : String) (first second : List (List String × Value))
    (flat : Dict Value) :
    enter group (first ++ second) flat = enter group second (enter group first flat) :=
  List.foldl_append ..

theorem enter_below (group name : String) (leaves : List (List String × Value))
    (flat : Dict Value) :
    enter group (leaves.map fun leaf => (name :: leaf.1, leaf.2)) flat =
      enter (keyBelow group name) leaves flat :=
  List.foldl_map ..

theorem flattenEntries_eq {entries : List (String × Value)}
    (parts : ∀ e ∈ entries, ∀ key flat, flattenValue key flat e.2 = enter key (leaves e.2) flat)
    (group : String) (flat : Dict Value) :
    flattenEntries group flat entries = enter group (entriesLeaves entries) flat := by
  induction entries generalizing flat with
  | nil => rfl
  | cons first rest ih =>
      obtain ⟨name, v⟩ := first
      simp only [List.mem_cons, forall_eq_or_imp] at parts
      rw [flattenEntries, ih parts.2, parts.1, entriesLeaves, enter_append, enter_below]

theorem flattenValue_eq (v : Value) (key : String) (flat : Dict Value) :
    flattenValue key flat v = enter key (leaves v) flat := by
  induction v using recParts generalizing key flat with
  | scalar v scalar => cases v <;> first | rfl | cases scalar
  | list items => rfl
  | map entries ih => exact flattenEntries_eq (fun e member key flat => ih e member key flat) key flat

/-- A tree flattens to its leaves. -/
theorem flatten_eq (tree : List (String × Value)) :
    flatten tree = enter "" (entriesLeaves tree) .empty :=
  flattenEntries_eq (fun e _ key flat => flattenValue_eq e.2 key flat) "" .empty

theorem get?_enter (leaves : List (List String × Value)) (flat : Dict Value) :
    (enter group leaves flat).get? key =
      ((leaves.reverse.find? fun leaf => keyAlong group leaf.1 == key).map (·.2)).or
        (flat.get? key) := by
  induction leaves using List.reverseRecOn with
  | nil => simp [enter]
  | append_singleton leaves last ih =>
      rw [enter_append, List.reverse_append]
      simp only [enter, List.foldl_cons, List.foldl_nil, Dict.get?_insert, List.reverse_singleton,
        List.singleton_append, List.find?_cons] at ih ⊢
      by_cases here : keyAlong group last.1 = key
      · simp [here]
      · have other : (keyAlong group last.1 == key) = false := by simp [here]
        rw [if_neg (Ne.symm here), other, ih]

/-- Of the leaves with one key the last counts. -/
theorem get?_flatten (tree : List (String × Value)) (key : String) :
    (flatten tree).get? key =
      ((entriesLeaves tree).reverse.find? fun leaf => keyAlong "" leaf.1 == key).map (·.2) := by
  rw [flatten_eq, get?_enter]
  exact Option.or_none

theorem get?_flatten_isSome :
    ((flatten tree).get? key).isSome ↔ ∃ leaf ∈ entriesLeaves tree, keyAlong "" leaf.1 = key := by
  simp [get?_flatten, List.find?_isSome]

theorem mem_entriesLeaves_of_get? {v : Value} (found : (flatten tree).get? key = some v) :
    ∃ path, (path, v) ∈ entriesLeaves tree ∧ keyAlong "" path = key := by
  rw [get?_flatten, Option.map_eq_some_iff] at found
  obtain ⟨⟨path, w⟩, here, rfl⟩ := found
  have spelled := List.find?_some here
  exact ⟨path, List.mem_reverse.mp (List.mem_of_find?_eq_some here), by simpa using spelled⟩

/-- What all leaves with one key hold is what the tree flattens to. -/
theorem get?_flatten_eq_some {v : Value} {path : List String}
    (listed : (path, v) ∈ entriesLeaves tree) (spelled : keyAlong "" path = key)
    (all : ∀ leaf ∈ entriesLeaves tree, keyAlong "" leaf.1 = key → leaf.2 = v) :
    (flatten tree).get? key = some v := by
  have present : ((flatten tree).get? key).isSome := get?_flatten_isSome.mpr ⟨_, listed, spelled⟩
  obtain ⟨w, found⟩ := Option.isSome_iff_exists.mp present
  obtain ⟨path', here, spelled'⟩ := mem_entriesLeaves_of_get? found
  rw [found, ← all _ here spelled']

/-! ## Keys of names -/

theorem keyBelow_of_ne {name : String} (inside : group ≠ "") :
    keyBelow group name = group ++ "/" ++ normalize name := by
  simp [keyBelow, inside]

/-- Names that spell one segment each spell their own key. -/
theorem keyAlong_ofPath (some : names ≠ []) (plain : ∀ name ∈ names ++ more, IsName name) :
    keyAlong (ofPath names) more = ofPath (names ++ more) := by
  induction more generalizing names with
  | nil => simp
  | cons name more ih =>
      have inside : ofPath names ≠ "" :=
        (isNormal_ofPath some fun name member => plain name (by simp [member])).1
      have next : keyBelow (ofPath names) name = ofPath (names ++ [name]) := by
        rw [keyBelow_of_ne inside, normalize_of_isName (plain name (by simp)),
          ← String.toList_inj, ofPath, ofPath, List.map_append, String.toList_ofList,
          Text.joinSlash_append (by simpa using some) (by simp)]
        simp [Text.joinSlash]
      rw [keyAlong_cons, next, ih (by simp) (by simpa using plain), List.append_assoc,
        List.singleton_append]

theorem keyAlong_of_isName (some : names ≠ []) (plain : ∀ name ∈ names, IsName name) :
    keyAlong "" names = ofPath names := by
  obtain ⟨name, more, rfl⟩ := List.exists_cons_of_ne_nil some
  have first : keyBelow "" name = ofPath [name] := by
    simp [keyBelow, normalize_of_isName (plain name (by simp)), ofPath, Text.joinSlash]
  rw [keyAlong_cons, first]
  exact keyAlong_ofPath (by simp) plain

theorem keyAlong_path (normal : IsNormal key) : keyAlong "" (path key) = key := by
  rw [keyAlong_of_isName (path_ne_nil key) fun name => isName_of_mem_path normal, ofPath_path]

/-- Names below a key in normal form spell a key inside it. -/
theorem keyAlong_path_append (normal : IsNormal key) (more : List String) :
    keyAlong "" (path key ++ more) = keyAlong key more := by
  rw [keyAlong, List.foldl_append]
  exact congrArg (fun group => more.foldl keyBelow group) (keyAlong_path normal)

end Settings

end Mvc
