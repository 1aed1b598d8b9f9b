import Mathlib.Data.List.Basic
import Mvc.Proofs.Contents

/-! # Values and their parts

Lists and maps are made of values. What holds of a list as soon as it holds of its items, and of
a map as soon as it holds of its values, and of all values without parts, holds of every value.
-/

namespace Mvc

namespace Entries

variable {α β : Type} {entries : List (String × α)} {key : String} {value : α}

theorem insert_of_above (above : ∀ e ∈ entries, e.1 < key) :
    insert key value entries = entries ++ [(key, value)] := by
  induction entries with
  | nil => rfl
  | cons first rest ih =>
      simp only [List.mem_cons, forall_eq_or_imp] at above
      have other : key ≠ first.1 := fun same => absurd (same ▸ above.1) (String.lt_irrefl _)
      have notBefore : ¬key < first.1 := fun before =>
        absurd (String.lt_trans before above.1) (String.lt_irrefl _)
      simp [insert, notBefore, other, ih above.2]

/-- Entries in key order are entered as they stand. -/
theorem ofList_of_ascending (ascending : Ascending entries) : ofList entries = entries := by
  induction entries using List.reverseRecOn with
  | nil => rfl
  | append_singleton entries last ih =>
      obtain ⟨before, -, below⟩ := List.pairwise_append.mp ascending
      have entered : ofList (entries ++ [last]) = insert last.1 last.2 (ofList entries) := by
        simp [ofList]
      rw [entered, ih before, insert_of_above fun e member => below e member last (by simp)]

theorem ascending_map (f : α → β) (ascending : Ascending entries) :
    Ascending (entries.map fun e => (e.1, f e.2)) :=
  List.pairwise_map.mpr ascending

theorem find?_map (f : α → β) (entries : List (String × α)) (key : String) :
    find? key (entries.map fun e => (e.1, f e.2)) = (find? key entries).map f := by
  induction entries with
  | nil => rfl
  | cons first rest ih =>
      simp only [List.map_cons, find?, ih]
      split <;> rfl

theorem mem_of_find? (found : find? key entries = some value) : (key, value) ∈ entries := by
  induction entries with
  | nil => simp at found
  | cons first rest ih =>
      obtain ⟨k, v⟩ := first
      simp only [find?] at found
      split at found
      · next same =>
          cases found
          exact same ▸ List.mem_cons_self
      · exact List.mem_cons_of_mem _ (ih found)

end Entries

namespace Value

variable {P : Value → Prop}

/-- A value without parts. -/
def IsScalar : Value → Prop
  | list _ => False
  | map _ => False
  | _ => True

mutual

/-- Induction over the parts of a value. -/
@[elab_as_elim]
theorem recParts (scalar : ∀ v, IsScalar v → P v)
    (list : ∀ items, (∀ v ∈ items, P v) → P (.list items))
    (map : ∀ entries, (∀ e ∈ entries, P e.2) → P (.map entries)) (v : Value) : P v := by
  cases v with
  | list items => exact list items (recItems scalar list map items)
  | map entries => exact map entries (recEntries scalar list map entries)
  | _ => exact scalar _ trivial

private theorem recItems (scalar : ∀ v, IsScalar v → P v)
    (list : ∀ items, (∀ v ∈ items, P v) → P (.list items))
    (map : ∀ entries, (∀ e ∈ entries, P e.2) → P (.map entries)) (items : List Value) :
    ∀ v ∈ items, P v := by
  cases items with
  | nil => simp
  | cons v rest =>
      simp only [List.mem_cons, forall_eq_or_imp]
      exact ⟨recParts scalar list map v, recItems scalar list map rest⟩

private theorem recEntries (scalar : ∀ v, IsScalar v → P v)
    (list : ∀ items, (∀ v ∈ items, P v) → P (.list items))
    (map : ∀ entries, (∀ e ∈ entries, P e.2) → P (.map entries)) (entries : List (String × Value)) :
    ∀ e ∈ entries, P e.2 := by
  cases entries with
  | nil => simp
  | cons e rest =>
      obtain ⟨key, v⟩ := e
      simp only [List.mem_cons, forall_eq_or_imp]
      exact ⟨recParts scalar list map v, recEntries scalar list map rest⟩

end

theorem itemsWellFormed_iff {items : List Value} :
    ItemsWellFormed items ↔ ∀ v ∈ items, v.WellFormed := by
  induction items with
  | nil => simp [ItemsWellFormed]
  | cons v rest ih => simp [ItemsWellFormed, ih]

theorem entriesWellFormed_iff {entries : List (String × Value)} :
    EntriesWellFormed entries ↔ ∀ e ∈ entries, e.2.WellFormed := by
  induction entries with
  | nil => simp [EntriesWellFormed]
  | cons e rest ih => simp [EntriesWellFormed, ih]

theorem wellFormed_list {items : List Value} :
    (list items).WellFormed ↔ ∀ v ∈ items, v.WellFormed := by
  rw [WellFormed, itemsWellFormed_iff]

theorem wellFormed_map {entries : List (String × Value)} : (map entries).WellFormed ↔
    Ascending entries ∧ ∀ e ∈ entries, e.2.WellFormed := by
  rw [WellFormed, entriesWellFormed_iff]

/-! ## How deep lists and maps nest -/

mutual

/-- How deep lists and maps nest in a value. -/
def depth : Value → Nat
  | list items => itemsDepth items + 1
  | map entries => entriesDepth entries + 1
  | _ => 0

/-- How deep they nest in the items of a list. -/
def itemsDepth : List Value → Nat
  | [] => 0
  | v :: rest => max (depth v) (itemsDepth rest)

/-- How deep they nest in the values of a map. -/
def entriesDepth : List (String × Value) → Nat
  | [] => 0
  | (_, v) :: rest => max (depth v) (entriesDepth rest)

end

theorem itemsDepth_le {items : List Value} {n : Nat} :
    itemsDepth items ≤ n ↔ ∀ v ∈ items, v.depth ≤ n := by
  induction items with
  | nil => simp [itemsDepth]
  | cons v rest ih => simp [itemsDepth, ih]

theorem entriesDepth_le {entries : List (String × Value)} {n : Nat} :
    entriesDepth entries ≤ n ↔ ∀ e ∈ entries, e.2.depth ≤ n := by
  induction entries with
  | nil => simp [entriesDepth]
  | cons e rest ih => simp [entriesDepth, ih]

theorem depth_of_isScalar {v : Value} (scalar : IsScalar v) : v.depth = 0 := by
  cases v <;> simp_all [IsScalar, depth]

/-! ## Values that went through a text

Texts have no form of their own for a point in time: it comes back as its text. What becomes of a
double depends on the kind of text.
-/

mutual

/-- A value as it comes back from a text, given what doubles come back as. -/
def reread (double : Binary64 → Value) : Value → Value
  | float x => double x
  | timestamp t => .string (Rfc3339.render "Z" t)
  | list items => .list (rereadItems double items)
  | map entries => .map (rereadEntries double entries)
  | v => v

/-- The items of a list as they come back. -/
def rereadItems (double : Binary64 → Value) : List Value → List Value
  | [] => []
  | v :: rest => reread double v :: rereadItems double rest

/-- The entries of a map as they come back. -/
def rereadEntries (double : Binary64 → Value) : List (String × Value) → List (String × Value)
  | [] => []
  | (key, v) :: rest => (key, reread double v) :: rereadEntries double rest

end

theorem rereadItems_eq (double : Binary64 → Value) (items : List Value) :
    rereadItems double items = items.map (reread double) := by
  induction items with
  | nil => rfl
  | cons v rest ih => simp [rereadItems, ih]

theorem rereadEntries_eq (double : Binary64 → Value) (entries : List (String × Value)) :
    rereadEntries double entries = entries.map fun e => (e.1, reread double e.2) := by
  induction entries with
  | nil => rfl
  | cons e rest ih => simp [rereadEntries, ih]

end Value

end Mvc
