import Mathlib.Data.List.Induction
import Mathlib.Data.List.Sort
import Mvc.Store

/-! # What stores hold

A dictionary is determined by what is found under each key, and a store by what its dictionary
holds. Entering and erasing change what is found under their own key only. Values that are
compared as equal are the same.
-/

namespace Mvc

namespace Entries

variable {α : Type} {entries : List (String × α)}

@[simp] theorem find?_nil (key : String) : find? key ([] : List (String × α)) = none := rfl

theorem find?_insert (key k : String) (value : α) :
    find? k (insert key value entries) = if k = key then some value else find? k entries := by
  induction entries with
  | nil => simp [insert, find?]
  | cons first rest ih =>
      obtain ⟨l, old⟩ := first
      simp only [insert]
      split
      · simp [find?]
      · split
        · next same =>
            subst same
            simp only [find?]
            split <;> rfl
        · next other =>
            simp only [find?, ih]
            by_cases here : k = l
            · have apart : k ≠ key := fun same => other (same.symm.trans here)
              rw [if_pos here, if_neg apart, if_pos here]
            · simp [here]

theorem find?_eq_some (ascending : Ascending entries) {key : String} {value : α} :
    find? key entries = some value ↔ (key, value) ∈ entries := by
  induction entries with
  | nil => simp
  | cons first rest ih =>
      obtain ⟨k, v⟩ := first
      obtain ⟨above, later⟩ := List.pairwise_cons.mp ascending
      simp only [find?, List.mem_cons, Prod.mk.injEq]
      split
      · next same =>
          subst same
          have absent : (key, value) ∉ rest := fun member =>
            absurd (above _ member) (String.lt_irrefl _)
          simp [absent, eq_comm]
      · next other => simp [other, ih later]

theorem find?_of_above {key : String} (above : ∀ e ∈ entries, key < e.1) :
    find? key entries = none := by
  induction entries with
  | nil => rfl
  | cons first rest ih =>
      have other : key ≠ first.1 := fun same =>
        absurd (above first List.mem_cons_self) (same ▸ String.lt_irrefl _)
      simp only [find?, if_neg other]
      exact ih fun e member => above e (List.mem_cons_of_mem _ member)

theorem find?_erase (ascending : Ascending entries) (key k : String) :
    find? k (erase key entries) = if k = key then none else find? k entries := by
  induction entries with
  | nil => simp [erase]
  | cons first rest ih =>
      obtain ⟨l, value⟩ := first
      obtain ⟨above, later⟩ := List.pairwise_cons.mp ascending
      simp only [erase]
      split
      · next same =>
          subst same
          simp only [find?]
          split
          · next here => exact here ▸ find?_of_above above
          · rfl
      · next other =>
          simp only [find?, ih later]
          by_cases here : k = l
          · have apart : k ≠ key := fun same => other (same.symm.trans here)
            rw [if_pos here, if_neg apart, if_pos here]
          · simp [here]

theorem ext_find? {entries' : List (String × α)} (ascending : Ascending entries)
    (ascending' : Ascending entries') (same : ∀ key, find? key entries = find? key entries') :
    entries = entries' := by
  have nodup : ∀ {l : List (String × α)}, Ascending l → l.Nodup := fun sorted =>
    sorted.imp fun below same => absurd (same ▸ below) (String.lt_irrefl _)
  have perm : entries.Perm entries' := by
    refine (List.perm_ext_iff_of_nodup (nodup ascending) (nodup ascending')).mpr ?_
    rintro ⟨key, value⟩
    rw [← find?_eq_some ascending, ← find?_eq_some ascending', same]
  refine perm.eq_of_pairwise ?_ ascending ascending'
  intro a b _ _ below above
  exact absurd (String.lt_trans below above) (String.lt_irrefl _)

/-- Of the pairs with one key the last counts. -/
theorem find?_ofList (pairs : List (String × α)) (key : String) :
    find? key (ofList pairs) = find? key pairs.reverse := by
  induction pairs using List.reverseRecOn with
  | nil => rfl
  | append_singleton pairs last ih =>
      rw [ofList, List.foldl_append, List.reverse_append]
      exact (find?_insert last.1 key last.2).trans (congrArg _ ih)

theorem find?_filter (ascending : Ascending entries) (p : String × α → Bool) (key : String) :
    find? key (entries.filter p) = (find? key entries).filter fun value => p (key, value) := by
  apply Option.ext
  intro value
  rw [find?_eq_some (ascending.filter _), List.mem_filter, Option.filter_eq_some_iff,
    find?_eq_some ascending]

end Entries

namespace Dict

variable {α : Type} (d : Dict α)

theorem get?_insert (key k : String) (value : α) :
    (d.insert key value).get? k = if k = key then some value else d.get? k :=
  Entries.find?_insert key k value

theorem get?_erase (key k : String) :
    (d.erase key).get? k = if k = key then none else d.get? k :=
  Entries.find?_erase d.ascending key k

theorem ext_get? {d d' : Dict α} (same : ∀ key, d.get? key = d'.get? key) : d = d' := by
  obtain ⟨entries, ascending⟩ := d
  obtain ⟨entries', ascending'⟩ := d'
  obtain rfl := Entries.ext_find? ascending ascending' same
  rfl

end Dict

namespace Value

mutual

theorem equal_iff {a b : Value} : equal a b = true ↔ a = b := by
  cases a with
  | list items =>
      cases b with
      | list items' => simp [equal, @equalItems_iff items items']
      | _ => simp [equal]
  | map entries =>
      cases b with
      | map entries' => simp [equal, @equalEntries_iff entries entries']
      | _ => simp [equal]
  | _ => cases b <;> simp [equal]

theorem equalItems_iff {as bs : List Value} : equalItems as bs = true ↔ as = bs := by
  cases as with
  | nil => cases bs <;> simp [equalItems]
  | cons a as =>
      cases bs with
      | nil => simp [equalItems]
      | cons b bs =>
          simp [equalItems, @equal_iff a b, @equalItems_iff as bs]

theorem equalEntries_iff {as bs : List (String × Value)} :
    equalEntries as bs = true ↔ as = bs := by
  cases as with
  | nil => cases bs <;> simp [equalEntries]
  | cons a as =>
      cases bs with
      | nil => simp [equalEntries]
      | cons b bs =>
          simp [equalEntries, Prod.ext_iff, @equal_iff a.2 b.2,
            @equalEntries_iff as bs]

end

instance : LawfulBEq Value where
  eq_of_beq same := equal_iff.mp same
  rfl := equal_iff.mpr rfl

instance : DecidableEq Value := fun a b => decidable_of_iff (equal a b = true) equal_iff

end Value

namespace Store

variable (s : Store)

/-- What is held under a name. -/
def value? (name : String) : Option Value := s.values.get? name

/-- What a write leaves under its name. -/
def kept (value : Value) : Option Value := if value.isNull then none else some value

theorem value?_write (name n : String) (value : Value) :
    (s.write name value).value? n = if n = name then kept value else s.value? n := by
  simp only [write, kept]
  split
  · exact s.values.get?_erase name n
  · exact s.values.get?_insert name n value

theorem get_eq (name : String) : s.get name = (s.value? name).getD .null := rfl

/-- A store of pairs holds the last value of each name. -/
theorem value?_ofPairs (pairs : List (String × Value)) (name : String) :
    (ofPairs pairs).value? name =
      (Entries.find? name pairs.reverse).filter fun value => !value.isNull :=
  (Entries.find?_filter (Entries.ascending_ofList pairs) _ name).trans
    (congrArg _ (Entries.find?_ofList pairs name))

theorem getD_kept (value : Value) : (kept value).getD .null = value := by
  cases value <;> rfl

theorem get_write (name n : String) (value : Value) :
    (s.write name value).get n = if n = name then value else s.get n := by
  rw [get_eq, value?_write]
  split
  · exact getD_kept value
  · rfl

theorem ext_value? {s s' : Store} (same : ∀ name, s.value? name = s'.value? name) : s = s' :=
  congrArg Store.mk (Dict.ext_get? same)

end Store

end Mvc
