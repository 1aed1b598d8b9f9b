/-! # Dictionaries in key order

Text keys are compared by code point, which is also the order of their UTF-8 bytes.
A dictionary lists its entries in ascending order of the keys, each key once, so two
dictionaries with the same content are equal.
-/

namespace Mvc

/-- Keys ascend strictly along the list. -/
def Ascending {α : Type} (entries : List (String × α)) : Prop :=
  entries.Pairwise fun a b => a.1 < b.1

namespace Entries

variable {α β : Type}

/-- The value listed under a key. -/
def find? (key : String) : List (String × α) → Option α
  | [] => none
  | (k, v) :: rest => if key = k then some v else find? key rest

/-- Enter a value at its key's place, in place of an older one. -/
def insert (key : String) (value : α) : List (String × α) → List (String × α)
  | [] => [(key, value)]
  | (k, v) :: rest =>
    if key < k then (key, value) :: (k, v) :: rest
    else if key = k then (key, value) :: rest
    else (k, v) :: insert key value rest

/-- Take a key out. -/
def erase (key : String) : List (String × α) → List (String × α)
  | [] => []
  | (k, v) :: rest => if key = k then rest else (k, v) :: erase key rest

/-- Enter pairs from left to right; a later pair replaces an earlier one of its key. -/
def ofList (pairs : List (String × α)) : List (String × α) :=
  pairs.foldl (fun entries pair => insert pair.1 pair.2 entries) []

attribute [grind =] insert erase

theorem mem_insert {key : String} {value : α} {entries : List (String × α)} {x : String × α}
    (h : x ∈ insert key value entries) : x = (key, value) ∨ x ∈ entries := by
  induction entries with
  | nil => simpa [insert] using h
  | cons e rest ih =>
    obtain ⟨k, v⟩ := e
    simp only [insert] at h
    split at h
    · simpa using h
    · split at h
      · rcases List.mem_cons.1 h with h | h
        · exact .inl h
        · exact .inr (List.mem_cons_of_mem _ h)
      · rcases List.mem_cons.1 h with h | h
        · exact .inr (h ▸ List.mem_cons_self)
        · exact (ih h).imp_right (List.mem_cons_of_mem _)

theorem mem_of_mem_erase {key : String} {entries : List (String × α)} {x : String × α}
    (h : x ∈ erase key entries) : x ∈ entries := by
  induction entries with
  | nil => simp [erase] at h
  | cons e rest ih =>
    simp only [erase] at h
    split at h
    · exact List.mem_cons_of_mem _ h
    · rcases List.mem_cons.1 h with h | h
      · exact h ▸ List.mem_cons_self
      · exact List.mem_cons_of_mem _ (ih h)

theorem ascending_insert (key : String) (value : α) {entries : List (String × α)}
    (h : Ascending entries) : Ascending (insert key value entries) := by
  induction entries with
  | nil => simp [insert, Ascending]
  | cons e rest ih =>
    obtain ⟨k, v⟩ := e
    have hrest := List.pairwise_cons.1 h
    simp only [insert]
    split
    · next hlt =>
      refine List.pairwise_cons.2 ⟨fun x hx => ?_, h⟩
      rcases List.mem_cons.1 hx with hx | hx
      · exact hx ▸ hlt
      · exact String.lt_trans hlt (hrest.1 x hx)
    · next hge =>
      split
      · next heq =>
        exact List.pairwise_cons.2 ⟨fun x hx => by simpa [heq] using hrest.1 x hx, hrest.2⟩
      · next hne =>
        refine List.pairwise_cons.2 ⟨fun x hx => ?_, ih hrest.2⟩
        have hlt : k < key := by
          rcases Decidable.em (k < key) with h | h
          · exact h
          · exact absurd (String.le_antisymm (String.not_lt.1 h) (String.not_lt.1 hge)) hne
        rcases mem_insert hx with hx | hx
        · exact hx ▸ hlt
        · exact hrest.1 x hx

theorem ascending_erase (key : String) {entries : List (String × α)} (h : Ascending entries) :
    Ascending (erase key entries) := by
  induction entries with
  | nil => exact h
  | cons e rest ih =>
    have hrest := List.pairwise_cons.1 h
    simp only [erase]
    split
    · exact hrest.2
    · exact List.pairwise_cons.2
        ⟨fun x hx => hrest.1 x (mem_of_mem_erase hx), ih hrest.2⟩

theorem ascending_ofList (pairs : List (String × α)) : Ascending (ofList pairs) := by
  unfold ofList
  suffices ∀ entries, Ascending entries →
      Ascending (pairs.foldl (fun entries pair => insert pair.1 pair.2 entries) entries) from
    this [] List.Pairwise.nil
  induction pairs with
  | nil => exact fun _ h => h
  | cons p rest ih => exact fun entries h => ih _ (ascending_insert p.1 p.2 h)

end Entries

/-- A finite map from text keys, its entries in ascending order of the keys. -/
structure Dict (α : Type) where
  /-- The entries, in key order. -/
  entries : List (String × α)
  /-- Each key occurs once, at its place. -/
  ascending : Ascending entries

namespace Dict

variable {α : Type}

/-- The dictionary without entries. -/
def empty : Dict α := ⟨[], List.Pairwise.nil⟩

instance : Inhabited (Dict α) := ⟨empty⟩

/-- The value under a key. -/
def get? (d : Dict α) (key : String) : Option α := Entries.find? key d.entries

/-- Whether a key has a value. -/
def contains (d : Dict α) (key : String) : Bool := (d.get? key).isSome

/-- Enter a value, in place of an older one under its key. -/
def insert (d : Dict α) (key : String) (value : α) : Dict α :=
  ⟨Entries.insert key value d.entries, Entries.ascending_insert key value d.ascending⟩

/-- Take a key out. -/
def erase (d : Dict α) (key : String) : Dict α :=
  ⟨Entries.erase key d.entries, Entries.ascending_erase key d.ascending⟩

/-- The dictionary of some pairs; a later pair replaces an earlier one of its key. -/
def ofList (pairs : List (String × α)) : Dict α :=
  ⟨Entries.ofList pairs, Entries.ascending_ofList pairs⟩

/-- The keys in ascending order. -/
def keys (d : Dict α) : List String := d.entries.map (·.1)

/-- The number of entries. -/
def size (d : Dict α) : Nat := d.entries.length

/-- Whether there is no entry. -/
def isEmpty (d : Dict α) : Bool := d.entries.isEmpty

/-- The entries that satisfy a test. -/
def filter (d : Dict α) (p : String → α → Bool) : Dict α :=
  ⟨d.entries.filter fun e => p e.1 e.2, d.ascending.filter _⟩

end Dict

end Mvc
