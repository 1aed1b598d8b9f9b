/-! # Families of objects

Objects of one kind, named by numbers. Every number names an object; those not set yet are
new ones.
-/

namespace Mvc

/-- Objects by number. -/
structure Family (β : Type) where
  /-- The objects that have been set, each number once. -/
  members : List (Nat × β)

namespace Family

variable {β : Type} [Inhabited β]

/-- All objects are new. -/
def empty : Family β := ⟨[]⟩

instance : Inhabited (Family β) := ⟨empty⟩

/-- The object listed under a number. -/
def lookup (i : Nat) : List (Nat × β) → β
  | [] => default
  | (j, b) :: rest => if i = j then b else lookup i rest

/-- List an object in place of an older one of its number. -/
def replace (i : Nat) (b : β) : List (Nat × β) → List (Nat × β)
  | [] => [(i, b)]
  | (j, c) :: rest => if i = j then (i, b) :: rest else (j, c) :: replace i b rest

/-- The object with a number. -/
def get (f : Family β) (i : Nat) : β := lookup i f.members

/-- Replace an object. -/
def set (f : Family β) (i : Nat) (b : β) : Family β := ⟨replace i b f.members⟩

theorem get_set (f : Family β) (i j : Nat) (b : β) :
    (f.set i b).get j = if j = i then b else f.get j := by
  obtain ⟨members⟩ := f
  simp only [get, set]
  induction members with
  | nil => by_cases h : j = i <;> simp [replace, lookup, h]
  | cons m rest ih =>
    obtain ⟨k, c⟩ := m
    by_cases hik : i = k
    · by_cases hj : j = i <;> simp [replace, lookup, hik, hj] at * <;> simp_all
    · by_cases hj : j = k <;> simp_all [replace, lookup] <;> omega

theorem get_of_not_mem {f : Family β} {i : Nat} (unset : ∀ e ∈ f.members, e.1 ≠ i) :
    f.get i = default := by
  obtain ⟨members⟩ := f
  simp only [get]
  induction members with
  | nil => rfl
  | cons m rest ih =>
    have other := unset m List.mem_cons_self
    rw [lookup, if_neg (Ne.symm other)]
    exact ih fun e member => unset e (List.mem_cons_of_mem _ member)

end Family

end Mvc
