/-! # Registries of connections

A registry hands out an id for every entry. Entries live at indexes; an index that is freed
goes on top of a stack, and the next entry takes the top index, or a new one when the stack
is empty. Each index counts how often it was freed, and an id names an index together with
that count, so the id of a removed entry never names a later entry of its index.

Entries are listed in the order of their indexes, which is not the order in which they were
made once an index has been used again.
-/

namespace Mvc

/-- Names one connection of one signal. -/
structure ConnectionId where
  /-- Where the entry is kept. -/
  index : Nat
  /-- How often the index had been freed, plus one. -/
  version : Nat
  deriving DecidableEq, Repr

/-- The id that no connection ever has. -/
def ConnectionId.unused : ConnectionId := ⟨0, 0⟩

/-- One index of a registry. -/
structure Cell (κ : Type) where
  /-- The version that an id must have to name the content. -/
  version : Nat
  /-- The entry, if the index is taken. -/
  content : Option κ

/-- A table of entries with reusable indexes. -/
structure Registry (κ : Type) where
  /-- The cells, by index. -/
  cells : List (Cell κ)
  /-- The free indexes, the next one to be taken first. -/
  free : List Nat

namespace Registry

variable {κ : Type}

/-- The registry without entries. -/
def empty : Registry κ := ⟨[], []⟩

/-- The entry that an id names. -/
def get? (r : Registry κ) (id : ConnectionId) : Option κ :=
  match r.cells[id.index]? with
  | some cell => if cell.version = id.version then cell.content else none
  | none => none

/-- Whether an id names an entry. -/
def contains (r : Registry κ) (id : ConnectionId) : Bool := (r.get? id).isSome

/-- Make an entry and tell its id. -/
def insert (r : Registry κ) (entry : κ) : ConnectionId × Registry κ :=
  match r.free with
  | index :: free =>
    let version := ((r.cells[index]?).map (·.version)).getD 1
    (⟨index, version⟩, ⟨r.cells.set index ⟨version, some entry⟩, free⟩)
  | [] => (⟨r.cells.length, 1⟩, ⟨r.cells ++ [⟨1, some entry⟩], []⟩)

/-- Remove the entry that an id names, and tell whether there was one. -/
def erase (r : Registry κ) (id : ConnectionId) : Bool × Registry κ :=
  if r.contains id then
    (true, ⟨r.cells.set id.index ⟨id.version + 1, none⟩, id.index :: r.free⟩)
  else (false, r)

/-- The entries of cells from an index on, with their ids, in index order. -/
def entriesFrom (index : Nat) : List (Cell κ) → List (ConnectionId × κ)
  | [] => []
  | ⟨version, some entry⟩ :: rest => (⟨index, version⟩, entry) :: entriesFrom (index + 1) rest
  | ⟨_, none⟩ :: rest => entriesFrom (index + 1) rest

/-- All entries with their ids, in index order. -/
def entries (r : Registry κ) : List (ConnectionId × κ) := entriesFrom 0 r.cells

/-- The number of entries. -/
def size (r : Registry κ) : Nat := r.entries.length

/-- Remove all entries, the lowest index first. -/
def clear (r : Registry κ) : Registry κ :=
  r.entries.foldl (fun r entry => (r.erase entry.1).2) r

end Registry

end Mvc
