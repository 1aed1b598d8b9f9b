import Mvc.Value.Basic

/-! # Tables under construction

A document builds its tables statement by statement. How a table came to be decides how it
may grow: a table that only lies on the way to another one may get its own header later,
one made by a dotted key grows by dotted keys alone, and one with a header has it once. A
value, once set, does not grow at all. The last element of an array of tables is the one
that statements reach.
-/

namespace Mvc.Toml

/-- How a table came to be. -/
inductive Origin where
  /-- By a header of its own; so did the document. -/
  | header
  /-- As a step on the way to a header. -/
  | implied
  /-- As a step of a dotted key. -/
  | dotted
  deriving DecidableEq, Repr

/-- What a key can have in a table under construction. -/
inductive Node where
  /-- A value. -/
  | leaf (value : Value)
  /-- A table. -/
  | table (origin : Origin) (entries : List (String × Node))
  /-- Tables in reverse order, so that the last one comes first. -/
  | tables (elements : List (List (String × Node)))

namespace Node

mutual

/-- The value of what was built. -/
def toValue : Node → Value
  | leaf v => v
  | table _ entries => .map (entriesToValues entries)
  | tables elements => .list (elementsToValues elements).reverse

/-- The values of entries. -/
def entriesToValues : List (String × Node) → List (String × Value)
  | [] => []
  | (key, node) :: rest => (key, toValue node) :: entriesToValues rest

/-- The values of tables. -/
def elementsToValues : List (List (String × Node)) → List Value
  | [] => []
  | entries :: rest => .map (entriesToValues entries) :: elementsToValues rest

end

/-- A change of a table's entries, given how the table came to be; it may be refused. -/
abbrev Change := Origin → List (String × Node) → Option (List (String × Node))

/-- Change the entries of the table at the end of a path; missing tables on the way come to be
    by `made`. A dotted key passes no table that has a header. -/
def edit (made : Origin) (change : Change) : List String → Change
  | [], origin, entries => change origin entries
  | key :: path, _, entries =>
    match Entries.find? key entries with
    | none => (edit made change path made []).map fun inner =>
        Entries.insert key (table made inner) entries
    | some (leaf _) => none
    | some (table origin inner) =>
      if made = .dotted ∧ origin = .header then none
      else (edit made change path origin inner).map fun inner =>
        Entries.insert key (table origin inner) entries
    | some (tables []) => none
    | some (tables (last :: before)) =>
      (edit made change path .header last).map fun last =>
        Entries.insert key (tables (last :: before)) entries

/-- Set a new key to a value. The last step of a dotted key must lie in a table of dotted keys,
    a plain key in any other. -/
def setKey (isDotted : Bool) (key : String) (value : Value) : Change := fun origin entries =>
  if isDotted ≠ decide (origin = .dotted) then none
  else
    match Entries.find? key entries with
    | some _ => none
    | none => some (Entries.insert key (leaf value) entries)

/-- Set a dotted key to a value. -/
def setPath (path : List String) (value : Value) : Change := fun origin entries =>
  match path.getLast? with
  | none => none
  | some key =>
    edit .dotted (setKey (path.length > 1) key value) path.dropLast origin entries

/-- Give a table its header. -/
def openTable (key : String) : Change := fun _ entries =>
  match Entries.find? key entries with
  | none => some (Entries.insert key (table .header []) entries)
  | some (table .implied inner) => some (Entries.insert key (table .header inner) entries)
  | some _ => none

/-- Begin a new element of an array of tables. -/
def openElement (key : String) : Change := fun _ entries =>
  match Entries.find? key entries with
  | none => some (Entries.insert key (tables [[]]) entries)
  | some (tables elements) => some (Entries.insert key (tables ([] :: elements)) entries)
  | some _ => none

end Node

/-- A line of a document that says something. -/
inductive Statement where
  /-- The header of a table. -/
  | table (path : List String)
  /-- The header of an element of an array of tables. -/
  | element (path : List String)
  /-- A value under a dotted key. -/
  | entry (path : List String) (value : Value)

/-- A document being built. -/
structure Document where
  /-- The path of the table that plain entries go to. -/
  current : List String
  /-- The entries of the whole document. -/
  entries : List (String × Node)

namespace Document

/-- A document that says nothing. -/
def empty : Document := ⟨[], []⟩

/-- Open a table or an element at the end of a path. -/
def openAt (d : Document) (path : List String) (step : String → Node.Change) : Option Document :=
  match path.getLast? with
  | none => none
  | some key =>
    (Node.edit .implied (step key) path.dropLast .header d.entries).map fun entries =>
      ⟨path, entries⟩

/-- Carry out a statement. -/
def say (d : Document) : Statement → Option Document
  | .table path => d.openAt path Node.openTable
  | .element path => d.openAt path Node.openElement
  | .entry path value =>
    (Node.edit .implied (Node.setPath path value) d.current .header d.entries).map fun entries =>
      { d with entries }

/-- The document that statements build. -/
def ofStatements? (statements : List Statement) : Option Document :=
  statements.foldlM say empty

/-- The value of a document. -/
def toValue (d : Document) : Value := .map (Node.entriesToValues d.entries)

end Document

end Mvc.Toml
