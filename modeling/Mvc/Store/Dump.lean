import Mvc.Store
import Mvc.Value.Text

/-! # Stores as text

A dump lists one property a line in the order of the names, below a line with their number.
-/

namespace Mvc

/-- How a dump looks. -/
structure DumpOptions where
  /-- Whether the kind follows each value. -/
  showKinds : Bool
  /-- How many characters of a value are shown. -/
  maxLength : Option Nat
  /-- How many blanks precede each property. -/
  indent : Nat

/-- Kinds and up to 60 characters of each value, indented by two. -/
def DumpOptions.standard : DumpOptions := ⟨true, some 60, 2⟩

/-- Names and values only. -/
def DumpOptions.minimal : DumpOptions := ⟨false, none, 0⟩

/-- The widest indentation that can be written. -/
def DumpOptions.widest : Nat := 65535

namespace Store

/-- A text cut to a length, with three dots where something is missing. -/
def shorten (maxLength : Option Nat) (s : String) : String :=
  match maxLength with
  | some n => if n < s.length then String.ofList (s.toList.take n) ++ "..." else s
  | none => s

/-- Blanks in front of a line. -/
def indentation (options : DumpOptions) : String :=
  String.ofList (List.replicate options.indent ' ')

/-- The line of one property. -/
def dumpLine (options : DumpOptions) (name : String) (value : Value) : String :=
  indentation options ++ name ++ " = " ++ shorten options.maxLength value.lossyText ++
    (if options.showKinds then " (" ++ value.kind.name ++ ")" else "") ++ "\n"

/-- The dump of a store, however wide the indentation. -/
def dump (options : DumpOptions) (s : Store) : String :=
  "Properties (" ++ toString s.size ++ " total):\n" ++
    if s.values.isEmpty then indentation options ++ "(empty)\n"
    else String.join (s.values.entries.map fun (name, value) => dumpLine options name value)

/-- The dump of a store. An indentation that is too wide aborts it. -/
def dump? (options : DumpOptions) (s : Store) : Option String :=
  if options.indent ≤ DumpOptions.widest then some (s.dump options) else none

/-- The diagnostic text of a store. -/
def diagnostic (s : Store) : String :=
  "PropertyStore \x7b values: \x7b" ++
    Value.commaSeparated (Value.diagnosticEntries s.values.entries) ++ "\x7d \x7d"

end Store

end Mvc
