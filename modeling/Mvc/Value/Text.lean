import Mvc.Decimal.Style
import Mvc.Text.Quoted
import Mvc.Value.Basic

/-! # Values as text

Display text is for people: texts appear as they are, lists in brackets and maps in
braces. Diagnostic text shows the kind of every part and quotes texts.
-/

namespace Mvc.Value

/-- The texts with a comma and a space between neighbours. -/
def commaSeparated (parts : List String) : String := ", ".intercalate parts

mutual

/-- The display text. -/
def display : Value → String
  | null => "null"
  | bool b => if b then "true" else "false"
  | integer i => toString i.toInt
  | float x => NumberStyle.plain.render x
  | string s => s
  | timestamp t => Rfc3339.render "+00:00" t
  | list items => "[" ++ commaSeparated (displayItems items) ++ "]"
  | map entries => "\x7b" ++ commaSeparated (displayEntries entries) ++ "\x7d"

/-- The display texts of list items. -/
def displayItems : List Value → List String
  | [] => []
  | v :: rest => display v :: displayItems rest

/-- The display texts of map entries. -/
def displayEntries : List (String × Value) → List String
  | [] => []
  | (k, v) :: rest => (k ++ ": " ++ display v) :: displayEntries rest

end

/-- Display text in which `null` is empty, so a missing text and an empty one look alike. -/
def lossyText : Value → String
  | null => ""
  | v => v.display

mutual

/-- The diagnostic text. -/
def diagnostic : Value → String
  | null => "Null"
  | bool b => if b then "Bool(true)" else "Bool(false)"
  | integer i => "Integer(" ++ toString i.toInt ++ ")"
  | float x => "Float(" ++ NumberStyle.diagnostic.render x ++ ")"
  | string s => "String(" ++ Text.quoted s ++ ")"
  | timestamp t => "Timestamp(" ++ Rfc3339.render "Z" t ++ ")"
  | list items => "List([" ++ commaSeparated (diagnosticItems items) ++ "])"
  | map entries => "Map(\x7b" ++ commaSeparated (diagnosticEntries entries) ++ "\x7d)"

/-- The diagnostic texts of list items. -/
def diagnosticItems : List Value → List String
  | [] => []
  | v :: rest => diagnostic v :: diagnosticItems rest

/-- The diagnostic texts of map entries. -/
def diagnosticEntries : List (String × Value) → List String
  | [] => []
  | (k, v) :: rest => (Text.quoted k ++ ": " ++ diagnostic v) :: diagnosticEntries rest

end

end Mvc.Value
