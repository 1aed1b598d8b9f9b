import Mvc.Toml.Moment
import Mvc.Toml.Number
import Mvc.Toml.Table

/-! # Reading TOML

A document is a sequence of lines, each with a header, a key and its value, a comment, or
nothing. Arrays may stretch over several lines, inline tables may not. A date or time
becomes a map with one reserved key that holds its text.
-/

namespace Mvc.Toml

/-- The key of the map that stands for a date or time. -/
def momentKey : String := "$__toml_private_datetime"

/-- The value of a date or time. -/
def momentValue (text : List Char) : Value := .map [(momentKey, .string (String.ofList text))]

/-- A reader of values. -/
abbrev ValueReader := List Char → Option (Value × List Char)

/-- The items of an array up to its end; `fuel` bounds their number. -/
def items? (value? : ValueReader) : Nat → List Char → Option (List Value × List Char)
  | 0, _ => none
  | fuel + 1, s =>
    match skipSpace s with
    | ']' :: s => some ([], s)
    | s =>
      match value? s with
      | none => none
      | some (v, s) =>
        match skipSpace s with
        | ']' :: s => some ([v], s)
        | ',' :: s => (items? value? fuel s).map fun (items, s) => (v :: items, s)
        | _ => none

/-- A key and its value. -/
def assignment? (value? : ValueReader) (s : List Char) :
    Option ((List String × Value) × List Char) := do
  let (path, s) ← key? s
  match s with
  | '=' :: s =>
    let (v, s) ← value? (skipBlanks s)
    return ((path, v), s)
  | _ => none

/-- The entries of an inline table up to its end, at least one; `fuel` bounds their number. -/
def entries? (value? : ValueReader) :
    Nat → List Char → Option (List (List String × Value) × List Char)
  | 0, _ => none
  | fuel + 1, s =>
    match assignment? value? s with
    | none => none
    | some (entry, s) =>
      match skipBlanks s with
      | '\x7d' :: s => some ([entry], s)
      | ',' :: s => (entries? value? fuel s).map fun (entries, s) => (entry :: entries, s)
      | _ => none

/-- The value of an inline table. -/
def inlineTable? (entries : List (List String × Value)) : Option Value :=
  let table := entries.foldlM (fun table (path, v) => Node.setPath path v .header table) []
  table.map fun table => .map (Node.entriesToValues table)

/-- An inline table behind its brace. -/
def braced? (value? : ValueReader) (s : List Char) : Option (Value × List Char) :=
  match skipBlanks s with
  | '\x7d' :: s => some (.map [], s)
  | s => do
    let (entries, s) ← entries? value? s.length s
    return (← inlineTable? entries, s)

/-- The value at the front of a text, in which arrays and inline tables nest at most `depth`
    deep. -/
def value? : Nat → ValueReader
  | depth, s =>
    match s with
    | 't' :: 'r' :: 'u' :: 'e' :: s => some (.bool true, s)
    | 'f' :: 'a' :: 'l' :: 's' :: 'e' :: s => some (.bool false, s)
    | '"' :: _ => (string? s).map fun (text, s) => (.string (String.ofList text), s)
    | '\'' :: _ => (string? s).map fun (text, s) => (.string (String.ofList text), s)
    | '[' :: s =>
      match depth with
      | 0 => none
      | depth + 1 => (items? (value? depth) (s.length + 1) s).map fun (items, s) => (.list items, s)
    | '\x7b' :: s =>
      match depth with
      | 0 => none
      | depth + 1 => braced? (value? depth) s
    | s =>
      if beginsDate s || beginsTime s then (moment? s).map fun (text, s) => (momentValue text, s)
      else number? s

/-- A header behind its opening brackets, up to its closing ones. -/
def header? (s : List Char) : Option (Statement × List Char) :=
  match s with
  | '[' :: s => do
    let (path, s) ← key? s
    match s with
    | ']' :: ']' :: s => return (.element path, s)
    | _ => none
  | s => do
    let (path, s) ← key? s
    match s with
    | ']' :: s => return (.table path, s)
    | _ => none

/-- The statement of a line that has one. -/
def statement? (s : List Char) : Option (Statement × List Char) :=
  match s with
  | '[' :: s => header? s
  | s => (assignment? (value? depthLimit) s).map fun ((path, v), s) => (.entry path v, s)

/-- The statements of a text; `fuel` bounds the number of its lines. -/
def statements? : Nat → List Char → Option (List Statement)
  | 0, _ => none
  | fuel + 1, s =>
    match skipBlanks s with
    | [] => some []
    | s =>
      match lineEnd? s with
      | some s => statements? fuel s
      | none => do
        let (statement, s) ← statement? s
        let s ← lineEnd? s
        return statement :: (← statements? fuel s)

/-- Drop a byte order mark from the front. -/
def skipMark : List Char → List Char
  | '\uFEFF' :: s => s
  | s => s

/-- The map that a text denotes. -/
def parse? (text : String) : Option Value := do
  let s := skipMark text.toList
  let document ← Document.ofStatements? (← statements? (s.length + 1) s)
  return document.toValue

end Mvc.Toml
