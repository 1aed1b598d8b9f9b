import Mvc.Decimal.Style
import Mvc.Value.Basic

/-! # Values as JSON

Values are written without tags: a timestamp is a string, and a number that is no number
or infinite is `null`. Compact text has no blanks; indented text has one entry a line, two
blanks deeper at each level, and writes an empty list or map on one line.
-/

namespace Mvc.Json

/-- Doubles keep their point, and have an exponent with a sign when it is beyond 15 or
    below -5. -/
def number : NumberStyle := ⟨some (-5, 16), true, true, .toEven, "null", ("null", "null")⟩

/-- The characters that stand for one character inside a string. -/
def escapeChar (c : Char) : List Char :=
  if c = '"' then ['\\', '"']
  else if c = '\\' then ['\\', '\\']
  else if c = '\n' then ['\\', 'n']
  else if c = '\r' then ['\\', 'r']
  else if c = '\t' then ['\\', 't']
  else if c = '\x08' then ['\\', 'b']
  else if c = '\x0c' then ['\\', 'f']
  else if c.toNat < 32 then
    '\\' :: 'u' :: '0' :: '0' :: (if c.toNat < 16 then ['0'] else []) ++ Nat.toDigits 16 c.toNat
  else [c]

/-- A string in quotes. -/
def writeString (s : String) : List Char := '"' :: s.toList.flatMap escapeChar ++ ['"']

/-- The text of a value that has no parts. -/
def writeScalar : Value → List Char
  | .bool b => (if b then "true" else "false").toList
  | .integer i => (toString i.toInt).toList
  | .float x => (number.render x).toList
  | .string s => writeString s
  | .timestamp t => writeString (Rfc3339.render "Z" t)
  | _ => "null".toList

mutual

/-- Compact text. -/
def write : Value → List Char
  | .list items => '[' :: writeItems items ++ [']']
  | .map entries => '\x7b' :: writeEntries entries ++ ['\x7d']
  | v => writeScalar v

/-- The items of a list, with commas between them. -/
def writeItems : List Value → List Char
  | [] => []
  | [v] => write v
  | v :: rest => write v ++ ',' :: writeItems rest

/-- The entries of a map, with commas between them. -/
def writeEntries : List (String × Value) → List Char
  | [] => []
  | [(k, v)] => writeString k ++ ':' :: write v
  | (k, v) :: rest => writeString k ++ ':' :: write v ++ ',' :: writeEntries rest

end

/-- A new line, indented to a level. -/
def newLine (level : Nat) : List Char := '\n' :: List.replicate (2 * level) ' '

mutual

/-- Indented text of a value that begins at a level. -/
def writeIndented (level : Nat) : Value → List Char
  | .list [] => ['[', ']']
  | .list items => '[' :: writeItemLines (level + 1) items ++ newLine level ++ [']']
  | .map [] => ['\x7b', '\x7d']
  | .map entries => '\x7b' :: writeEntryLines (level + 1) entries ++ newLine level ++ ['\x7d']
  | v => writeScalar v

/-- Each item on a line of its own. -/
def writeItemLines (level : Nat) : List Value → List Char
  | [] => []
  | [v] => newLine level ++ writeIndented level v
  | v :: rest => newLine level ++ writeIndented level v ++ ',' :: writeItemLines level rest

/-- Each entry on a line of its own. -/
def writeEntryLines (level : Nat) : List (String × Value) → List Char
  | [] => []
  | [(k, v)] => newLine level ++ writeString k ++ ':' :: ' ' :: writeIndented level v
  | (k, v) :: rest =>
    newLine level ++ writeString k ++ ':' :: ' ' :: writeIndented level v ++
      ',' :: writeEntryLines level rest

end

/-- Compact JSON text. -/
def compact (v : Value) : String := String.ofList (write v)

/-- Indented JSON text. -/
def indented (v : Value) : String := String.ofList (writeIndented 0 v)

end Mvc.Json
