import Mvc.Decimal.Style
import Mvc.Toml.Quoted
import Mvc.Value.Basic

/-! # Values as TOML

A table writes its plain entries first and the tables in it afterwards, each under a header;
a table that holds nothing but tables needs none. Lists that hold only maps become arrays of
tables; in other lists maps are written inline. A list of two or more items has one item a
line. There is no text for `null`.

A string is written in the plainest form that needs no escapes: between double quotes,
between single quotes, or in one of the forms for several lines; escapes are the last resort.
-/

namespace Mvc.Toml

/-- Doubles are written without an exponent and keep their point. -/
def number : NumberStyle := ⟨none, true, false, .away, "nan", ("inf", "-inf")⟩

/-- Whether a character cannot be written without an escape; tabs can, and line ends in some
    forms. -/
def needsEscape (c : Char) : Bool :=
  c ≠ '\t' && c ≠ '\n' && (c.toNat < 32 || c.toNat = 127)

/-- The length of the longest run of a character; `run` is the length of the one at hand. -/
def longestRun (c : Char) (run : Nat) : List Char → Nat
  | [] => run
  | d :: s => if d = c then longestRun c (run + 1) s else max run (longestRun c 0 s)

/-- What decides about the form of a string. -/
structure Features where
  /-- Some character needs an escape in every form. -/
  escapes : Bool
  backslash : Bool
  lineEnd : Bool
  /-- The longest run of single quotes. -/
  singleQuotes : Nat
  /-- The longest run of double quotes. -/
  doubleQuotes : Nat

/-- The features of a string. -/
def Features.ofText (s : List Char) : Features :=
  ⟨s.any needsEscape, s.contains '\\', s.contains '\n', longestRun '\'' 0 s, longestRun '"' 0 s⟩

/-- The forms of strings. -/
inductive StringForm where
  | basic | literal | basicLines | literalLines
  deriving DecidableEq, Repr

/-- The form that a string is written in. -/
def StringForm.choose (f : Features) : StringForm :=
  if !f.escapes && !f.backslash && f.doubleQuotes = 0 && !f.lineEnd then .basic
  else if !f.escapes && f.singleQuotes = 0 && !f.lineEnd then .literal
  else if !f.escapes && !f.backslash && f.doubleQuotes ≤ 2 then .basicLines
  else if !f.escapes && f.singleQuotes ≤ 2 then .literalLines
  else if f.lineEnd then .basicLines
  else .basic

/-- The number of a character in four hexadecimal digits. -/
def hexWord (n : Nat) : List Char :=
  let digits := (Nat.toDigits 16 n).map Char.toUpper
  List.replicate (4 - digits.length) '0' ++ digits

/-- A character between double quotes; over several lines a line feed stands for itself. -/
def escapeChar (lines : Bool) (c : Char) : List Char :=
  if c = '\x08' then ['\\', 'b']
  else if c = '\t' then ['\\', 't']
  else if c = '\n' then if lines then ['\n'] else ['\\', 'n']
  else if c = '\x0c' then ['\\', 'f']
  else if c = '\r' then ['\\', 'r']
  else if c = '\\' then ['\\', '\\']
  else if c.toNat < 32 ∨ c.toNat = 127 then '\\' :: 'u' :: hexWord c.toNat
  else [c]

/-- Text between double quotes. Over several lines two quotes in a row stand for themselves;
    `run` counts those. -/
def escapeText (lines : Bool) (run : Nat) : List Char → List Char
  | [] => []
  | c :: s =>
    if c = '"' then
      if run < (if lines then 2 else 0) then '"' :: escapeText lines (run + 1) s
      else '\\' :: '"' :: escapeText lines 0 s
    else escapeChar lines c ++ escapeText lines 0 s

/-- A line feed behind the opening quotes, if the text has one itself. -/
def openingLine (s : List Char) : List Char := if s.contains '\n' then ['\n'] else []

/-- A string in quotes of a form. -/
def StringForm.write (s : List Char) : StringForm → List Char
  | basic => '"' :: escapeText false 0 s ++ ['"']
  | literal => '\'' :: s ++ ['\'']
  | basicLines => '"' :: '"' :: '"' :: openingLine s ++ escapeText true 0 s ++ ['"', '"', '"']
  | literalLines => '\'' :: '\'' :: '\'' :: openingLine s ++ s ++ ['\'', '\'', '\'']

/-- A string in quotes. -/
def writeString (text : String) : List Char :=
  (StringForm.choose (.ofText text.toList)).write text.toList

/-- A key: bare if its characters permit it, else in quotes on one line. -/
def writeKey (text : String) : List Char :=
  let s := text.toList
  if !s.isEmpty && s.all isBareChar then s
  else
    let f := Features.ofText s
    if !f.escapes && !f.lineEnd && !f.backslash && f.doubleQuotes = 0 then StringForm.basic.write s
    else if !f.escapes && !f.lineEnd && f.singleQuotes = 0 then StringForm.literal.write s
    else StringForm.basic.write s

/-- The text of a value that has no parts. -/
def writeScalar : Value → List Char
  | .bool b => (if b then "true" else "false").toList
  | .integer i => (toString i.toInt).toList
  | .float x => (number.render x).toList
  | .string s => writeString s
  | .timestamp t => writeString (Rfc3339.render "Z" t)
  | _ => []

mutual

/-- The text of a value inside a line or a list. -/
def writeInline : Value → List Char
  | .list [] => ['[', ']']
  | .list [v] => '[' :: writeInline v ++ [']']
  | .list items => '[' :: writeItems items ++ ['\n', ']']
  | .map [] => ['\x7b', '\x7d']
  | .map entries => '\x7b' :: ' ' :: writeInlineEntries entries ++ [' ', '\x7d']
  | v => writeScalar v

/-- Each item on a line of its own, with a comma behind it. -/
def writeItems : List Value → List Char
  | [] => []
  | v :: rest => "\n    ".toList ++ writeInline v ++ ',' :: writeItems rest

/-- Entries on one line, with commas between them. -/
def writeInlineEntries : List (String × Value) → List Char
  | [] => []
  | [(k, v)] => writeKey k ++ " = ".toList ++ writeInline v
  | (k, v) :: rest => writeKey k ++ " = ".toList ++ writeInline v ++ ", ".toList ++
      writeInlineEntries rest

end

/-- Whether a value is a map. -/
def isMap : Value → Bool
  | .map _ => true
  | _ => false

/-- Whether a value is written as tables of its own. -/
def isTabular : Value → Bool
  | .map _ => true
  | .list items => !items.isEmpty && items.all isMap
  | _ => false

/-- The plain entries of a table: those that are not written as tables of their own. -/
def plainEntries (entries : List (String × Value)) : List (String × Value) :=
  entries.filter fun (_, v) => !isTabular v

/-- An entry on a line of its own. -/
def writeLine (entry : String × Value) : List Char :=
  writeKey entry.1 ++ " = ".toList ++ writeInline entry.2 ++ ['\n']

/-- A section of a document: a header and the plain entries below it. -/
structure Section where
  /-- The keys of the header; the document's own entries have none. -/
  path : List String
  /-- Whether the header is that of an element of an array of tables. -/
  isElement : Bool
  /-- The plain entries. -/
  entries : List (String × Value)

mutual

/-- The sections of a table: its own, if it has plain entries or is empty, and those of its
    tables. -/
def sections (path : List String) (isElement : Bool) (entries : List (String × Value)) :
    List Section :=
  let plain := plainEntries entries
  (if isElement || !plain.isEmpty || entries.isEmpty then [⟨path, isElement, plain⟩] else []) ++
    sectionsBelow path entries

/-- The sections of the tables in a table. -/
def sectionsBelow (path : List String) : List (String × Value) → List Section
  | [] => []
  | (k, v) :: rest => valueSections (path ++ [k]) v ++ sectionsBelow path rest

/-- The sections of a value that is written as tables. -/
def valueSections (path : List String) : Value → List Section
  | .map entries => sections path false entries
  | .list items => if items.all isMap then elementSections path items else []
  | _ => []

/-- The sections of the elements of an array of tables. -/
def elementSections (path : List String) : List Value → List Section
  | [] => []
  | .map entries :: rest => sections path true entries ++ elementSections path rest
  | _ :: rest => elementSections path rest

end

/-- The keys of a header. -/
def writePath (path : List String) : List Char := ['.'].intercalate (path.map writeKey)

/-- The line of a section's header; the document's own entries have none. -/
def Section.header (s : Section) : List Char :=
  if s.path.isEmpty then []
  else if s.isElement then '[' :: '[' :: writePath s.path ++ [']', ']', '\n']
  else '[' :: writePath s.path ++ [']', '\n']

/-- A section with its header. -/
def Section.write (s : Section) : List Char := s.header ++ s.entries.flatMap writeLine

mutual

/-- Whether `null` occurs in a value. -/
def hasNull : Value → Bool
  | .null => true
  | .list items => itemsHaveNull items
  | .map entries => entriesHaveNull entries
  | _ => false

/-- Whether `null` occurs in list items. -/
def itemsHaveNull : List Value → Bool
  | [] => false
  | v :: rest => hasNull v || itemsHaveNull rest

/-- Whether `null` occurs in the values of entries. -/
def entriesHaveNull : List (String × Value) → Bool
  | [] => false
  | (_, v) :: rest => hasNull v || entriesHaveNull rest

end

/-- The document of some entries, with an empty line between its sections; none if `null`
    occurs in it. -/
def document? (entries : List (String × Value)) : Option String :=
  if entriesHaveNull entries then none
  else
    let isNothing (s : Section) := s.path.isEmpty && s.entries.isEmpty
    let written := (sections [] false entries).filter fun s => !isNothing s
    some (String.ofList (['\n'].intercalate (written.map Section.write)))

end Mvc.Toml
