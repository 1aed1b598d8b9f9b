import Mvc.Text.Hexadecimal
import Mvc.Toml.Blank

/-! # Strings and keys in TOML

A basic string stands between double quotes and has escapes, a literal one between single
quotes and has none. Tripled quotes enclose text of several lines: a line end right behind
the opening ones does not count, every line end counts as a line feed, and up to two quotes
may stand before the closing ones. In a basic text of several lines a backslash at the end
of a line also swallows the blanks and line ends that follow.
-/

namespace Mvc.Toml

/-- Read exactly `count` hexadecimal digits behind those that make up `value`. -/
def hexAfter? (value : Nat) : Nat → List Char → Option (Nat × List Char)
  | 0, s => some (value, s)
  | count + 1, c :: s => do hexAfter? (16 * value + (← Text.hexDigit? c)) count s
  | _ + 1, [] => none

/-- The character that an escape stands for; the backslash has been read. -/
def escape? : List Char → Option (Char × List Char)
  | 'b' :: s => some ('\x08', s)
  | 't' :: s => some ('\t', s)
  | 'n' :: s => some ('\n', s)
  | 'f' :: s => some ('\x0c', s)
  | 'r' :: s => some ('\r', s)
  | '"' :: s => some ('"', s)
  | '\\' :: s => some ('\\', s)
  | 'u' :: s => do
    let (n, s) ← hexAfter? 0 4 s
    return (← Text.scalar? n, s)
  | 'U' :: s => do
    let (n, s) ← hexAfter? 0 8 s
    return (← Text.scalar? n, s)
  | _ => none

/-- Characters that may stand in a string as they are, its quotes apart. -/
def isStringChar (c : Char) : Bool := isCommentChar c

/-- The rest of a basic string, up to its closing quote, and what follows. -/
def basicRest? : Nat → List Char → Option (List Char × List Char)
  | 0, _ => none
  | fuel + 1, s =>
    match s with
    | [] => none
    | '"' :: s => some ([], s)
    | '\\' :: s =>
      match escape? s with
      | some (c, s) => (basicRest? fuel s).map fun (text, s) => (c :: text, s)
      | none => none
    | c :: s =>
      if isStringChar c then (basicRest? fuel s).map fun (text, s) => (c :: text, s) else none

/-- The rest of a literal string, up to its closing quote, and what follows. -/
def literalRest? : List Char → Option (List Char × List Char)
  | [] => none
  | '\'' :: s => some ([], s)
  | c :: s => if isStringChar c then (literalRest? s).map fun (text, s) => (c :: text, s) else none

/-- What a run of quotes in a text of several lines means: content before the end, content,
    or too many. -/
inductive Quotes where
  /-- Closing quotes after some that count. -/
  | close (before : Nat)
  /-- Quotes that count. -/
  | content
  /-- More quotes than may stand together. -/
  | tooMany

/-- The meaning of a run of quotes. -/
def Quotes.ofRun (length : Nat) : Quotes :=
  if length < 3 then content else if length < 6 then close (length - 3) else tooMany

/-- Drop blanks and line ends from the front. -/
def skipWrapped : List Char → List Char
  | ' ' :: s => skipWrapped s
  | '\t' :: s => skipWrapped s
  | '\n' :: s => skipWrapped s
  | '\r' :: '\n' :: s => skipWrapped s
  | s => s

/-- The rest of a text of several lines between tripled quotes, and what follows. -/
def linesRest? (quote : Char) (escapes : Bool) : Nat → List Char → Option (List Char × List Char)
  | 0, _ => none
  | fuel + 1, s =>
    match newLine? s with
    | some s => (linesRest? quote escapes fuel s).map fun (text, s) => ('\n' :: text, s)
    | none =>
      match s with
      | [] => none
      | c :: s =>
        if c = quote then
          let run := s.takeWhile (· = quote)
          let s := s.dropWhile (· = quote)
          match Quotes.ofRun (run.length + 1) with
          | .close before => some (List.replicate before quote, s)
          | .content => (linesRest? quote escapes fuel s).map fun (text, s) => (c :: run ++ text, s)
          | .tooMany => none
        else if c = '\\' ∧ escapes then
          match newLine? (skipBlanks s) with
          | some s =>
            linesRest? quote escapes fuel (skipWrapped s)
          | none =>
            match escape? s with
            | some (c, s) => (linesRest? quote escapes fuel s).map fun (text, s) => (c :: text, s)
            | none => none
        else if isStringChar c then
          (linesRest? quote escapes fuel s).map fun (text, s) => (c :: text, s)
        else none

/-- Drop a line end from the front, if there is one. -/
def skipNewLine (s : List Char) : List Char := (newLine? s).getD s

/-- The string at the front of a text. -/
def string? : List Char → Option (List Char × List Char)
  | '"' :: '"' :: '"' :: s => linesRest? '"' true (s.length + 1) (skipNewLine s)
  | '\'' :: '\'' :: '\'' :: s => linesRest? '\'' false (s.length + 1) (skipNewLine s)
  | '"' :: s => basicRest? (s.length + 1) s
  | '\'' :: s => literalRest? s
  | _ => none

/-- The characters of a key without quotes. -/
def isBareChar (c : Char) : Bool :=
  ('A' ≤ c && c ≤ 'Z') || ('a' ≤ c && c ≤ 'z') || ('0' ≤ c && c ≤ '9') || c = '_' || c = '-'

/-- A key of one segment. -/
def simpleKey? : List Char → Option (List Char × List Char)
  | '"' :: s => basicRest? (s.length + 1) s
  | '\'' :: s => literalRest? s
  | s =>
    let name := s.takeWhile isBareChar
    if name.isEmpty then none else some (name, s.dropWhile isBareChar)

/-- A key of several segments with dots between them; `fuel` bounds their number. -/
def dottedKey? : Nat → List Char → Option (List String × List Char)
  | 0, _ => none
  | fuel + 1, s => do
    let (name, s) ← simpleKey? (skipBlanks s)
    match skipBlanks s with
    | '.' :: s =>
      let (names, s) ← dottedKey? fuel s
      return (String.ofList name :: names, s)
    | s => return ([String.ofList name], s)

/-- How many segments a key may have, and how deep values may nest. -/
def depthLimit : Nat := 79

/-- The key at the front of a text. -/
def key? (s : List Char) : Option (List String × List Char) := dottedKey? depthLimit s

end Mvc.Toml
