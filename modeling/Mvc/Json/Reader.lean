import Mvc.Json.Number
import Mvc.Text.Hexadecimal

/-! # Reading JSON

A text is one value with blanks around it. Arrays and objects nest at most 127 deep, of
two entries with one key the later counts, and a string holds whole characters: control
characters and escapes of half a surrogate pair are refused.
-/

namespace Mvc.Json

/-- The blanks of JSON. -/
def isBlank (c : Char) : Bool := c = ' ' || c = '\n' || c = '\t' || c = '\r'

/-- Drop blanks from the front. -/
def skipBlanks (s : List Char) : List Char := s.dropWhile isBlank

/-- The number that four hexadecimal digits denote. -/
def hexWord? (a b c d : Char) : Option Nat := do
  let high := 16 * (← Text.hexDigit? a) + (← Text.hexDigit? b)
  let low := 16 * (← Text.hexDigit? c) + (← Text.hexDigit? d)
  return 256 * high + low

/-- The character of an escape by a single letter. -/
def shortEscape? (c : Char) : Option Char :=
  if c = '"' then some '"'
  else if c = '\\' then some '\\'
  else if c = '/' then some '/'
  else if c = 'b' then some '\x08'
  else if c = 'f' then some '\x0c'
  else if c = 'n' then some '\n'
  else if c = 'r' then some '\r'
  else if c = 't' then some '\t'
  else none

/-- The character of two surrogates. -/
def joinSurrogates? (high low : Nat) : Option Char :=
  if 0xd800 ≤ high ∧ high < 0xdc00 ∧ 0xdc00 ≤ low ∧ low < 0xe000 then
    some (Char.ofNat (0x10000 + (high - 0xd800) * 0x400 + (low - 0xdc00)))
  else none

/-- The character with a number, unless it is a surrogate. -/
def plainChar? (n : Nat) : Option Char :=
  if 0xd800 ≤ n ∧ n < 0xe000 then none else some (Char.ofNat n)

/-- The rest of a string, up to its closing quote, and what follows. -/
def stringRest? : List Char → Option (List Char × List Char)
  | [] => none
  | '"' :: s => some ([], s)
  | '\\' :: 'u' :: a :: b :: c :: d :: s =>
    match hexWord? a b c d with
    | none => none
    | some n =>
      match plainChar? n with
      | some x => (stringRest? s).map fun (text, s) => (x :: text, s)
      | none =>
        match s with
        | '\\' :: 'u' :: e :: f :: g :: h :: s =>
          match (hexWord? e f g h).bind (joinSurrogates? n) with
          | some x => (stringRest? s).map fun (text, s) => (x :: text, s)
          | none => none
        | _ => none
  | '\\' :: e :: s =>
    match shortEscape? e with
    | some x => (stringRest? s).map fun (text, s) => (x :: text, s)
    | none => none
  | c :: s =>
    if c.toNat < 32 ∨ c = '\\' then none
    else (stringRest? s).map fun (text, s) => (c :: text, s)

/-- Digits, at least one. -/
def digits1? (s : List Char) : Option (List Char × List Char) :=
  let digits := s.takeWhile Char.isDigit
  if digits.isEmpty then none else some (digits, s.dropWhile Char.isDigit)

/-- An optional fraction. -/
def fraction? : List Char → Option (Option (List Char) × List Char)
  | '.' :: s => (digits1? s).map fun (digits, s) => (some digits, s)
  | s => some (none, s)

/-- An optional exponent. -/
def exponent? : List Char → Option (Option Int × List Char)
  | c :: s =>
    if c = 'e' ∨ c = 'E' then
      match s with
      | '-' :: s => (digits1? s).map fun (digits, s) => (some (-(digitsValue digits : Int)), s)
      | '+' :: s => (digits1? s).map fun (digits, s) => (some (digitsValue digits), s)
      | s => (digits1? s).map fun (digits, s) => (some (digitsValue digits), s)
    else some (none, c :: s)
  | [] => some (none, [])

/-- A number behind its sign; a leading zero stands alone. -/
def number? (negative : Bool) (s : List Char) : Option (Value × List Char) := do
  let (whole, s) ← digits1? s
  if whole.head? = some '0' ∧ whole.length > 1 then none
  let (fraction, s) ← fraction? s
  let (exponent, s) ← exponent? s
  let v ← Numeral.value? ⟨negative, whole, fraction, exponent⟩
  return (v, s)

/-- A reader of values. -/
abbrev ValueReader := List Char → Option (Value × List Char)

/-- The items of an array up to its end, at least one; `fuel` bounds their number. -/
def items? (value? : ValueReader) : Nat → List Char → Option (List Value × List Char)
  | 0, _ => none
  | fuel + 1, s =>
    match value? s with
    | none => none
    | some (v, s) =>
      match skipBlanks s with
      | ']' :: s => some ([v], s)
      | ',' :: s => (items? value? fuel s).map fun (items, s) => (v :: items, s)
      | _ => none

/-- One entry of an object. -/
def entry? (value? : ValueReader) (s : List Char) : Option ((String × Value) × List Char) :=
  match skipBlanks s with
  | '"' :: s =>
    match stringRest? s with
    | none => none
    | some (key, s) =>
      match skipBlanks s with
      | ':' :: s => (value? s).map fun (v, s) => ((String.ofList key, v), s)
      | _ => none
  | _ => none

/-- The entries of an object up to its end, at least one. -/
def entries? (value? : ValueReader) : Nat → List Char → Option (List (String × Value) × List Char)
  | 0, _ => none
  | fuel + 1, s =>
    match entry? value? s with
    | none => none
    | some (entry, s) =>
      match skipBlanks s with
      | '\x7d' :: s => some ([entry], s)
      | ',' :: s => (entries? value? fuel s).map fun (entries, s) => (entry :: entries, s)
      | _ => none

/-- An array behind its bracket. -/
def array? (value? : ValueReader) (s : List Char) : Option (Value × List Char) :=
  match skipBlanks s with
  | ']' :: s => some (.list [], s)
  | s => (items? value? s.length s).map fun (items, s) => (.list items, s)

/-- An object behind its brace. -/
def object? (value? : ValueReader) (s : List Char) : Option (Value × List Char) :=
  match skipBlanks s with
  | '\x7d' :: s => some (.map [], s)
  | s => (entries? value? s.length s).map fun (entries, s) => (.ofPairs entries, s)

/-- The value at the front of a text, in which arrays and objects nest at most `depth`
    deep. -/
def value? : Nat → ValueReader
  | depth, s =>
    match skipBlanks s with
    | 'n' :: 'u' :: 'l' :: 'l' :: s => some (.null, s)
    | 't' :: 'r' :: 'u' :: 'e' :: s => some (.bool true, s)
    | 'f' :: 'a' :: 'l' :: 's' :: 'e' :: s => some (.bool false, s)
    | '"' :: s => (stringRest? s).map fun (text, s) => (.string (String.ofList text), s)
    | '-' :: s => number? true s
    | '[' :: s =>
      match depth with
      | 0 => none
      | depth + 1 => array? (value? depth) s
    | '\x7b' :: s =>
      match depth with
      | 0 => none
      | depth + 1 => object? (value? depth) s
    | s => number? false s

/-- How deep arrays and objects may nest. -/
def depthLimit : Nat := 127

/-- The value that a text denotes. -/
def parse? (text : String) : Option Value :=
  match value? depthLimit text.toList with
  | some (v, s) => if (skipBlanks s).isEmpty then some v else none
  | none => none

end Mvc.Json
