import Mvc.Text.Unprintable

/-! # Quoted text

Text between double quotes, as diagnostics show it: quotes and backslashes are escaped,
line ends and tabs have short escapes, and a character that cannot be shown on its own is
written as its number in hexadecimal.
-/

namespace Mvc.Text

/-- The braced hexadecimal escape of a character. -/
def numberEscape (c : Char) : List Char :=
  '\\' :: 'u' :: '\x7b' :: Nat.toDigits 16 c.toNat ++ ['\x7d']

/-- The escape of one character in quoted text; single quotes are escaped on request. -/
def escapeChar (singleQuotes : Bool) (c : Char) : List Char :=
  if c = '\x00' then ['\\', '0']
  else if c = '\t' then ['\\', 't']
  else if c = '\n' then ['\\', 'n']
  else if c = '\r' then ['\\', 'r']
  else if c = '"' ∨ c = '\\' ∨ (c = '\'' ∧ singleQuotes) then ['\\', c]
  else if isUnprintable c then numberEscape c
  else [c]

/-- A text in quotes. -/
def quoted (s : String) : String :=
  String.ofList ('"' :: s.toList.flatMap (escapeChar false) ++ ['"'])

/-- A file path in quotes; here single quotes are escaped too. -/
def quotedPath (s : String) : String :=
  String.ofList ('"' :: s.toList.flatMap (escapeChar true) ++ ['"'])

end Mvc.Text
