import Mvc.Text.Blank
import Mvc.Text.Hexadecimal

/-! # The smallest parts of patterns

A pattern is a regular expression over text; see `Mvc.Log.Pattern.Basic`. Its smallest parts
are characters, written as they are or behind a backslash, classes of characters with a
letter of their own, and conditions on a position. What such a part may be depends on the
modes that are set at its place.

No table of Unicode is known, so whatever needs one is refused: the classes and the edges of
words, as far as they are not confined to ASCII, and matching letters of either case. Without
Unicode a pattern matches bytes; since it must not match a part of a character, it is then
refused where it could match other bytes than those of ASCII.
-/

namespace Mvc.Log.Pattern

/-- The modes at a place in a pattern. -/
structure Modes where
  /-- Letters match those of either case. -/
  ignoresCase : Bool
  /-- Characters are those of Unicode, not bytes. -/
  unicode : Bool
  /-- Blanks and comments do not count. -/
  spaced : Bool

/-- The modes at the front of a pattern. -/
def Modes.usual : Modes := ⟨false, true, false⟩

/-- Drop blanks and comments, which go from `#` to the end of a line. -/
def skipSpace (inComment : Bool) : List Char → List Char
  | [] => []
  | c :: s =>
    if inComment then skipSpace (c ≠ '\n') s
    else if Text.isBlank c then skipSpace false s
    else if c = '#' then skipSpace true s
    else c :: s

/-- Drop what does not count. -/
def Modes.skip (m : Modes) (s : List Char) : List Char := if m.spaced then skipSpace false s else s

/-- The smallest parts of patterns. -/
inductive Atom where
  /-- A character, perhaps given as a byte, by two hexadecimal digits. -/
  | letter (c : Char) (asByte : Bool)
  /-- Digits, blanks or letters of words, or all but these. -/
  | shorthand (negated : Bool)
  /-- A condition on the position: an edge of the text or of a word. -/
  | edge (ofWord : Bool)

/-- Whether an atom can be matched. -/
def Atom.isKnown (m : Modes) : Atom → Bool
  | letter c asByte => if m.unicode then !m.ignoresCase else !asByte || c.toNat < 128
  | shorthand negated => !m.unicode && !negated
  | edge ofWord => !ofWord || !m.unicode

/-- Whether an atom can be a member of a set. -/
def Atom.isMember (m : Modes) : Atom → Bool
  | letter c _ => if m.unicode then !m.ignoresCase else c.toNat < 128
  | shorthand negated => !m.unicode && !negated
  | edge _ => false

/-- Read exactly `count` hexadecimal digits behind those that make up `value`. -/
def hexAfter? (m : Modes) (value : Nat) : Nat → List Char → Option (Nat × List Char)
  | 0, s => some (value, s)
  | _ + 1, [] => none
  | count + 1, c :: s => do hexAfter? m (16 * value + (← Text.hexDigit? c)) count (m.skip s)

/-- Read the number of a character. -/
def numbered? (m : Modes) (count : Nat) (s : List Char) : Option (Atom × List Char) := do
  let (n, s) ← hexAfter? m 0 count (m.skip s)
  return (.letter (← Text.scalar? n) (count = 2), s)

/-- Whether a character stands for itself behind a backslash. -/
def isEscapable (c : Char) : Bool := c.toNat < 128 && !c.isAlphanum && c ≠ '<' && c ≠ '>'

/-- The characters with a letter of their own behind a backslash. -/
def namedChars : List (Char × Char) :=
  [('a', '\x07'), ('t', '\t'), ('n', '\n'), ('v', '\x0b'), ('f', '\x0c'), ('r', '\r')]

/-- Read what stands behind a backslash. References to what another part has matched and
    properties of characters are not known. -/
def escape? (m : Modes) : List Char → Option (Atom × List Char)
  | [] => none
  | c :: s =>
    if isEscapable c then some (.letter c false, s)
    else if let some named := namedChars.lookup c then some (.letter named false, s)
    else if "dsw".toList.contains c then some (.shorthand false, s)
    else if "DSW".toList.contains c then some (.shorthand true, s)
    else if "Az".toList.contains c then some (.edge false, s)
    else if "bB<>".toList.contains c then some (.edge true, s)
    else if c = 'x' then numbered? m 2 s
    else if c = 'u' then numbered? m 4 s
    else if c = 'U' then numbered? m 8 s
    else none

/-- Read a character or what stands behind a backslash. -/
def Atom.read? (m : Modes) : List Char → Option (Atom × List Char)
  | [] => none
  | '\\' :: s => escape? m s
  | c :: s => some (.letter c false, s)

end Mvc.Log.Pattern
