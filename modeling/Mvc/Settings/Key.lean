import Mvc.Text.Split

/-! # Settings keys

A key is a path of segments, written with `/` or `.` between them. Empty segments do not
count, so a key has many spellings and one normal form: its segments joined by `/`.
-/

namespace Mvc.Key

/-- The characters that separate segments. -/
def isSeparator (c : Char) : Bool := c = '/' || c = '.'

/-- The segments of a key. -/
def segments (key : String) : List (List Char) :=
  (Text.pieces isSeparator key.toList).filter fun segment => !segment.isEmpty

/-- The normal form of a key. -/
def normalize (key : String) : String := String.ofList (Text.joinSlash (segments key))

/-- The names on a key in normal form, from the outermost group to the entry. -/
def path (key : String) : List String :=
  (Text.pieces (· = '/') key.toList).map String.ofList

end Mvc.Key
