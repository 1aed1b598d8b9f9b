/-! # Blanks, line ends and comments in TOML

A line ends with a line feed, which a carriage return may precede. A carriage return
elsewhere, like any other control character but the tab, is refused, in comments too.
-/

namespace Mvc.Toml

/-- Characters that may stand in comments: everything but control characters, and the tab. -/
def isCommentChar (c : Char) : Bool := c = '\t' || (32 ≤ c.toNat && c.toNat ≠ 127)

/-- The blanks inside a line. -/
def isBlank (c : Char) : Bool := c = ' ' || c = '\t'

/-- Drop blanks from the front. -/
def skipBlanks (s : List Char) : List Char := s.dropWhile isBlank

/-- Take a line end off the front. -/
def newLine? : List Char → Option (List Char)
  | '\n' :: s => some s
  | '\r' :: '\n' :: s => some s
  | _ => none

/-- Drop a comment from the front, up to the end of its line. -/
def skipComment : List Char → List Char
  | '#' :: s => s.dropWhile isCommentChar
  | s => s

/-- What follows the rest of a line: blanks, perhaps a comment, and the line's or the text's
    end. -/
def lineEnd? (s : List Char) : Option (List Char) :=
  match skipComment (skipBlanks s) with
  | [] => some []
  | s => newLine? s

/-- Drop blanks, comments and line ends; `fuel` bounds the number of lines. -/
def skipLines : Nat → List Char → List Char
  | 0, s => s
  | fuel + 1, s =>
    let s := skipBlanks s
    match newLine? (skipComment s) with
    | some rest => skipLines fuel rest
    | none => s

/-- Drop blanks, comments and line ends from the front. -/
def skipSpace (s : List Char) : List Char := skipLines s.length s

end Mvc.Toml
