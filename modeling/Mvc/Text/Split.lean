/-! # Splitting and joining text

A text is cut at its separators into pieces, one more than there are separators, so empty
pieces appear at either end and between neighbouring separators.
-/

namespace Mvc.Text

/-- Cut a text at its separators. -/
def pieces (isSeparator : Char → Bool) : List Char → List (List Char)
  | [] => [[]]
  | c :: s =>
    if isSeparator c then [] :: pieces isSeparator s
    else
      match pieces isSeparator s with
      | [] => [[c]]
      | piece :: rest => (c :: piece) :: rest

/-- Pieces with a slash between neighbours. -/
def joinSlash : List (List Char) → List Char
  | [] => []
  | [piece] => piece
  | piece :: rest => piece ++ '/' :: joinSlash rest

end Mvc.Text
