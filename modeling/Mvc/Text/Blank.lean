/-! # Blank characters

The characters with the Unicode property `White_Space`, and trimming and splitting by
them. A word is a longest run of other characters.
-/

namespace Mvc.Text

/-- The Unicode property `White_Space`. -/
def isBlank (c : Char) : Bool :=
  let n := c.toNat
  (9 ≤ n && n ≤ 13) || n = 32 || n = 0x85 || n = 0xa0 || n = 0x1680 ||
    (0x2000 ≤ n && n ≤ 0x200a) || n = 0x2028 || n = 0x2029 || n = 0x202f || n = 0x205f || n = 0x3000

/-- Drop blanks from the front. -/
def trimLeft (s : List Char) : List Char := s.dropWhile isBlank

/-- Drop blanks from the end. -/
def trimRight (s : List Char) : List Char := (s.reverse.dropWhile isBlank).reverse

/-- Drop blanks from both ends. -/
def trim (s : List Char) : List Char := trimRight (trimLeft s)

/-- The words of a text; `word` is the one being read. -/
def wordsFrom (word : List Char) : List Char → List (List Char)
  | [] => if word.isEmpty then [] else [word]
  | c :: s =>
    if isBlank c then if word.isEmpty then wordsFrom [] s else word :: wordsFrom [] s
    else wordsFrom (word ++ [c]) s

/-- The words of a text, in order. -/
def words (s : List Char) : List (List Char) := wordsFrom [] s

end Mvc.Text
