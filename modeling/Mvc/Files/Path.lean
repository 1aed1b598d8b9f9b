import Mvc.Text.Split

/-! # File paths

A path is a text of steps with slashes between them; repeated slashes do not count. One dot
stands for the directory that the path has reached, two dots for the one above it, and any
other step is a name. The extension of a file is what follows the last dot of its name; a dot
at the front of the name begins no extension.
-/

namespace Mvc.Path

/-- The steps of a path, in order. -/
def steps (path : String) : List String :=
  ((Text.pieces (· = '/') path.toList).filter fun step => !step.isEmpty).map String.ofList

/-- The steps that lead from one directory to another. -/
def names (path : String) : List String := (steps path).filter (· != ".")

/-- Whether a path begins at the root. -/
def isAbsolute (path : String) : Bool := path.toList.head? = some '/'

/-- Whether a path begins with the current directory. -/
def beginsHere (path : String) : Bool := (Text.pieces (· = '/') path.toList).head? = some ['.']

/-- Whether a path ends in a slash, so that only a directory can be meant. -/
def endsInSlash (path : String) : Bool := path.toList.getLast? = some '/'

/-- Whether two paths are spellings of one sequence of names. -/
def same (a b : String) : Bool :=
  names a = names b && isAbsolute a = isAbsolute b && beginsHere a = beginsHere b

/-- A path without what leads nowhere at its end; the pieces are those between slashes, the
    last one first. -/
def dropStays (pieces : List (List Char)) : List (List Char) :=
  pieces.dropWhile fun piece => piece.isEmpty || piece = ['.']

/-- The path of the directory that holds what a path names, spelled as it is in the path;
    empty for the current directory. -/
def parent (path : String) : String :=
  let pieces := dropStays ((dropStays (Text.pieces (· = '/') path.toList).reverse).drop 1)
  let text := String.ofList (Text.joinSlash pieces.reverse)
  if text.isEmpty && isAbsolute path then "/" else text

/-- A path from within a directory; an absolute one stands for itself. -/
def join (directory path : String) : String :=
  if isAbsolute path || directory.isEmpty then path
  else if endsInSlash directory then directory ++ path
  else directory ++ "/" ++ path

/-- The last name on a path; going up to a parent names nothing. -/
def fileName? (path : String) : Option String :=
  match (names path).getLast? with
  | some name => if name = ".." then none else some name
  | none => none

/-- The text behind the last dot of a file name. -/
def extension? (path : String) : Option String := do
  let name := (← fileName? path).toList
  let reversed := name.reverse
  let after := reversed.takeWhile (· ≠ '.')
  let before := reversed.drop (after.length + 1)
  if before.isEmpty then none else some (String.ofList after.reverse)

end Mvc.Path
