import Mvc.Text.Blank

/-! # Commands

A line holds one command: a word, and behind it, between blanks that do not count, a
payload. A blank line holds none. Four words are the console's own; every other one names a
user action.
-/

namespace Mvc

/-- A command. -/
inductive Command where
  /-- A user action and what goes with it. -/
  | action (name payload : String)
  /-- Tell which commands there are. -/
  | help
  /-- End the session. -/
  | quit
  deriving DecidableEq, Repr

namespace Command

/-- The command of a word and a payload. -/
def ofWord (word payload : String) : Command :=
  if word = "quit" ∨ word = "exit" then quit
  else if word = "help" ∨ word = "?" then help
  else action word payload

/-- The word at the front of a text, up to the first blank. -/
def firstWord (text : List Char) : List Char := text.takeWhile fun c => !Text.isBlank c

/-- What follows the word at the front of a text. -/
def afterWord (text : List Char) : List Char := text.dropWhile fun c => !Text.isBlank c

/-- The command on a line. -/
def parse? (line : String) : Option Command :=
  let text := Text.trim line.toList
  if text.isEmpty then none
  else some (ofWord (String.ofList (firstWord text))
    (String.ofList (Text.trim (afterWord text))))

end Command

end Mvc
