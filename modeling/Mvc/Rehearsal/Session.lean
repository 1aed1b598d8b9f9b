import Mvc.Console.Session
import Mvc.Rehearsal.Files
import Mvc.Text.Split

/-! # Rehearsing a console session

A user who gives input piece by piece and reads what is printed in answer. To see where an
answer ends, the user asks for a theme that there is not and waits for the complaint.
-/

namespace Mvc.Rehearsal.Session

/-- A piece of input. -/
structure Piece where
  bytes : List UInt8
  /-- Whether the user waits for the message that an operation is complete, and of all that is
      printed up to there only minds messages. -/
  waits : Bool

/-- What the user saw. -/
structure Outcome where
  /-- What was printed before the commands. -/
  start : List String
  /-- The answer to each piece; none once the session is over. -/
  answers : List (Option (List String))
  /-- What was printed after the input had ended. -/
  ending : List String
  /-- What ended the session, if it did not end well. -/
  failure : Option AppError
  files : Files

/-- The lines of a text. -/
def linesOf (text : String) : List String :=
  let lines := (Text.pieces (· = '\n') text.toList).map String.ofList
  if lines.getLast? = some "" then lines.dropLast else lines

/-- What the user asks for to see where an answer ends. -/
def question : List UInt8 := "theme __barrier__\n".toUTF8.toList

/-- The complaint about it. -/
def complaint : String := "error: Invalid theme: __barrier__"

/-- Whether a line begins with some text. -/
def begins (text line : String) : Bool := text.toList.isPrefixOf line.toList

/-- Of the lines up to the message that an operation is complete, only messages. -/
def messages (lines : List String) : List String :=
  let before := lines.takeWhile fun line => !begins "info: " line
  (before.filter fun line => begins "error: " line || begins "busy: " line) ++
    lines.drop before.length

/-- Give pieces of input, in order, and read the answers. -/
def converse : List Piece → Mvc.Session → Option (List (Option (List String)) × Mvc.Session)
  | [], session => some ([], session)
  | piece :: rest, session => do
    if session.isRunning then
      let session ← session.read depth (piece.bytes ++ question)
      let lines := (linesOf session.text).takeWhile (· ≠ complaint)
      let answer := if piece.waits then messages lines else lines
      let (answers, session) ← converse rest session.clear
      return (some answer :: answers, session)
    else
      let (answers, session) ← converse rest session
      return (none :: answers, session)

/-- Rehearse a session. -/
def rehearse (files : List (String × FileEntry)) (home : String) (configFile : Option String)
    (now : Instant) (pieces : List Piece) : Option Outcome := do
  let session ← Mvc.Session.begin depth (layOut files) home configFile now
  let start := (linesOf session.text).takeWhile fun line => !begins "commands: " line
  let (answers, session) ← converse pieces session.clear
  let session ← session.endInput depth
  return ⟨start, answers, linesOf session.text, session.failure?, session.files⟩

end Mvc.Rehearsal.Session
