import Mvc.Config
import Mvc.Log.Filter
import Mvc.Text.Quoted

/-! # Logging

Logging is set up once. Setting it up reads the filter, then opens the log file for
appending, which creates it, and only then notices that logging is set up already. Events
that the filter lets through become lines of the file.
-/

namespace Mvc

/-- Logging that is set up. -/
structure Log where
  filter : List Log.Directive
  /-- The log file, if there is one. -/
  file : Option String

namespace Log

/-- The name of a level in a line. -/
def Level.label : Level → String
  | off => "OFF"
  | error => "ERROR"
  | warn => "WARN"
  | info => "INFO"
  | debug => "DEBUG"
  | trace => "TRACE"

/-- A character of a message. Those that could steer a terminal are written by number. -/
def shownChar (c : Char) : List Char :=
  if c = '\x07' ∨ c = '\x08' ∨ c = '\x0c' ∨ c = '\x1b' ∨ c = '\x7f' then
    '\\' :: 'x' :: Nat.toDigits 16 (c.toNat / 16) ++ Nat.toDigits 16 (c.toNat % 16)
  else if '\u0080' ≤ c ∧ c ≤ '\u009f' then Text.numberEscape c
  else [c]

/-- A message as it is written. -/
def shown (message : String) : String := String.ofList (message.toList.flatMap shownChar)

/-- What is logged. -/
structure Event where
  level : Level
  target : String
  message : String
  /-- The other fields, with their texts. -/
  fields : List (String × String)

/-- The line of an event. Only its message is free of characters that steer a terminal. -/
def Event.line (e : Event) : String :=
  e.level.label ++ " " ++ e.target ++ ": " ++ shown e.message ++
    String.join (e.fields.map fun (name, text) => " " ++ name ++ "=" ++ text) ++ "\n"

/-- The names of the fields of an event, the message among them. -/
def Event.names (e : Event) : List String := "message" :: e.fields.map (·.1)

/-- Log an event. -/
def write (log : Log) (files : Files) (e : Event) : Files :=
  match log.file with
  | none => files
  | some path =>
    if lets log.filter e.target e.names e.level then
      match files.append path e.line.toUTF8 with
      | .ok files => files
      | .error _ => files
    else files

/-- What is logged first. -/
def greeting (config : LogConfig) : Event :=
  let file := match config.file with
    | some path => "Some(" ++ Text.quotedPath path ++ ")"
    | none => "None"
  { level := .debug, target := "triad::app", message := "logging initialized"
    fields := [("level", config.level), ("file", file)] }

/-- The files after the log file was opened. -/
def openFile (files : Files) : Option String → Except LogError Files
  | none => .ok files
  | some path =>
    match files.append path .empty with
    | .ok files => .ok files
    | .error fault => .error (.io path fault.report)

/-- Set logging up, given how it is set up already. -/
def setUp (current : Option Log) (config : LogConfig) (files : Files) :
    Files × Except LogError Log :=
  match parseFilter? config.level with
  | none => (files, .error (.invalidFilter "no filter"))
  | some filter =>
    match openFile files config.file with
    | .error e => (files, .error e)
    | .ok files =>
      match current with
      | some _ => (files, .error .alreadyInitialized)
      | none =>
        let log : Log := ⟨filter, config.file⟩
        (log.write files (greeting config), .ok log)

end Log

end Mvc
