import Mvc.App.Behaviour
import Mvc.Console.Command
import Mvc.Log.Basic

/-! # Console sessions

A session prepares its files, starts the application with one console view, obeys the lines
that it is given, and ends with the word for it or with its input: the view closes, the
application shuts down, and the service keeps the settings in their file. A line that is no
text ends the input.

Each line is obeyed to its end before the next one counts, the worker's part included.
-/

namespace Mvc

open App

/-- A console session. -/
inductive Session where
  /-- It takes input; the bytes are the beginning of a line. -/
  | running (whole : Whole) (unread : List UInt8)
  /-- It has ended. -/
  | ended (files : Files) (printed : List Printed) (failure : Option AppError)

namespace Session

/-! ## Start -/

/-- The configuration: in the file that was named, or the usual one. -/
def configuration (files : Files) (home : String) : Option String → Except ConfigError Config
  | some path => Config.load files path
  | none => Config.loadUsual files home

/-- Make the directories that hold a file. -/
def prepareDirectories (files : Files) (path : String) : Files × Except AppError Unit :=
  match files.makeDirectories (Path.parent path) with
  | (files, .ok _) => (files, .ok ())
  | (files, .error fault) => (files, .error (.io fault.report))

/-- Read the configuration, set logging up, and make the directories of the settings file. -/
def prepare (files : Files) (home : String) (configFile : Option String) :
    Files × Except AppError Config :=
  match configuration files home configFile with
  | .error e => (files, .error (.config e))
  | .ok config =>
    match Log.setUp none config.logging files with
    | (files, .error e) => (files, .error (.log e))
    | (files, .ok _) =>
      match prepareDirectories files (config.settingsFile home) with
      | (files, .error e) => (files, .error e)
      | (files, .ok ()) => (files, .ok config)

/-- The service of a session: it has its defaults, and is started if its file can be read. -/
def service (files : Files) (path : String) : Service :=
  ((Service.new (some path)).fillDefaults.after.start files).2.after

/-- Put the application together and start it. -/
def startUp : App.Program (Except RoleError Unit) := do
  assemble
  let view ← makeView true
  bind (some view)
  match ← setUp with
  | .error e => return .error e
  | .ok () =>
    start
    print view .commands
    return .ok ()

/-! ## Lines -/

/-- Have a command obeyed on the presentation thread. -/
def obey : Command → App.Program Unit
  | .action name payload => do
    Program.perform (Action.post dispatcher (.trigger name payload))
    let _ ← Program.perform (Action.drain (σ := Code) (ε := State) dispatcher)
  | .help => do
    Program.perform (Action.post dispatcher .help)
    let _ ← Program.perform (Action.drain (σ := Code) (ε := State) dispatcher)
  | .quit => pure ()

/-- Close the view and shut the application down. -/
def shutDown : App.Program Unit := do
  match ← see (·.client.current) with
  | some view => close view
  | none => pure ()
  App.shutDown
  let _ ← Program.perform (Action.drain (σ := Code) (ε := State) dispatcher)

/-- All that has been printed. -/
def printedBy (s : State) : List Printed := (s.screens.members.map fun m => m.2.printed).flatten

/-- Stop the service of an application that is shut down. -/
def stopService (whole : Whole) : Session :=
  let s := whole.client
  let (files, result, _) := s.service.stop s.files
  let failure := match result with
    | .ok () => none
    | .error e => some (AppError.settings e)
  ended files (printedBy s) failure

/-- The complete lines at the front of some bytes, without their ends, and what follows. -/
def splitLines : List UInt8 → List (List UInt8) × List UInt8
  | [] => ([], [])
  | b :: rest =>
    let (lines, unread) := splitLines rest
    if b = 10 then ([] :: lines, unread)
    else
      match lines with
      | [] => ([], b :: unread)
      | line :: lines => ((b :: line) :: lines, unread)

/-- What a line asks for; one that is no text ends the session. -/
def commandOf (line : List UInt8) : Option Command :=
  match String.fromUTF8? ⟨line.toArray⟩ with
  | some text => Command.parse? text
  | none => some .quit

variable (depth : Nat)

/-- End a session. -/
def finish (whole : Whole) : Option Session := do
  let ((), whole) ← Ensemble.runClient behaviour depth shutDown whole
  return stopService whole

/-- Begin a session at some time. -/
def begin (files : Files) (home : String) (configFile : Option String) (now : Instant) :
    Option Session := do
  match prepare files home configFile with
  | (files, .error e) => return ended files [] (some e)
  | (files, .ok config) =>
    let whole := parts config (service files (config.settingsFile home)) files true now
    let (result, whole) ← Ensemble.runClient behaviour depth startUp whole
    match result with
    | .ok () => return running whole []
    | .error e => return ended whole.client.files (printedBy whole.client) (some (.core e))

/-- Obey lines until one ends the session. -/
def obeyAll (unread : List UInt8) : List (List UInt8) → Whole → Option Session
  | [], whole => some (running whole unread)
  | line :: rest, whole => do
    match commandOf line with
    | none => obeyAll unread rest whole
    | some .quit => finish depth whole
    | some command =>
      let ((), whole) ← Ensemble.runClient behaviour depth (obey command) whole
      obeyAll unread rest whole

/-- Take some input. -/
def read (input : List UInt8) : Session → Option Session
  | running whole unread =>
    let (lines, unread) := splitLines (unread ++ input)
    obeyAll depth unread lines whole
  | session => some session

/-- The input has ended; what was left of it is a line. -/
def endInput : Session → Option Session
  | running whole unread => do
    match ← obeyAll depth [] [unread] whole with
    | running whole _ => finish depth whole
    | session => return session
  | session => some session

/-- How long the operation that a line asks for takes, in milliseconds. -/
def delay (line : String) : Session → Nat
  | running whole _ =>
    match Command.parse? line with
    | some (.action name payload) =>
      ((Operation.ofAction? whole.client.config.work name (.string payload)).map
        (·.duration)).getD 0
    | _ => 0
  | ended .. => 0

/-! ## Output -/

/-- The text that was printed. -/
def text : Session → String
  | running whole _ => String.join ((printedBy whole.client).map Printed.text)
  | ended _ printed _ => String.join (printed.map Printed.text)

/-- Forget what was printed. -/
def clear : Session → Session
  | running whole unread =>
    let screens : Family Screen :=
      ⟨whole.client.screens.members.map fun (view, s) => (view, { s with printed := [] })⟩
    running { whole with client := { whole.client with screens } } unread
  | ended files _ failure => ended files [] failure

/-- The files as they are now. -/
def files : Session → Files
  | running whole _ => whole.client.files
  | ended files _ _ => files

/-- Whether the session takes input. -/
def isRunning : Session → Bool
  | running .. => true
  | ended .. => false

/-- The last words of a session that did not end well. -/
def complaint (failure : AppError) : String := "triad: " ++ failure.message

/-- What ended the session, if it did not end well. -/
def failure? : Session → Option AppError
  | running .. => none
  | ended _ _ failure => failure

end Session

end Mvc
