import Mvc.Console.Session

/-! # The console program

Copies the files that a session may need into a tree, passes lines from the standard input
to the session and prints what it prints, and copies the files that changed back. An
operation takes its time before anything is printed.
-/

namespace Mvc.Main

/-- How deep calls may nest. -/
def depth : Nat := 1000000

/-- The path to a location. -/
def pathTo : Location → String
  | "/" :: names => "/" ++ "/".intercalate names
  | names => "/".intercalate names

/-- What is at a location on the disk. -/
def lookAt (place : Location) : IO (Option FileEntry) := do
  try
    let path ← IO.FS.realPath (pathTo place)
    if ← path.isDir then return some .directory
    else return some (.file (← IO.FS.readBinFile path))
  catch _ => return none

/-- Copy what is at a location into a tree. -/
def copyIn (files : Files) (place : Location) : IO Files := do
  match ← lookAt place with
  | some entry => return files.put place entry
  | none => return files

/-- Copy what is on the way to a path, and what it leads to, into a tree. -/
def fetch (files : Files) (path : String) : IO Files := do
  let (files, _) ← (Files.route path (Path.steps path)).foldlM (fun (files, place) step => do
    let place := Files.descend place step
    return (← copyIn files place, place)) (files, [])
  return files

/-- Copy the directories and files of a tree that an older one has not to the disk. -/
def store (old new : Files) : IO Unit := do
  for (place, entry) in new.entries.reverse do
    match entry, old.at? place with
    | .directory, none => IO.FS.createDirAll (pathTo place)
    | .file content, some (.file former) =>
      if content != former then IO.FS.writeBinFile (pathTo place) content
    | .file content, _ => IO.FS.writeBinFile (pathTo place) content
    | _, _ => pure ()

/-- The directory of all configurations. -/
def configHome : IO String := do
  match ← IO.getEnv "XDG_CONFIG_HOME" with
  | some path => if Path.isAbsolute path then return path
  | none => pure ()
  return Path.join ((← IO.getEnv "HOME").getD "") ".config"

/-- Print what a session has printed. -/
def flush (session : Session) : IO Session := do
  let output ← IO.getStdout
  output.putStr session.text
  output.flush
  return session.clear

/-- The next line, if there is one and it is text. -/
def nextLine? : IO (Option String) := do
  try
    let line ← (← IO.getStdin).getLine
    return if line.isEmpty then none else some line
  catch _ => return none

/-- Pass lines to a session until it is over. -/
partial def converse (session : Session) : IO (Option Session) := do
  if session.isRunning then
    match ← nextLine? with
    | none => session.endInput depth |>.mapM flush
    | some line =>
      IO.sleep (session.delay line).toUInt32
      match session.read depth line.toUTF8.toList with
      | none => return none
      | some session => converse (← flush session)
  else return some session

/-- Run a session to its end. -/
def runSession (home : String) (configFile : Option String) : IO UInt32 := do
  let files ← fetch .empty (configFile.getD (Config.usualFile home))
  let others := match Session.configuration files home configFile with
    | .ok config => config.settingsFile home :: config.logging.file.toList
    | .error _ => []
  let files ← others.foldlM fetch files
  let some session := Session.begin depth files home configFile .epoch | return 1
  store files session.files
  let some last ← converse (← flush session) | return 1
  store session.files last.files
  match last.failure? with
  | none => return 0
  | some failure =>
    IO.eprintln (Session.complaint failure)
    return 1

end Mvc.Main

/-- The console program; its first argument names a configuration file. -/
def main (args : List String) : IO UInt32 := do
  Mvc.Main.runSession (← Mvc.Main.configHome) args.head?
