import Mvc.Error
import Mvc.Files.Path

/-! # File trees

A tree of files and directories around the current directory, as a map from locations. A
path is walked step by step, and whatever a step is taken from must be a directory; a slash
at the end of a path asks for a directory too. Reading takes whole files; writing replaces a
whole file at once, in a directory that is created if it is missing, or changes no file at
all.

Nothing is known of what lies above the current directory, except that there are directories.
-/

namespace Mvc

/-- Where something is: the names that lead to it from the current directory or, after a
    slash, from the root of all files. Only at the front can a location go up. -/
abbrev Location := List String

/-- What can be at a location. -/
inductive FileEntry where
  | file (content : ByteArray)
  | directory

/-- Files and directories. -/
structure Files where
  /-- What is where; of two entries for a location the first counts. -/
  entries : List (Location × FileEntry)

/-- Why a file operation failed. -/
inductive FileFault where
  | notFound | busy | alreadyExists | notDirectory | isDirectory | invalidArgument | nameTooLong
  | zeroInName | notText
  deriving DecidableEq, Repr

/-- The report of a fault. -/
def FileFault.report : FileFault → IoError
  | .notFound => ⟨"No such file or directory (os error 2)"⟩
  | .busy => ⟨"Device or resource busy (os error 16)"⟩
  | .alreadyExists => ⟨"File exists (os error 17)"⟩
  | .notDirectory => ⟨"Not a directory (os error 20)"⟩
  | .isDirectory => ⟨"Is a directory (os error 21)"⟩
  | .invalidArgument => ⟨"Invalid argument (os error 22)"⟩
  | .nameTooLong => ⟨"File name too long (os error 36)"⟩
  | .zeroInName => ⟨"file name contained an unexpected NUL byte"⟩
  | .notText => ⟨"stream did not contain valid UTF-8"⟩

namespace Files

/-- A tree without files. -/
def empty : Files := ⟨[]⟩

instance : Inhabited Files := ⟨empty⟩

/-- The root of all files. -/
def root : Location := ["/"]

/-- Whether a location is the current directory or one above it. -/
def isAbove (place : Location) : Bool := place.all (· == "..")

/-- What is at a location; the current directory, those above it and the root are always
    there. -/
def at? (t : Files) (place : Location) : Option FileEntry :=
  if isAbove place || place == root then some .directory else t.entries.lookup place

/-- Put something at a location. -/
def put (t : Files) (place : Location) (entry : FileEntry) : Files :=
  ⟨(place, entry) :: t.entries.filter fun e => e.1 != place⟩

/-- The names in a directory, in ascending order. -/
def list (t : Files) (place : Location) : List String :=
  ((t.entries.map (·.1)).filter fun p => !p.isEmpty && p.dropLast == place).filterMap
    List.getLast? |>.mergeSort

/-- The longest name, in bytes. -/
def nameLimit : Nat := 255

/-- The longest path, in bytes. -/
def pathLimit : Nat := 4095

/-- Where a step leads from a location; the root is above itself. -/
def descend (place : Location) (step : String) : Location :=
  if step = "." then place
  else if step = ".." then
    if isAbove place then place ++ [".."] else if place == root then root else place.dropLast
  else place ++ [step]

/-- Take steps from a location, each of them from a directory. -/
def walk (t : Files) (place : Location) : List String → Except FileFault Location
  | [] => .ok place
  | step :: rest =>
    match t.at? place with
    | none => .error .notFound
    | some (.file _) => .error .notDirectory
    | some .directory =>
      if step.utf8ByteSize > nameLimit then .error .nameTooLong
      else walk t (descend place step) rest

/-- Some steps of a path as steps from the current directory; an absolute path goes to the
    root first. -/
def route (path : String) (steps : List String) : List String :=
  if Path.isAbsolute path then root ++ steps else steps

/-- What is wrong with a path in itself. -/
def pathFault? (path : String) : Option FileFault :=
  if path.toList.contains '\x00' then some .zeroInName
  else if path.isEmpty then some .notFound
  else if path.utf8ByteSize > pathLimit then some .nameTooLong
  else none

/-- What a path leads to. -/
def find? (t : Files) (path : String) : Except FileFault (Location × FileEntry) := do
  if let some fault := pathFault? path then throw fault
  let stay := if Path.endsInSlash path then ["."] else []
  let place ← t.walk [] (route path (Path.steps path ++ stay))
  match t.at? place with
  | some entry => return (place, entry)
  | none => throw .notFound

/-- Whether a path leads to something. -/
def leadsSomewhere (t : Files) (path : String) : Bool := (t.find? path).isOk

/-- The content of a file. -/
def read (t : Files) (path : String) : Except FileFault ByteArray := do
  match ← t.find? path with
  | (_, .file content) => return content
  | (_, .directory) => throw .isDirectory

/-- The text of a file. -/
def readText (t : Files) (path : String) : Except FileFault String := do
  match String.fromUTF8? (← t.read path) with
  | some text => return text
  | none => throw .notText

/-- Make every directory on a way from a location that is not there yet. What was made before
    a fault remains. Once one was made, each is made for itself, so that a file is found where a
    directory should be made and not on the way to it; `hasMade` tells. -/
def makeWay (t : Files) (hasMade : Bool) (place : Location) :
    List String → Files × Except FileFault Location
  | [] => (t, .ok place)
  | name :: rest =>
    if name.utf8ByteSize > nameLimit then (t, .error .nameTooLong)
    else
      let next := descend place name
      match t.at? next with
      | some .directory => makeWay t hasMade next rest
      | some (.file _) =>
        (t, .error (if hasMade || rest.isEmpty then .alreadyExists else .notDirectory))
      | none => makeWay (t.put next .directory) true next rest

/-- Make a directory and those above it; an empty path is the current directory. -/
def makeDirectories (t : Files) (path : String) : Files × Except FileFault Location :=
  if path.isEmpty then (t, .ok [])
  else
    match pathFault? path with
    | some fault => (t, .error fault)
    | none => t.makeWay false [] (route path (Path.names path))

/-- The directory from which a path takes its last step, and that step. -/
def lastStep (t : Files) (path : String) : Except FileFault (Location × String) := do
  let steps := Path.steps path
  let place ← t.walk [] (route path (steps.dropLast ++ ["."]))
  return (place, steps.getLast?.getD ".")

/-- Whether a step names something. -/
def isName (step : String) : Bool := step != "." && step != ".."

/-- Move a finished file to a path, in place of a file that may be there. -/
def moveTo (t : Files) (path : String) (content : ByteArray) : Except FileFault Files := do
  if let some fault := pathFault? path then
    throw (if fault = .zeroInName then .invalidArgument else fault)
  let (place, name) ← t.lastStep path
  if !isName name then throw .busy
  if name.utf8ByteSize > nameLimit then throw .nameTooLong
  if Path.endsInSlash path then throw .notDirectory
  match t.at? (place ++ [name]) with
  | some .directory => throw .isDirectory
  | _ => return t.put (place ++ [name]) (.file content)

/-- Replace a file at once by a new content, making the directories that hold it. The content
    is written to a file beside it, which is then moved in its place. -/
def replace (t : Files) (path : String) (content : ByteArray) : Files × Except FileFault Unit :=
  match t.makeDirectories (Path.parent path) with
  | (t, .error fault) => (t, .error fault)
  | (t, .ok _) =>
    match t.moveTo path content with
    | .error fault => (t, .error fault)
    | .ok t => (t, .ok ())

/-- Append to a file, which is created if it is missing. A path to create cannot end like that
    of a directory. -/
def append (t : Files) (path : String) (content : ByteArray) : Except FileFault Files := do
  if let some fault := pathFault? path then throw fault
  let (place, name) ← t.lastStep path
  if !isName name || Path.endsInSlash path then throw .isDirectory
  if name.utf8ByteSize > nameLimit then throw .nameTooLong
  match t.at? (place ++ [name]) with
  | some .directory => throw .isDirectory
  | some (.file old) => return t.put (place ++ [name]) (.file (old ++ content))
  | none => return t.put (place ++ [name]) (.file content)

end Files

end Mvc
