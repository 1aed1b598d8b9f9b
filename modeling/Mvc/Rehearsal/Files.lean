import Mvc.Files.Basic
import Mvc.Rehearsal.Basic

/-! # Rehearsing with files

Files are laid out before a rehearsal, and its steps may look at them and change them.
-/

namespace Mvc.Rehearsal

/-- Put a file or directory in place, in directories made for it. A directory stays one. -/
def putFile (t : Files) (path : String) (entry : FileEntry) : Files :=
  match t.makeDirectories (Path.parent path) with
  | (t, .error _) => t
  | (t, .ok place) =>
    let place := place ++ ((Path.names path).getLast?).toList
    match t.at? place with
    | some .directory => t
    | _ => t.put place entry

/-- The tree of some files and directories. -/
def layOut (files : List (String × FileEntry)) : Files :=
  files.foldl (fun t (path, entry) => putFile t path entry) .empty

/-- Steps with files. -/
inductive FileStep where
  | write (path : String) (entry : FileEntry)
  | read (path : String)
  | list (path : String)

/-- What a step does with files. -/
def FileStep.perform (t : Files) : FileStep → Report × Files
  | write path entry => (.nothing, putFile t path entry)
  | read path => (.option .text (t.readText path).toOption, t)
  | list path =>
    match t.find? path with
    | .ok (place, .directory) => (.texts (t.list place), t)
    | _ => (.nothing, t)

end Mvc.Rehearsal
