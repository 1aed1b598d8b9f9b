import Mvc.Log.Basic
import Mvc.Rehearsal.Files

/-! # Rehearsing logging

Logging is set up several times over, then some texts are logged, and at last the files are
searched for them.
-/

namespace Mvc.Rehearsal.Log

/-- What became of one attempt to set logging up. -/
structure Attempt where
  /-- Whether the log file was there before; unknown without one. -/
  existed : Option Bool
  /-- Why it failed, if it did. -/
  failure : Option LogError

/-- Set logging up with each configuration in turn. -/
def attempts (current : Option Mvc.Log) :
    List LogConfig → Files → List Attempt × Option Mvc.Log × Files
  | [], t => ([], current, t)
  | config :: rest, t =>
    let existed := config.file.map t.leadsSomewhere
    match Mvc.Log.setUp current config t with
    | (t, .ok log) =>
      let (others, current, t) := attempts (some log) rest t
      (⟨existed, none⟩ :: others, current, t)
    | (t, .error e) =>
      let (others, current, t) := attempts current rest t
      (⟨existed, some e⟩ :: others, current, t)

/-- The target of the texts that are logged. -/
def target : String := "triad_core"

/-- Log texts. -/
def writeAll (log : Option Mvc.Log) (texts : List (Mvc.Log.Level × String)) (t : Files) : Files :=
  match log with
  | none => t
  | some log => texts.foldl (fun t (level, text) => log.write t ⟨level, target, text, []⟩) t

/-- Whether a text occurs in another one. -/
def occursIn (text : List Char) : List Char → Bool
  | [] => text.isEmpty
  | c :: s => text.isPrefixOf (c :: s) || occursIn text s

/-- Those of some texts that occur in a file. -/
def seenIn (t : Files) (texts : List (Mvc.Log.Level × String)) (path : String) : List String :=
  match t.readText path with
  | .ok content => (texts.map (·.2)).filter fun text => occursIn text.toList content.toList
  | .error _ => []

/-- Rehearse logging: what became of each attempt, and the texts seen in each log file. -/
def rehearse (files : List (String × FileEntry)) (configs : List LogConfig)
    (texts : List (Mvc.Log.Level × String)) : List Attempt × List (List String) :=
  let (attempts, log, t) := attempts none configs (layOut files)
  let t := writeAll log texts t
  (attempts, (configs.filterMap (·.file)).map (seenIn t texts))

end Mvc.Rehearsal.Log
