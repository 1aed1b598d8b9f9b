import Mathlib.Data.List.Basic
import Mvc.Files.Basic

/-! # Files that were replaced

A file that was moved to a path is found there: on the way to it only directories count, and none
of them is what the file was put in place of.
-/

namespace Mvc.Files

variable {t t' : Files} {place p start stop : Location} {entry : FileEntry} {path : String}
  {content : ByteArray} {steps more : List String}

/-! ## One place changes -/

theorem lookup_filter (entries : List (Location × FileEntry)) (other : p ≠ place) :
    (entries.filter fun e => e.1 != place).lookup p = entries.lookup p := by
  induction entries with
  | nil => rfl
  | cons e entries ih =>
      obtain ⟨q, entry⟩ := e
      by_cases same : q = place
      · have apart : (p == q) = false := by simpa [same] using other
        simp [same, ih, List.lookup_cons, same ▸ apart]
      · simp [same, ih, List.lookup_cons]

theorem at?_put (t : Files) (place p : Location) (entry : FileEntry) :
    (t.put place entry).at? p =
      if p = place ∧ ¬(isAbove p || p == root) then some entry else t.at? p := by
  by_cases always : isAbove p || p == root
  · simp [at?, always]
  · by_cases here : p = place
    · subst here
      simp [at?, put, always]
    · have other : (p == place) = false := by simpa using here
      simp [at?, put, always, here, List.lookup_cons, other, lookup_filter _ here]

/-- Directories stay when something is put where there is none. -/
theorem at?_put_directory (free : t.at? place ≠ some .directory)
    (found : t.at? p = some .directory) : (t.put place entry).at? p = some .directory := by
  rw [at?_put, if_neg, found]
  rintro ⟨rfl, -⟩
  exact free found

theorem walk_append (t : Files) (start : Location) (steps more : List String) :
    t.walk start (steps ++ more) =
      (t.walk start steps).bind fun middle => t.walk middle more := by
  induction steps generalizing start with
  | nil => rfl
  | cons step steps ih =>
      rw [List.cons_append, walk, walk]
      split
      · rfl
      · rfl
      · split
        · rfl
        · exact ih _

theorem walk_stay (walked : t.walk start ["."] = .ok stop) :
    t.at? start = some .directory ∧ stop = start := by
  rw [walk] at walked
  split at walked
  · cases walked
  · cases walked
  · next found =>
      rw [if_neg (by decide)] at walked
      cases walked
      exact ⟨found, by simp [descend]⟩

theorem walk_name {name : String} (found : t.at? start = some .directory)
    (named : isName name = true) (short : ¬name.utf8ByteSize > nameLimit) :
    t.walk start [name] = .ok (start ++ [name]) := by
  simp only [isName, Bool.and_eq_true, bne_iff_ne] at named
  rw [walk, found]
  simp [short, descend, named, walk]

theorem route_append (path : String) (steps more : List String) :
    route path (steps ++ more) = route path steps ++ more := by
  rw [route, route]
  split <;> simp

/-- All directories of a tree are directories of another one. -/
def KeepsDirectories (t t' : Files) : Prop :=
  ∀ p, t.at? p = some .directory → t'.at? p = some .directory

theorem keepsDirectories_put (free : t.at? place ≠ some .directory) :
    KeepsDirectories t (t.put place entry) := fun _ => at?_put_directory free

theorem walk_keeps (keeps : KeepsDirectories t t') (walked : t.walk start steps = .ok stop) :
    t'.walk start steps = .ok stop := by
  induction steps generalizing start with
  | nil => exact walked
  | cons step steps ih =>
      rw [walk] at walked ⊢
      split at walked
      · cases walked
      · cases walked
      · next found =>
          rw [keeps start found]
          split at walked
          · cases walked
          · next short =>
              simp only [short, if_false]
              exact ih walked

/-! ## A file is found where it was moved -/

/-- Where a finished file goes that is moved to a path. -/
def target (t : Files) (path : String) : Except FileFault Location := do
  if let some fault := pathFault? path then
    throw (if fault = .zeroInName then .invalidArgument else fault)
  let (place, name) ← t.lastStep path
  if !isName name then throw .busy
  if name.utf8ByteSize > nameLimit then throw .nameTooLong
  if Path.endsInSlash path then throw .notDirectory
  match t.at? (place ++ [name]) with
  | some .directory => throw .isDirectory
  | _ => return place ++ [name]

theorem moveTo_eq (t : Files) (path : String) (content : ByteArray) :
    t.moveTo path content = (t.target path).map fun place => t.put place (.file content) := by
  simp only [moveTo, target, bind, Except.bind, throw, throwThe, MonadExceptOf.throw, pure,
    Except.pure]
  cases pathFault? path with
  | some fault => rfl
  | none =>
      cases t.lastStep path with
      | error fault => rfl
      | ok found =>
          simp only
          split
          · rfl
          · split
            · rfl
            · split
              · rfl
              · rcases t.at? (found.1 ++ [found.2]) with _ | _ | _ <;> rfl

theorem moveTo_eq_ok : t.moveTo path content = .ok t' ↔
    ∃ place, t.target path = .ok place ∧ t' = t.put place (.file content) := by
  rw [moveTo_eq]
  cases t.target path with
  | error fault => simp [Except.map]
  | ok place => simp [Except.map, eq_comm]

/-- What it takes to move a file to a path. -/
theorem target_cases (led : t.target path = .ok place) :
    pathFault? path = none ∧ Path.endsInSlash path = false ∧ ∃ above name,
      t.lastStep path = .ok (above, name) ∧ isName name = true ∧
      ¬name.utf8ByteSize > nameLimit ∧ t.at? place ≠ some .directory ∧ place = above ++ [name] := by
  simp only [target, bind, Except.bind] at led
  cases fault : pathFault? path with
  | some fault => simp [fault, throw, throwThe, MonadExceptOf.throw] at led
  | none =>
      simp only [fault] at led
      cases last : t.lastStep path with
      | error fault => simp [last] at led
      | ok found =>
          obtain ⟨above, name⟩ := found
          simp only [last, throw, throwThe, MonadExceptOf.throw] at led
          split at led
          · cases led
          · next named =>
              split at led
              · cases led
              · next short =>
                  split at led
                  · cases led
                  · next noSlash =>
                      split at led
                      · cases led
                      · next free =>
                          cases led
                          exact ⟨rfl, by simpa using noSlash, above, name, rfl, by simpa using named,
                            short, free, rfl⟩

theorem lastStep_cases {name : String} (last : t.lastStep path = .ok (place, name)) :
    t.walk [] (route path ((Path.steps path).dropLast ++ ["."])) = .ok place ∧
      name = (Path.steps path).getLast?.getD "." := by
  simp only [lastStep, bind, Except.bind] at last
  split at last
  · cases last
  · next walked =>
      cases last
      exact ⟨walked, rfl⟩

theorem steps_eq {name : String} (named : isName name = true)
    (last : name = (Path.steps path).getLast?.getD ".") :
    Path.steps path = (Path.steps path).dropLast ++ [name] := by
  cases found : (Path.steps path).getLast? with
  | none =>
      rw [found, Option.getD_none] at last
      subst last
      cases named
  | some step =>
      rw [found, Option.getD_some] at last
      subst last
      exact (List.dropLast_append_getLast? name found).symm

/-- What is at the target of a path is what the path leads to, in any tree with the same directories
    on the way. -/
theorem find?_target (led : t.target path = .ok place) (keeps : KeepsDirectories t t')
    (there : t'.at? place = some (.file content)) : t'.find? path = .ok (place, .file content) := by
  obtain ⟨noFault, noSlash, above, name, last, named, short, -, rfl⟩ := target_cases led
  obtain ⟨walked, eq⟩ := lastStep_cases last
  have steps := steps_eq named eq
  rw [route_append, walk_append] at walked
  -- The last step was replaced by one that stays, to see that it starts in a directory.
  obtain ⟨middle, way, stay⟩ : ∃ middle,
      t.walk [] (route path (Path.steps path).dropLast) = .ok middle ∧
        t.walk middle ["."] = .ok above := by
    cases way : t.walk [] (route path (Path.steps path).dropLast) with
    | error fault => simp [way, Except.bind] at walked
    | ok middle => exact ⟨middle, rfl, by simpa [way, Except.bind] using walked⟩
  obtain ⟨here, rfl⟩ := walk_stay stay
  have found : t'.walk [] (route path (Path.steps path)) = .ok (above ++ [name]) := by
    rw [steps, route_append, walk_append, walk_keeps keeps way]
    exact walk_name (keeps above here) named short
  simp [find?, noFault, noSlash, found, there, bind, Except.bind, pure, Except.pure]

theorem at?_put_self (free : t.at? place ≠ some .directory) :
    (t.put place entry).at? place = some entry := by
  rw [at?_put, if_pos]
  refine ⟨rfl, fun always => free ?_⟩
  rw [at?, if_pos always]

theorem read_of_find? (found : t.find? path = .ok (place, .file content)) :
    t.read path = .ok content := by
  rw [read, found]
  rfl

theorem read_moveTo (moved : t.moveTo path content = .ok t') : t'.read path = .ok content := by
  obtain ⟨place, led, rfl⟩ := moveTo_eq_ok.mp moved
  obtain ⟨-, -, -, -, -, -, -, free, -⟩ := target_cases led
  exact read_of_find? (find?_target led (keepsDirectories_put free) (at?_put_self free))

/-- A text that replaced a file is read. -/
theorem readText_replace {text : String} (replaced : t.replace path text.toUTF8 = (t', .ok ())) :
    t'.readText path = .ok text := by
  unfold replace at replaced
  split at replaced
  · cases replaced
  · split at replaced
    · cases replaced
    · next moved =>
        cases replaced
        have valid : String.fromUTF8? text.toByteArray = some text := by
          rw [String.fromUTF8?, dif_pos text.isValidUTF8]
          rfl
        simp [readText, read_moveTo moved, valid, bind, Except.bind, pure, Except.pure]

theorem leadsSomewhere_of_readText {text : String} (there : t.readText path = .ok text) :
    t.leadsSomewhere path = true := by
  cases found : t.find? path with
  | error fault => simp [readText, read, found, bind, Except.bind] at there
  | ok entry => rw [leadsSomewhere, found]; rfl

end Mvc.Files
