import Mathlib.Data.Set.Finite.Basic
import Mvc.Proofs.Filing
import Mvc.Service

/-! # Saving as a whole or not at all

Settings are encoded first. Then the directories are made that hold the file, the text is written to a
file beside it under a name that is not taken, and this file is moved to its place; if it cannot be, it
is dropped. So whichever step fails, no file is different from before, and if none fails, no other file
is. `saveThrough` takes these steps one by one, and it does what saving does.
-/

namespace Mvc

namespace Files

variable {t t' : Files} {place p above held start : Location} {path temp : String}
  {content : ByteArray} {steps : List String}

/-! ## Directories that are made -/

/-- At a place there is what there was, or a directory where there was nothing. -/
def Grown (t t' : Files) (p : Location) : Prop :=
  t'.at? p = t.at? p ∨ t.at? p = none ∧ t'.at? p = some .directory

theorem Grown.refl (t : Files) (p : Location) : Grown t t p := .inl rfl

theorem Grown.trans {t₁ : Files} (first : Grown t t₁ p) (second : Grown t₁ t' p) :
    Grown t t' p := by
  rcases first with same | ⟨none, made⟩
  · rw [Grown, same] at second
    exact second
  · rcases second with same | ⟨none', -⟩
    · exact .inr ⟨none, same.trans made⟩
    · rw [made] at none'
      cases none'

theorem Grown.directory (grown : Grown t t' p) (found : t.at? p = some .directory) :
    t'.at? p = some .directory := by
  rcases grown with same | ⟨none, -⟩
  · exact same.trans found
  · rw [found] at none
    cases none

theorem grown_put_directory (free : t.at? place = none) (p : Location) :
    Grown t (t.put place .directory) p := by
  rw [Grown, at?_put]
  split
  · next here => exact .inr ⟨here.1 ▸ free, rfl⟩
  · exact .inl rfl

theorem grown_makeWay (hasMade : Bool) (place : Location) (names : List String) (p : Location) :
    Grown t (t.makeWay hasMade place names).1 p := by
  induction names generalizing t hasMade place with
  | nil => exact .refl t p
  | cons name rest ih =>
      simp only [makeWay]
      split
      · exact .refl t p
      · split
        · exact ih _ _
        · exact .refl t p
        · next none => exact (grown_put_directory none p).trans (ih _ _)

theorem grown_makeDirectories (t : Files) (path : String) (p : Location) :
    Grown t (t.makeDirectories path).1 p := by
  unfold makeDirectories
  split
  · exact .refl t p
  · split
    · exact .refl t p
    · exact grown_makeWay _ _ _ p

/-! ## A file that is written beside the other one -/

/-- Take away what is at a location. -/
def remove (t : Files) (place : Location) : Files := ⟨t.entries.filter fun e => e.1 != place⟩

/-- Why the system may refuse to go on although the tree allows it: the disk is full, say. -/
inductive Mishap where
  /-- Only so many directories are made. -/
  | directories (made : Nat) (report : IoError)
  | create (report : IoError)
  /-- Only so many bytes are written. -/
  | write (bytes : Nat) (report : IoError)
  /-- The file is not brought to the disk, or not moved. -/
  | finish (report : IoError)

/-- Create and write a file, and move it to a path; if this fails, drop it. -/
def moveThrough (t : Files) (held : Location) (mishap : Option Mishap) (path : String)
    (content : ByteArray) : Files × Except IoError Unit :=
  match mishap with
  | some (.create report) => (t, .error report)
  | some (.write bytes report) =>
    ((t.put held (.file (content.extract 0 bytes))).remove held, .error report)
  | some (.finish report) => ((t.put held (.file content)).remove held, .error report)
  | _ =>
    let written := t.put held (.file content)
    match written.target path with
    | .error fault => (written.remove held, .error fault.report)
    | .ok place => ((written.remove held).put place (.file content), .ok ())

/-- Replace a file through one that is created beside it under some name. A name that is taken is
    not used. -/
def replaceThrough (t : Files) (temp : String) (mishap : Option Mishap) (path : String)
    (content : ByteArray) : Files × Except IoError Unit :=
  let parent := Path.parent path
  match mishap with
  | some (.directories made report) =>
    ((t.makeWay false [] ((route parent (Path.names parent)).take made)).1, .error report)
  | _ =>
    match t.makeDirectories parent with
    | (t, .error fault) => (t, .error fault.report)
    | (t, .ok above) =>
      if (t.at? (above ++ [temp])).isSome then (t, .error FileFault.alreadyExists.report)
      else t.moveThrough (above ++ [temp]) mishap path content

/-- A file that was created is dropped again. -/
theorem remove_put {entry : FileEntry} (free : t.at? held = none) :
    (t.put held entry).remove held = t := by
  obtain ⟨entries⟩ := t
  have absent : ∀ e ∈ entries, (e.1 != held) = true := by
    simp only [at?] at free
    split at free
    · cases free
    · intro e listed
      have other := List.lookup_eq_none_iff.mp free e listed
      simp_all [bne]
      exact fun same => other same.symm
  simp only [remove, put, List.filter_cons, bne_self_eq_false, Bool.false_eq_true, if_false,
    List.filter_filter, Bool.and_self, mk.injEq]
  exact List.filter_eq_self.mpr absent

/-- What an attempt to write a file comes to: the whole content is where the path leads, or the attempt
    failed and no file is different. Nothing else has come but directories. -/
def AllOrNothing {ε : Type} (t : Files) (path : String) (content : ByteArray) :
    Files × Except ε Unit → Prop
  | (t', .ok ()) => ∃ place, t'.find? path = .ok (place, .file content) ∧
      t.at? place ≠ some .directory ∧ ∀ p, p ≠ place → Grown t t' p
  | (t', .error _) => ∀ p, Grown t t' p

/-- The target of a path may be found while another file is there. -/
theorem allOrNothing_put {ε : Type} {t₁ other : Files} (grown : ∀ p, Grown t t₁ p)
    (led : other.target path = .ok place) (fewer : KeepsDirectories other t₁)
    (more : KeepsDirectories t₁ other) :
    AllOrNothing t path content ((t₁.put place (.file content), .ok ()) : _ × Except ε Unit) := by
  obtain ⟨-, -, -, -, -, -, -, free, -⟩ := target_cases led
  have free : t₁.at? place ≠ some .directory := fun found => free (more place found)
  refine ⟨place, find?_target led ?_ (at?_put_self free), ?_, fun p other => ?_⟩
  · exact fun p found => keepsDirectories_put free p (fewer p found)
  · exact fun found => free ((grown place).directory found)
  · refine (grown p).trans (.inl ?_)
    rw [at?_put, if_neg fun both => other both.1]

theorem keepsDirectories_back (t : Files) (held : Location) (content : ByteArray) :
    KeepsDirectories (t.put held (.file content)) t := by
  intro p found
  rw [at?_put] at found
  split at found
  · cases found
  · exact found

theorem allOrNothing_moveThrough {t₁ : Files} (grown : ∀ p, Grown t t₁ p)
    (free : t₁.at? held = none)
    (mishap : Option Mishap) :
    AllOrNothing t path content (t₁.moveThrough held mishap path content) := by
  unfold moveThrough
  split
  · exact grown
  · rw [remove_put free]
    exact grown
  · rw [remove_put free]
    exact grown
  · simp only [remove_put free]
    split
    · exact grown
    · next led =>
        refine allOrNothing_put grown led (keepsDirectories_back _ held content) (keepsDirectories_put ?_)
        rw [free]
        exact nofun

theorem allOrNothing_replaceThrough (t : Files) (temp : String) (mishap : Option Mishap)
    (path : String) (content : ByteArray) :
    AllOrNothing t path content (t.replaceThrough temp mishap path content) := by
  unfold replaceThrough
  have grown := grown_makeDirectories t (Path.parent path)
  dsimp only
  split
  · exact grown_makeWay _ _ _
  · split
    · next failed =>
        rw [failed] at grown
        exact grown
    · next made =>
        rw [made] at grown
        split
        · exact grown
        · next free =>
            exact allOrNothing_moveThrough grown (by simpa using free) mishap

/-! ## The same without the other file -/

/-- A name that a file beside a path may be given for a while: it is nobody else's. -/
structure IsSpare (t : Files) (path temp : String) : Prop where
  named : temp ∉ [".", "..", "/"]
  apart : temp ∉ Path.steps path
  free : ∀ made above, t.makeDirectories (Path.parent path) = (made, .ok above) →
    made.at? (above ++ [temp]) = none

theorem not_prefix_concat {name : String} (apart : ¬above ++ [temp] <+: place)
    (other : temp ≠ name) :
    ¬above ++ [temp] <+: place ++ [name] := by
  intro inside
  rcases List.prefix_concat_iff.mp inside with same | inside
  · exact other (List.singleton_inj.mp (List.append_inj' same rfl).2)
  · exact apart inside

theorem not_prefix_nil : ¬above ++ [temp] <+: [] := by
  simp

/-- A step that has another name does not lead into what is held. -/
theorem descend_apart {step : String} (named : temp ∉ [".", "..", "/"]) (other : temp ≠ step)
    (apart : ¬above ++ [temp] <+: start) : ¬above ++ [temp] <+: descend start step := by
  simp only [List.mem_cons, List.not_mem_nil, or_false, not_or] at named
  simp only [descend]
  split
  · exact apart
  · split
    · split
      · exact not_prefix_concat apart named.2.1
      · split
        · exact not_prefix_concat (show ¬above ++ [temp] <+: [] from not_prefix_nil) named.2.2
        · exact fun inside => apart (inside.trans (List.dropLast_prefix start))
    · exact not_prefix_concat apart other

theorem walk_put_apart {entry : FileEntry} (named : temp ∉ [".", "..", "/"])
    (others : temp ∉ steps) (apart : ¬above ++ [temp] <+: start) :
    (t.put (above ++ [temp]) entry).walk start steps = t.walk start steps := by
  induction steps generalizing start with
  | nil => rfl
  | cons step steps ih =>
      have elsewhere : start ≠ above ++ [temp] := fun same => apart (same ▸ List.prefix_refl _)
      obtain ⟨other, others⟩ := List.ne_and_not_mem_of_not_mem_cons others
      simp only [walk, at?_put, elsewhere, false_and, if_false]
      rw [ih others (descend_apart named other apart)]

theorem lastStep_put {entry : FileEntry} (named : temp ∉ [".", "..", "/"])
    (others : temp ∉ Path.steps path) :
    (t.put (above ++ [temp]) entry).lastStep path = t.lastStep path := by
  have way : temp ∉ route path ((Path.steps path).dropLast ++ ["."]) := by
    have inside : temp ∉ (Path.steps path).dropLast ++ ["."] := by
      simp only [List.mem_append, not_or]
      exact ⟨fun member => others (List.dropLast_subset _ member), by simp_all⟩
    rw [route]
    split
    · exact fun member => (List.mem_append.mp member).elim (by simp_all [root]) inside
    · exact inside
  simp only [lastStep, walk_put_apart named way not_prefix_nil]

theorem target_put {entry : FileEntry} (named : temp ∉ [".", "..", "/"])
    (others : temp ∉ Path.steps path) :
    (t.put (above ++ [temp]) entry).target path = t.target path := by
  simp only [target, lastStep_put named others, bind, Except.bind]
  cases pathFault? path with
  | some fault => rfl
  | none =>
      cases last : t.lastStep path with
      | error fault => rfl
      | ok found =>
          have eq := (lastStep_cases last).2
          have other : found.2 ≠ temp := by
            rw [eq]
            cases gone : (Path.steps path).getLast? with
            | none =>
                simp only [List.mem_cons, not_or] at named
                exact Ne.symm named.1
            | some step =>
                rintro rfl
                exact others (List.mem_of_getLast? gone)
          have apart : found.1 ++ [found.2] ≠ above ++ [temp] := fun same =>
            other (List.singleton_inj.mp (List.append_inj' same rfl).2)
          simp only [at?_put, apart, false_and, if_false]

/-- Without a mishap, replacing a file through another one is replacing it. -/
theorem replaceThrough_eq (spare : t.IsSpare path temp) (content : ByteArray) :
    t.replaceThrough temp none path content =
      ((t.replace path content).1, (t.replace path content).2.mapError FileFault.report) := by
  unfold replaceThrough replace
  dsimp only
  rcases made : t.makeDirectories (Path.parent path) with ⟨t₁, fault | above⟩
  · rfl
  · have free := spare.free t₁ above made
    simp only [free, Option.isSome_none, Bool.false_eq_true, if_false, moveThrough, moveTo_eq,
      target_put spare.named spare.apart, remove_put free]
    cases t₁.target path <;> rfl

theorem exists_unused (taken : List String) : ∃ name : String, name ∉ taken := by
  have many : Function.Injective fun n => String.ofList (List.replicate n 'x') := fun a b same => by
    simpa using congrArg (List.length ∘ String.toList) same
  obtain ⟨name, -, unused⟩ :=
    (Set.infinite_range_of_injective many).exists_notMem_finset taken.toFinset
  exact ⟨name, by simpa using unused⟩

theorem at?_eq_none (named : temp ∉ [".", "..", "/"])
    (free : temp ∉ t.entries.filterMap (·.1.getLast?)) : t.at? (above ++ [temp]) = none := by
  simp only [List.mem_cons, List.not_mem_nil, or_false, not_or] at named
  have absent : t.entries.lookup (above ++ [temp]) = none := by
    refine List.lookup_eq_none_iff.mpr fun e listed => ?_
    refine bne_iff_ne.mpr fun same => free (List.mem_filterMap.mpr ⟨e, listed, ?_⟩)
    rw [← same, List.getLast?_concat]
  have below : (isAbove (above ++ [temp]) || above ++ [temp] == root) = false := by
    simp only [isAbove, root, List.all_append, List.all_cons, List.all_nil, Bool.or_eq_false_iff,
      Bool.and_true, Bool.and_eq_false_iff, beq_eq_false_iff_ne]
    refine ⟨.inr named.2.1, fun same => named.2.2 ?_⟩
    exact List.singleton_inj.mp (List.append_inj' (same.trans (List.nil_append _).symm) rfl).2
  rw [at?, below, if_neg Bool.false_ne_true, absent]

/-- There is always a name to spare. -/
theorem exists_spare (t : Files) (path : String) : ∃ temp, t.IsSpare path temp := by
  obtain ⟨temp, unused⟩ := exists_unused ([".", "..", "/"] ++ Path.steps path ++
    (t.makeDirectories (Path.parent path)).1.entries.filterMap (·.1.getLast?))
  rw [List.mem_append, List.mem_append, not_or, not_or] at unused
  obtain ⟨⟨named, apart⟩, free⟩ := unused
  refine ⟨temp, named, apart, fun made above here => at?_eq_none named ?_⟩
  rwa [here] at free

end Files

namespace Settings

variable {s : Settings} {files : Files} {path text : String}

/-- Save settings through a file that is created beside the other one under some name. -/
def saveThrough (s : Settings) (temp : String) (mishap : Option Files.Mishap) (files : Files)
    (path : String) : Files × Except SettingsError Unit :=
  match s.encode path with
  | .error e => (files, .error e)
  | .ok text =>
    match files.replaceThrough temp mishap path text.toUTF8 with
    | (files, .ok ()) => (files, .ok ())
    | (files, .error report) => (files, .error (.io path report))

/-- What an attempt to save comes to: the whole text is where the path leads, and no other file is
    different; or there is an error and no file at all is. An error that is not about the file was found
    before anything was done. -/
def Saves (s : Settings) (files : Files) (path : String) : Files × Except SettingsError Unit → Prop
  | (files', .ok ()) => ∃ text, s.encode path = .ok text ∧
      ∃ place, files'.find? path = .ok (place, .file text.toUTF8) ∧
        files.at? place ≠ some .directory ∧ ∀ p, p ≠ place → files.Grown files' p
  | (files', .error e) => (∀ p, files.Grown files' p) ∧
      ((∃ report, e = .io path report) ∨ s.encode path = .error e ∧ files' = files)

theorem saves_refused {e : SettingsError} (refused : s.encode path = .error e) :
    s.Saves files path (files, .error e) :=
  ⟨.refl files, .inr ⟨refused, rfl⟩⟩

theorem saves_saveThrough (s : Settings) (temp : String) (mishap : Option Files.Mishap)
    (files : Files) (path : String) : s.Saves files path (s.saveThrough temp mishap files path) := by
  unfold saveThrough
  cases encoded : s.encode path with
  | error e => exact saves_refused encoded
  | ok text =>
      have written := files.allOrNothing_replaceThrough temp mishap path text.toUTF8
      simp only
      split
      · next done =>
          rw [done] at written
          exact ⟨text, encoded, written⟩
      · next report failed =>
          rw [failed] at written
          exact ⟨written, .inl ⟨report, rfl⟩⟩

theorem saveThrough_eq {temp : String} (spare : files.IsSpare path temp) :
    s.saveThrough temp none files path = s.save files path := by
  unfold saveThrough save
  cases s.encode path with
  | error e => rfl
  | ok text =>
      simp only [files.replaceThrough_eq spare]
      rcases files.replace path text.toUTF8 with ⟨files', fault | _⟩ <;> rfl

/-- Settings are saved if they have a text, the directories can be made, and the path leads to a place
    for a file in them. -/
theorem save_eq_ok : (s.save files path).2 = .ok () ↔ (∃ text, s.encode path = .ok text) ∧
    ∃ made above place, files.makeDirectories (Path.parent path) = (made, .ok above) ∧
      made.target path = .ok place := by
  unfold save
  cases s.encode path with
  | error e => simp
  | ok text =>
      unfold Files.replace
      simp only [Files.moveTo_eq]
      rcases files.makeDirectories (Path.parent path) with ⟨made, fault | above⟩
      · simp
      · cases led : made.target path with
        | error fault => simp [Except.map, led]
        | ok place => simp [Except.map, led]

/-- However saving goes on, and whatever is in the way: either the file is the whole text and no other
    file is different, or there is an error and no file is. It goes on like this if nothing unforeseen
    happens; the settings are not touched by it, not even if a service stops upon it. -/
theorem save_all_or_nothing (s : Settings) (files : Files) (path : String) :
    s.Saves files path (s.save files path) ∧
    (∀ temp mishap, s.Saves files path (s.saveThrough temp mishap files path)) ∧
    (∃ temp, files.IsSpare path temp) ∧
    (∀ temp, files.IsSpare path temp → s.saveThrough temp none files path = s.save files path) ∧
    ((s.save files path).2 = .ok () ↔ (∃ text, s.encode path = .ok text) ∧
      ∃ made above place, files.makeDirectories (Path.parent path) = (made, .ok above) ∧
        made.target path = .ok place) ∧
    ∀ file running, ((⟨s, file, running⟩ : Service).stop files).2.2.after.settings = s := by
  obtain ⟨temp, spare⟩ := files.exists_spare path
  refine ⟨?_, (s.saves_saveThrough · · files path), ⟨temp, spare⟩, fun _ => saveThrough_eq, save_eq_ok,
    fun file running => ?_⟩
  · rw [← saveThrough_eq spare]
    exact s.saves_saveThrough temp none files path
  · unfold Service.stop
    split <;> rfl

/-- A file in the way of a directory, one that is to be replaced, and one beside it. -/
def crowdedFiles : Files :=
  ⟨[(["blocked"], .file .empty), (["conf"], .directory), (["conf", "s.json"], .file "old".toUTF8),
    (["conf", "other"], .file "kept".toUTF8)]⟩

/-- The file is replaced through another one, which is gone afterwards. -/
theorem save_beside_other_file :
    let s : Settings := ⟨.ofList [("a", .bool true)]⟩
    crowdedFiles.IsSpare "conf/s.json" ".tmpq3Xz9A" ∧
      s.saveThrough ".tmpq3Xz9A" none crowdedFiles "conf/s.json" = s.save crowdedFiles "conf/s.json" ∧
      (s.save crowdedFiles "conf/s.json").2 = .ok () ∧
      (s.save crowdedFiles "conf/s.json").1.entries.map (·.1) =
        [["conf", "s.json"], ["blocked"], ["conf"], ["conf", "other"]] := by
  intro s
  have made : crowdedFiles.makeDirectories (Path.parent "conf/s.json") =
      (crowdedFiles, .ok ["conf"]) := by rfl
  have spare : crowdedFiles.IsSpare "conf/s.json" ".tmpq3Xz9A" := by
    refine ⟨by decide, by decide +kernel, fun _ _ here => ?_⟩
    rw [made] at here
    cases here
    rfl
  refine ⟨spare, (s.save_all_or_nothing crowdedFiles "conf/s.json").2.2.2.1 _ spare, ?_, ?_⟩
  · decide +kernel
  · decide +kernel

end Settings

end Mvc
