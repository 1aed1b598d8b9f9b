import Mvc.Proofs.Filing
import Mvc.Proofs.JsonText
import Mvc.Proofs.Nesting
import Mvc.Proofs.TomlText
import Mvc.Settings.Storage

/-! # Settings that were saved

What was saved to a file is loaded from it, unless its tree nests deeper than the reader of the
format goes: each segment of a key is a level of the tree, and each list or map in a value is one
more. The writers know no such bound.
-/

namespace Mvc

open Value

namespace SettingsFormat

variable {format : SettingsFormat} {tree : List (String × Value)} {text : String}

/-- What a double comes back as. -/
def double : SettingsFormat → Binary64 → Value
  | toml => Toml.rereadDouble
  | json => Json.rereadDouble

/-- Whether the reader of a format goes as deep as a tree. -/
def Fits (format : SettingsFormat) (tree : List (String × Value)) : Prop :=
  match format with
  | toml => Toml.Fits tree
  | json => (Value.map tree).depth ≤ Json.depthLimit

instance (format : SettingsFormat) : DecidablePred format.Fits := fun tree =>
  match format with
  | toml => inferInstanceAs (Decidable (Toml.Fits tree))
  | json => inferInstanceAs (Decidable (_ ≤ _))

/-- A depth to which any tree is read. -/
def limit : SettingsFormat → Nat
  | toml => Toml.depthLimit + 1
  | json => Json.depthLimit

theorem fits_of_depth (shallow : (Value.map tree).depth ≤ format.limit) : format.Fits tree := by
  cases format with
  | toml => exact Toml.fits_of_depth shallow
  | json => exact shallow

/-- The text of a tree denotes the tree as it comes back, if it is not too deep. -/
theorem decode?_of_encode? (sound : (Value.map tree).WellFormed)
    (encoded : format.encode? tree = some text) : format.decode? text =
      if format.Fits tree then some (rereadEntries format.double tree) else none := by
  cases format with
  | toml =>
      rw [decode?, Toml.parse?_document sound encoded]
      by_cases fits : Toml.Fits tree
      · rw [if_pos fits, if_pos (show Fits toml tree from fits)]
        rfl
      · rw [if_neg fits, if_neg (show ¬Fits toml tree from fits)]
        rfl
  | json =>
      cases encoded
      rw [decode?, Json.parse?_indented sound]
      by_cases fits : (Value.map tree).depth ≤ Json.depthLimit
      · rw [if_pos fits, if_pos (show Fits json tree from fits)]
        rfl
      · rw [if_neg fits, if_neg (show ¬Fits json tree from fits)]
        rfl

end SettingsFormat

namespace Settings

variable {s : Settings} {files : Files} {path : String} {v : Value} {names : List String}
  {tree entries : List (String × Value)}

/-! ## The depth of a tree -/

theorem entriesDepth_insert (name : String) (v : Value) (tree : List (String × Value)) :
    entriesDepth (Entries.insert name v tree) ≤ max (entriesDepth tree) v.depth := by
  rw [entriesDepth_le]
  intro e listed
  rcases Entries.mem_insert listed with rfl | listed
  · exact le_max_right _ _
  · exact le_max_of_le_left (entriesDepth_le.mp le_rfl e listed)

/-- Each name of a path is a level. -/
theorem depth_insertNested (v : Value) (path : List String) (tree : List (String × Value)) :
    (Value.map (insertNested v path tree)).depth ≤
      max (Value.map tree).depth (path.length + v.depth) := by
  induction path generalizing tree with
  | nil => exact le_max_left _ _
  | cons name path ih =>
      cases path with
      | nil =>
          simp only [insertNested]
          split
          · exact le_max_left _ _
          · have inside := entriesDepth_insert name v tree
            simp only [Value.depth, List.length_singleton]
            omega
      | cons next path =>
          -- The group that is entered is one of the tree, or empty.
          have group : (Value.map (groupEntries (Entries.find? name tree))).depth ≤
              max (entriesDepth tree) 1 := by
            cases found : Entries.find? name tree with
            | none => exact le_max_right _ _
            | some w =>
                have inside := entriesDepth_le.mp le_rfl _ (Entries.mem_of_find? found)
                cases w with
                | map entries => exact le_max_of_le_left inside
                | _ => exact le_max_right _ _
          have inner := ih (groupEntries (Entries.find? name tree))
          have entered := entriesDepth_insert name
            (.map (insertNested v (next :: path) (groupEntries (Entries.find? name tree)))) tree
          rw [insertNested_cons name (List.cons_ne_nil next path)]
          simp only [Value.depth, List.length_cons] at group inner entered ⊢
          omega

theorem depth_nestAll {n : Nat} (some : 0 < n)
    (shallow : ∀ e ∈ entries, (Key.path e.1).length + e.2.depth ≤ n) :
    (Value.map (nestAll entries)).depth ≤ n := by
  induction entries using List.reverseRecOn with
  | nil => exact some
  | append_singleton entries e ih =>
      have before := ih fun e' listed => shallow e' (by simp [listed])
      have last := shallow e (by simp)
      have step := depth_insertNested e.2 (Key.path e.1) (nestAll entries)
      rw [nestAll_append]
      omega

/-- The names of a single path are all levels above its value. -/
theorem depth_insertNested_nil (v : Value) (some : names ≠ []) :
    (Value.map (insertNested v names [])).depth = names.length + v.depth := by
  induction names with
  | nil => contradiction
  | cons name names ih =>
      by_cases last : names = []
      · subst last
        simp [insertNested, Entries.insert, Value.depth, entriesDepth]
        omega
      · have inner := ih last
        rw [insertNested_cons name last]
        simp only [Entries.find?_nil, groupEntries, Entries.insert, Value.depth, entriesDepth,
          List.length_cons] at inner ⊢
        omega

/-! ## There and back -/

/-- Saving without a fault writes the whole text of the tree. -/
theorem save_cases (saved : (s.save files path).2 = .ok ()) : ∃ format text,
    SettingsFormat.ofPath path = .ok format ∧ format.encode? (nest s.values) = some text ∧
      files.replace path text.toUTF8 = ((s.save files path).1, .ok ()) := by
  rw [save] at saved ⊢
  cases encoded : s.encode path with
  | error e => simp [encoded] at saved
  | ok text =>
      simp only [encoded] at saved ⊢
      simp only [encode, bind, Except.bind] at encoded
      split at encoded
      · cases encoded
      · next format known =>
          split at encoded
          · next text' here =>
              cases encoded
              refine ⟨format, text, known, here, ?_⟩
              split at saved
              · next replaced =>
                  rw [replaced]
              · cases saved
          · cases encoded

theorem load_refused {text : String} {format : SettingsFormat}
    (named : SettingsFormat.ofPath path = .ok format) (there : files.readText path = .ok text)
    (refused : format.decode? text = none) :
    load files path = .error (.parse path format.complaint) := by
  simp [load, read, named, there, refused, bind, Except.bind, throw, throwThe,
    MonadExceptOf.throw]

/-- What was saved is loaded if the reader of the format goes as deep as the tree. -/
theorem load_save (sound : ∀ e ∈ s.values.entries, e.2.WellFormed)
    (saved : (s.save files path).2 = .ok ()) : ∃ format, SettingsFormat.ofPath path = .ok format ∧
      load (s.save files path).1 path =
        if format.Fits (nest s.values) then
          .ok ⟨flatten (rereadEntries format.double (nest s.values))⟩
        else .error (.parse path format.complaint) := by
  obtain ⟨format, text, named, encoded, replaced⟩ := save_cases saved
  have whole : (Value.map (nest s.values)).WellFormed := kept_nestAll (fun _ => wellFormed_map) sound
  have there := Files.readText_replace replaced
  have denotes := SettingsFormat.decode?_of_encode? whole encoded
  refine ⟨format, named, ?_⟩
  split
  · next fits =>
      rw [if_pos fits] at denotes
      exact load_eq named there denotes
  · next deep =>
      rw [if_neg deep] at denotes
      exact load_refused named there denotes

/-- A tree is not too deep if for each entry the segments of the key and the lists and maps in the
    value are few enough. -/
theorem fits_nest {format : SettingsFormat}
    (shallow : ∀ e ∈ s.values.entries, (Key.path e.1).length + e.2.depth ≤ format.limit) :
    format.Fits (nest s.values) := by
  refine SettingsFormat.fits_of_depth (depth_nestAll ?_ shallow)
  cases format <;> decide

/-- Settings that were stored and saved are loaded if and only if their tree is not too deep. -/
theorem load_after_save (deeds : List Deed) {files : Files} {path : String}
    (saved : ((after .empty deeds).save files path).2 = .ok ()) :
    ∃ format, SettingsFormat.ofPath path = .ok format ∧
      load ((after .empty deeds).save files path).1 path =
        if format.Fits (nest (after .empty deeds).values) then
          .ok ⟨flatten (rereadEntries format.double (nest (after .empty deeds).values))⟩
        else .error (.parse path format.complaint) :=
  load_save (sound_after deeds).2 saved

/-- Two entries in different groups. -/
def shallow : List Deed :=
  [.set "a/b" (.integer 1) trivial, .set "c" (.list [.bool true]) ⟨trivial, trivial⟩]

theorem load_after_save_shallow : ((after .empty shallow).save .empty "s.json").2 = .ok () ∧
    load ((after .empty shallow).save .empty "s.json").1 "s.json" = .ok (after .empty shallow) := by
  have saved : ((after .empty shallow).save .empty "s.json").2 = .ok () := by decide +kernel
  obtain ⟨format, named, loaded⟩ := load_after_save shallow saved
  have json : SettingsFormat.ofPath "s.json" = .ok .json := by decide +kernel
  rw [json] at named
  cases named
  refine ⟨saved, loaded.trans ?_⟩
  rw [if_pos (fits_nest (by decide +kernel))]
  have same :
      flatten (rereadEntries SettingsFormat.json.double (nest (after .empty shallow).values)) =
        (after .empty shallow).values :=
    Dict.ext_get? fun key => congrArg (Entries.find? key) (by decide +kernel)
  rw [same]

/-- A single entry spans a level for each segment of its key. -/
theorem depth_set {key : String} (normal : Key.IsNormal key) (some : v.isNull = false)
    (sound : v.WellFormed) :
    (Value.map (nest (after .empty [.set key v sound]).values)).depth =
      (Key.path key).length + v.depth := by
  have entries : (after .empty [.set key v sound]).values.entries = [(key, v)] := by
    have absent : (empty.values.get? key == .some v) = false := rfl
    simp [after, Deed.perform, set, normal.2, normal.1, some, absent]
    rfl
  rw [nest_eq, entries]
  exact depth_insertNested_nil v (Key.path_ne_nil key)

/-- A key of 128 segments. -/
def deepKey : String := Key.ofPath (List.replicate 128 "a")

/-- One entry is enough for a tree that is too deep. -/
def deep : List Deed := [.set deepKey (.bool true) trivial]

theorem depth_deep : (Value.map (nest (after .empty deep).values)).depth = 128 := by
  have plain : ∀ name ∈ List.replicate 128 "a", Key.IsName name := by
    intro name member
    rw [List.eq_of_mem_replicate member]
    simp [Key.IsName, Key.IsSegment, Key.isSeparator]
  have names : List.replicate 128 "a" ≠ [] := by simp
  have depth := depth_set (v := .bool true) (Key.isNormal_ofPath names plain) rfl trivial
  rw [Key.path_ofPath names plain, List.length_replicate] at depth
  exact depth

theorem unreadable_of_deepKey : ((after .empty deep).save .empty "s.json").2 = .ok () ∧
    load ((after .empty deep).save .empty "s.json").1 "s.json" =
      .error (.parse "s.json" "not a JSON object") := by
  have saved : ((after .empty deep).save .empty "s.json").2 = .ok () := by decide +kernel
  obtain ⟨format, named, loaded⟩ := load_save (sound_after deep).2 saved
  have json : SettingsFormat.ofPath "s.json" = .ok .json := by decide +kernel
  rw [json] at named
  cases named
  have deeper : ¬SettingsFormat.json.Fits (nest (after .empty deep).values) := by
    rw [SettingsFormat.Fits, depth_deep]
    decide
  exact ⟨saved, loaded.trans (if_neg deeper)⟩

end Settings

end Mvc
