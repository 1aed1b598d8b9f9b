import Mvc.Proofs.Leaves
import Mvc.Settings.Storage

/-! # Keys that can be asked for

Settings are asked by keys in any spelling, and look for the normal form. So an entry whose key
is not in normal form is listed, and yet never found. Writing enters normal forms only; a file
can name such an entry, by a name that is made of nothing but separators, and then nothing but
clearing takes it away again.
-/

namespace Mvc

namespace Dict

variable {α : Type} {d : Dict α} {key : String}

theorem mem_keys : key ∈ d.keys ↔ (d.get? key).isSome := by
  simp [keys, Option.isSome_iff_exists, get?, Entries.find?_eq_some d.ascending]

theorem get?_empty (key : String) : (empty : Dict α).get? key = none := rfl

theorem get?_of_isEmpty (none : d.isEmpty = true) : d.get? key = .none := by
  obtain ⟨entries, ascending⟩ := d
  obtain rfl := List.isEmpty_iff.mp none
  rfl

end Dict

namespace Settings

open Key Value

/-! ## What can be done to settings -/

/-- What can be done to settings. -/
inductive Deed where
  | set (key : String) (value : Value) (sound : value.WellFormed)
  | extend (values : Dict Value) (sound : ∀ e ∈ values.entries, e.2.WellFormed)
  | remove (key : String)
  | clear

/-- The settings after a deed. -/
def Deed.perform (s : Settings) : Deed → Settings
  | set key value _ => (s.set key value).after
  | extend values _ => (s.extend values).after
  | remove key => (s.remove key).after
  | clear => s.clear.after

/-- The settings after some deeds. -/
def after (s : Settings) (deeds : List Deed) : Settings := deeds.foldl Deed.perform s

variable {s : Settings} {key k : String} {deeds : List Deed} {tree : List (String × Value)}
  {path : List String}

theorem get?_remove : (s.remove key).after.values.get? k =
    if k = normalize key then none else s.values.get? k := by
  simp only [remove]
  split
  · exact s.values.get?_erase (normalize key) k
  · next absent =>
      have absent : s.values.get? (normalize key) = none := by
        simpa [Dict.contains] using absent
      by_cases here : k = normalize key
      · rw [if_pos here, here]
        exact absent
      · rw [if_neg here]
        rfl

theorem get?_set (value : Value) : (s.set key value).after.values.get? k =
    if k = normalize key ∧ k ≠ "" then (if value.isNull then none else some value)
    else s.values.get? k := by
  by_cases blank : normalize key = ""
  · rw [if_neg fun both => both.2 (both.1.trans blank)]
    simp [set, blank, unchanged]
  · have same : k = normalize key ∧ k ≠ "" ↔ k = normalize key :=
      ⟨And.left, fun here => ⟨here, here ▸ blank⟩⟩
    simp only [set, same, String.isEmpty_iff, blank, if_false]
    split
    · rw [get?_remove, normalize_normalize]
    · split
      · next kept =>
          have kept : s.values.get? (normalize key) = some value := by simpa using kept
          split
          · next here => exact here ▸ kept
          · rfl
      · exact s.values.get?_insert _ _ _

theorem get?_clear : s.clear.after.values.get? k = none := by
  simp only [clear]
  split
  · next none => exact Dict.get?_of_isEmpty none
  · exact Dict.get?_empty k

theorem setAll_cons (e : String × Value) (rest : List (String × Value)) :
    (s.setAll (e :: rest)).after = ((s.set e.1 e.2).after.setAll rest).after := by
  rw [setAll]

theorem holds_setAll {P : Settings → Prop} (values : List (String × Value))
    (sound : ∀ e ∈ values, e.2.WellFormed)
    (written : ∀ (s : Settings) key value, value.WellFormed → P s → P (s.set key value).after)
    (start : P s) : P (s.setAll values).after := by
  induction values generalizing s with
  | nil => exact start
  | cons e rest ih =>
      simp only [List.mem_cons, forall_eq_or_imp] at sound
      rw [setAll_cons]
      exact ih sound.2 (written s e.1 e.2 sound.1 start)

/-- What holds without entries and is kept by each write and each removal is kept by all deeds. -/
theorem holds_after {P : Settings → Prop} (start : P s) (cleared : ∀ s : Settings, P s.clear.after)
    (removed : ∀ (s : Settings) key, P s → P (s.remove key).after)
    (written : ∀ (s : Settings) key value, value.WellFormed → P s → P (s.set key value).after) :
    P (s.after deeds) := by
  induction deeds generalizing s with
  | nil => exact start
  | cons deed deeds ih =>
      refine ih ?_
      cases deed with
      | set key value sound => exact written s key value sound start
      | extend values sound => exact holds_setAll values.entries sound written start
      | remove key => exact removed s key start
      | clear => exact cleared s

/-! ## Keys that no spelling reaches -/

/-- A deed takes away what is listed under a key that is not in normal form. -/
def Deed.Drops (key : String) : Deed → Prop
  | clear => True
  | remove key' => normalize key' = key
  | _ => False

theorem isNormal_normalize (some : normalize key ≠ "") : IsNormal (normalize key) :=
  ⟨some, normalize_normalize key⟩

theorem get?_set_of_not_isNormal (odd : ¬IsNormal k) (value : Value) :
    (s.set key value).after.values.get? k = s.values.get? k := by
  rw [get?_set]
  refine if_neg ?_
  rintro ⟨rfl, some⟩
  exact odd (isNormal_normalize some)

theorem get?_setAll_of_not_isNormal (odd : ¬IsNormal k) (values : List (String × Value)) :
    (s.setAll values).after.values.get? k = s.values.get? k := by
  induction values generalizing s with
  | nil => rfl
  | cons e rest ih => rw [setAll_cons, ih, get?_set_of_not_isNormal odd]

theorem get?_perform (odd : ¬IsNormal k) (deed : Deed) :
    (deed.perform s).values.get? k = none ∧ deed.Drops k ∨
      (deed.perform s).values.get? k = s.values.get? k ∧ ¬deed.Drops k := by
  simp only [Deed.perform]
  cases deed with
  | set key value => exact .inr ⟨get?_set_of_not_isNormal odd value, id⟩
  | extend values => exact .inr ⟨get?_setAll_of_not_isNormal odd values.entries, id⟩
  | clear => exact .inl ⟨get?_clear, trivial⟩
  | remove key =>
      simp only [get?_remove, Deed.Drops]
      by_cases here : normalize key = k
      · exact .inl ⟨if_pos here.symm, here⟩
      · exact .inr ⟨if_neg (Ne.symm here), here⟩

/-- An entry whose key is not in normal form stands until it is dropped, and no new one comes. -/
theorem listed_after (odd : ¬IsNormal k) : ((s.after deeds).values.get? k).isSome ↔
    (s.values.get? k).isSome ∧ ∀ deed ∈ deeds, ¬deed.Drops k := by
  induction deeds generalizing s with
  | nil => simp [after]
  | cons deed deeds ih =>
      rw [after, List.foldl_cons, ← after, ih, List.forall_mem_cons]
      rcases get?_perform (s := s) odd deed with ⟨gone, drops⟩ | ⟨kept, keeps⟩
      · simp [gone, drops]
      · simp [kept, keeps]

/-! ## Names that spell no segment -/

/-- A name made of separators only. -/
def IsBlank (name : String) : Bool := (segments name).isEmpty

/-- Behind blank names at the front there is a name, and none that is blank. -/
def WellNamed (path : List String) : Prop :=
  path.dropWhile IsBlank ≠ [] ∧ ∀ name ∈ path.dropWhile IsBlank, IsBlank name = false

instance : DecidablePred WellNamed := fun _ => instDecidableAnd

/-- The pieces of a key that a name adds. -/
def added (name : String) : List (List Char) :=
  if IsBlank name then [[]] else segments name

theorem added_ne_nil (name : String) : added name ≠ [] := by
  simp only [added]
  split
  · simp
  · next some => simpa [IsBlank] using some

theorem joinSlash_added (name : String) :
    Text.joinSlash (added name) = (normalize name).toList := by
  simp only [added, Key.normalize, String.toList_ofList]
  split
  · next blank =>
      rw [IsBlank, List.isEmpty_iff] at blank
      rw [blank]
      rfl
  · rfl

theorem mem_added {part : List Char} {name : String} (member : part ∈ added name) :
    ∀ c ∈ part, isSeparator c = false := by
  simp only [added] at member
  split at member
  · simp_all
  · exact (isSegment_of_mem member).2

/-- Below a group that has a name, each name adds its pieces. -/
theorem keyAlong_eq {parts : List (List Char)} (some : parts ≠ [])
    (inside : String.ofList (Text.joinSlash parts) ≠ "") (path : List String) :
    keyAlong (String.ofList (Text.joinSlash parts)) path =
      String.ofList (Text.joinSlash (parts ++ path.flatMap added)) := by
  induction path generalizing parts with
  | nil => simp
  | cons name path ih =>
      have next : keyBelow (String.ofList (Text.joinSlash parts)) name =
          String.ofList (Text.joinSlash (parts ++ added name)) := by
        rw [keyBelow_of_ne inside, ← String.toList_inj, String.toList_ofList,
          Text.joinSlash_append some (added_ne_nil name), joinSlash_added]
        simp
      rw [keyAlong_cons, next, ih (by simp [some]), List.flatMap_cons, List.append_assoc]
      rw [Text.joinSlash_append some (added_ne_nil name)]
      simp

/-- Blank names at the front of a path do not count. -/
theorem keyAlong_dropWhile (path : List String) :
    keyAlong "" path = keyAlong "" (path.dropWhile IsBlank) := by
  induction path with
  | nil => rfl
  | cons name path ih =>
      cases blank : IsBlank name with
      | true =>
          have first : keyBelow "" name = "" := by
            simpa [keyBelow, normalize_eq_empty, IsBlank] using blank
          rw [List.dropWhile_cons_of_pos blank, keyAlong_cons, first, ih]
      | false => simp [blank]

theorem keyAlong_pieces {name : String} (some : IsBlank name = false) (path : List String) :
    keyAlong "" (name :: path) =
      String.ofList (Text.joinSlash ((name :: path).flatMap added)) := by
  have pieces : added name = segments name := by simp [added, some]
  have first : keyBelow "" name = String.ofList (Text.joinSlash (added name)) := by
    simp [keyBelow, pieces, Key.normalize]
  have inside : normalize name ≠ "" := by simpa [normalize_eq_empty, IsBlank] using some
  rw [keyAlong_cons, first, keyAlong_eq (added_ne_nil name) _ path, List.flatMap_cons]
  rwa [joinSlash_added, String.ofList_toList]

/-- A key is in normal form when none of its pieces is empty. -/
theorem isNormal_joinSlash {parts : List (List Char)} (some : parts ≠ [])
    (inside : ∀ part ∈ parts, ∀ c ∈ part, isSeparator c = false) :
    IsNormal (String.ofList (Text.joinSlash parts)) ↔ ∀ part ∈ parts, part ≠ [] := by
  have cut := segments_joinSlash some inside
  constructor
  · intro normal part member
    have cut' := segments_of_isNormal normal
    rw [String.toList_ofList, Text.pieces_joinSlash (by rfl) some] at cut'
    · rw [← cut'] at member
      exact (isSegment_of_mem member).1
    · intro part member c here
      have plain := inside part member c here
      simp only [isSeparator, Bool.or_eq_false_iff] at plain
      exact plain.1
  · intro full
    rw [List.filter_eq_self.mpr fun part member => by simp [full part member]] at cut
    refine ⟨fun blank => some ?_, by rw [Key.normalize, cut]⟩
    rw [← cut, blank]
    rfl

/-- The key that a path spells is in normal form just when the path is well named. -/
theorem isNormal_keyAlong (path : List String) :
    IsNormal (keyAlong "" path) ↔ WellNamed path := by
  rw [keyAlong_dropWhile, WellNamed]
  cases rest : path.dropWhile IsBlank with
  | nil => simp [IsNormal]
  | cons name more =>
      have first : IsBlank name = false := by
        have := List.head?_dropWhile_not IsBlank path
        simpa [rest] using this
      rw [keyAlong_pieces first, isNormal_joinSlash (by simp [added_ne_nil])]
      · simp only [List.mem_flatMap, ne_eq, reduceCtorEq, not_false_eq_true, true_and]
        constructor
        · intro full name listed
          by_contra blank
          exact full [] ⟨name, listed, by simp [added, blank]⟩ rfl
        · rintro plain part ⟨name, listed, here⟩
          simp only [added, plain name listed] at here
          exact (isSegment_of_mem here).1
      · intro part member
        obtain ⟨name, -, here⟩ := List.mem_flatMap.mp member
        exact mem_added here

/-! ## What is listed is found -/

/-- Each key that is listed is in normal form, its value is found under it, and removing it removes
    that entry. -/
def Addressable (s : Settings) : Prop :=
  ∀ key ∈ s.values.keys, key ≠ "" ∧ normalize key = key ∧ s.contains key = true ∧
    (∃ v, (key, v) ∈ s.values.entries ∧ s.get? key = some v ∧ v ≠ .null) ∧
    (s.remove key).announced = [key] ∧
    ∀ k, (s.remove key).after.values.get? k = if k = key then none else s.values.get? k

/-- No entry is `null`. -/
def NullFree (s : Settings) : Prop := ∀ key, s.values.get? key ≠ some .null

theorem nullFree_flatten (tree : List (String × Value)) : NullFree ⟨flatten tree⟩ := by
  intro key found
  obtain ⟨path, listed, -⟩ := mem_entriesLeaves_of_get? found
  exact isLeaf_of_mem_leaves (v := .map tree) listed

theorem nullFree_after (start : NullFree s) : NullFree (s.after deeds) := by
  refine holds_after start (fun s key => by simp [get?_clear]) ?_ ?_
  · intro s key held k
    rw [get?_remove]
    split
    · simp
    · exact held k
  · intro s key value _ held k
    rw [get?_set]
    split
    · cases value <;> simp [isNull]
    · exact held k

theorem addressable_iff_normal (full : NullFree s) :
    Addressable s ↔ ∀ key ∈ s.values.keys, IsNormal key := by
  constructor
  · intro all key listed
    obtain ⟨some, normal, -⟩ := all key listed
    exact ⟨some, normal⟩
  · intro all key listed
    obtain ⟨some, normal⟩ := all key listed
    obtain ⟨v, found⟩ := Option.isSome_iff_exists.mp (Dict.mem_keys.mp listed)
    have present : s.contains key = true := by
      simp [contains, Dict.contains, normal, found]
    refine ⟨some, normal, present, ⟨v, (Entries.find?_eq_some s.values.ascending).mp found,
      by rw [get?, normal, found], ?_⟩, ?_, fun k => ?_⟩
    · rintro rfl
      exact full key found
    · simp only [contains, normal] at present
      simp [remove, normal, present]
    · rw [get?_remove, normal]

/-- Settings as they are opened: without entries, or with those of a file's tree. -/
inductive Opened : Settings → List (String × Value) → Prop where
  | new : Opened .empty []
  | loaded {files : Files} {path text : String} {format : SettingsFormat} {s : Settings}
      {tree : List (String × Value)} (named : SettingsFormat.ofPath path = .ok format)
      (there : files.readText path = .ok text) (denotes : format.decode? text = some tree)
      (opened : load files path = .ok s) : Opened s tree

theorem load_eq {files : Files} {path text : String} {format : SettingsFormat}
    (named : SettingsFormat.ofPath path = .ok format) (there : files.readText path = .ok text)
    (denotes : format.decode? text = some tree) : load files path = .ok ⟨flatten tree⟩ := by
  simp [load, read, named, there, denotes, bind, Except.bind, pure, Except.pure]

theorem eq_of_opened (opened : Opened s tree) : s = ⟨flatten tree⟩ := by
  cases opened with
  | new => rfl
  | loaded named there denotes opened =>
      rw [load_eq named there denotes] at opened
      cases opened
      rfl

/-- Whatever is done to settings, each listed key can be asked for, unless the tree they came from
    named a leaf by a path that is not well named, and nothing has dropped that entry since. -/
theorem addressable_iff_dropped (opened : Opened s tree) (deeds : List Deed) :
    Addressable (s.after deeds) ↔ ∀ leaf ∈ entriesLeaves tree, WellNamed leaf.1 ∨
      ∃ deed ∈ deeds, deed.Drops (keyAlong "" leaf.1) := by
  obtain rfl := eq_of_opened opened
  rw [addressable_iff_normal (nullFree_after (nullFree_flatten tree))]
  constructor
  · intro normal leaf listed
    by_contra! standing
    have odd : ¬IsNormal (keyAlong "" leaf.1) := mt (isNormal_keyAlong leaf.1).mp standing.1
    refine odd (normal _ (Dict.mem_keys.mpr ((listed_after odd).mpr ⟨?_, standing.2⟩)))
    exact get?_flatten_isSome.mpr ⟨leaf, listed, rfl⟩
  · intro named key listed
    by_contra odd
    -- No deed enters such a key, so it was in the file's tree.
    obtain ⟨before, keeps⟩ := (listed_after odd).mp (Dict.mem_keys.mp listed)
    obtain ⟨leaf, there, rfl⟩ := get?_flatten_isSome.mp before
    rcases named leaf there with well | ⟨deed, done, drops⟩
    · exact odd ((isNormal_keyAlong leaf.1).mpr well)
    · exact keeps deed done drops

/-- The file `s.json` with a text. -/
def fileOf (text : String) : Files := ⟨[(["s.json"], .file text.toUTF8)]⟩

/-- A text whose outermost map has a blank name. -/
def blankText : String := "\x7b\"\": 1, \"a\": \x7b\".b\": true\x7d\x7d"

/-- A text that names a leaf by a blank name inside a group. -/
def strayText : String := "\x7b\"a\": \x7b\"\": 1\x7d\x7d"

theorem ofPath_json : SettingsFormat.ofPath "s.json" = .ok .json := by decide +kernel

theorem addressable_after_removing :
    ∃ s, Opened s [("", .integer 1), ("a", .map [(".b", .bool true)])] ∧
      Addressable (s.after [.set "c..d" (.integer 2) trivial, .remove "."]) := by
  have there : (fileOf blankText).readText "s.json" = .ok blankText := rfl
  have read : SettingsFormat.decode? .json blankText =
      some [("", .integer 1), ("a", .map [(".b", .bool true)])] := by decide +kernel
  have opened := Opened.loaded ofPath_json there read (load_eq ofPath_json there read)
  refine ⟨_, opened, (addressable_iff_dropped opened _).mpr ?_⟩
  intro leaf listed
  simp only [entriesLeaves, leaves, List.map_cons, List.map_nil, List.cons_append, List.nil_append,
    List.mem_cons, List.not_mem_nil, or_false] at listed
  rcases listed with rfl | rfl
  · exact .inr ⟨.remove ".", by simp, show normalize "." = keyAlong "" [""] by decide +kernel⟩
  · exact .inl (by decide +kernel)

/-- A leaf with a blank name inside a group is listed under a key that nothing finds. -/
theorem unaddressable_of_blank_name :
    ∃ s, load (fileOf strayText) "s.json" = .ok s ∧ s.values.keys = ["a/"] ∧
      s.contains "a/" = false ∧ s.get? "a/" = none ∧ (s.remove "a/").after = s ∧
      ¬Addressable s := by
  have there : (fileOf strayText).readText "s.json" = .ok strayText := rfl
  have read : SettingsFormat.decode? .json strayText =
      some [("a", .map [("", .integer 1)])] := by decide +kernel
  have loaded := load_eq ofPath_json there read
  have missing : contains ⟨flatten [("a", .map [("", .integer 1)])]⟩ "a/" = false := by
    decide +kernel
  refine ⟨_, loaded, by decide +kernel, missing, by decide +kernel, ?_, fun all => ?_⟩
  · exact congrArg Change.after (if_neg (by simpa [contains] using missing))
  · have normal := (all "a/" (by decide +kernel)).2.1
    exact absurd normal (by decide +kernel)

end Settings

end Mvc
