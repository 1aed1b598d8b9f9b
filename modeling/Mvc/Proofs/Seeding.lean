import Mvc.Proofs.Running

/-! # Defaults and the file

A service takes over what its file says, and fills in defaults where it knows nothing. Each of these
is a run of writes, and afterwards a key has the value of the first source that has one: the file, what
was there before, the defaults. So it makes no difference which is done first.

Several paths in a file may spell one key. The writes are made in the order of the keys as they are
spelled, so the last of them counts.
-/

namespace Mvc

namespace Settings

open Key Value

variable {s : Settings} {key : String} {entries tree : List (String × Value)}

/-! ## What a file says about a key -/

/-- The value that some writes leave under a key: that of the last one. The blank key takes none. -/
def given (entries : List (String × Value)) (key : String) : Option Value :=
  (entries.reverse.find? fun e => decide (key ≠ "" ∧ Key.normalize e.1 = key)).map (·.2)

theorem given_cons (e : String × Value) (entries : List (String × Value)) (key : String) :
    given (e :: entries) key =
      (given entries key).or (if key = Key.normalize e.1 ∧ key ≠ "" then some e.2 else none) := by
  simp only [given, List.reverse_cons, List.find?_append, Option.map_or, List.find?_singleton]
  congr 1
  by_cases here : key ≠ "" ∧ Key.normalize e.1 = key
  · rw [if_pos (decide_eq_true here), if_pos ⟨here.2.symm, here.1⟩, Option.map_some]
  · rw [if_neg (by simpa using here), if_neg fun both => here ⟨both.2, both.1.symm⟩,
      Option.map_none]

/-- A write counts if no other one for its key says something else. -/
theorem given_of_agree {value : Value} (normal : IsNormal key) (listed : (key, value) ∈ entries)
    (agree : ∀ e ∈ entries, Key.normalize e.1 = key → e.2 = value) :
    given entries key = some value := by
  unfold given
  cases found : entries.reverse.find? fun e => decide (key ≠ "" ∧ Key.normalize e.1 = key) with
  | none =>
      have nowhere := List.find?_eq_none.mp found _ (List.mem_reverse.mpr listed)
      exact absurd (decide_eq_true normal) nowhere
  | some e =>
      have spelled : key ≠ "" ∧ Key.normalize e.1 = key := by simpa using List.find?_some found
      have member := List.mem_reverse.mp (List.mem_of_find?_eq_some found)
      exact congrArg some (agree e member spelled.2)

/-- After some writes that remove nothing, a key has what they leave there, or what it had. -/
theorem get?_setAll_given (full : ∀ e ∈ entries, e.2.isNull = false) (key : String) :
    (s.setAll entries).after.values.get? key = (given entries key).or (s.values.get? key) := by
  induction entries generalizing s with
  | nil => rfl
  | cons e rest ih =>
      obtain ⟨first, later⟩ := List.forall_mem_cons.mp full
      rw [setAll_cons, ih later, get?_set, first, given_cons, Option.or_assoc]
      split <;> rfl

theorem isNull_of_mem_flatten : ∀ e ∈ (flatten tree).entries, e.2.isNull = false := by
  intro e listed
  have found := (Entries.find?_eq_some (flatten tree).ascending).mpr listed
  have some := nullFree_flatten tree e.1
  cases h : e.2 with
  | null =>
      rw [h] at found
      exact absurd found some
  | _ => rfl

/-- A path in a tree spells a key, the blank one apart. -/
def Spells (path : List String) (key : String) : Prop :=
  key ≠ "" ∧ Key.normalize (keyAlong "" path) = key

/-- A tree gives a key the value of a leaf whose path spells it, if there is one. -/
theorem given_flatten (tree : List (String × Value)) (key : String) :
    match given (flatten tree).entries key with
    | some value => ∃ path, (path, value) ∈ entriesLeaves tree ∧ Spells path key
    | none => ∀ leaf ∈ entriesLeaves tree, ¬Spells leaf.1 key := by
  cases found : given (flatten tree).entries key with
  | some value =>
      obtain ⟨e, here, rfl⟩ := Option.map_eq_some_iff.mp found
      have listed := List.mem_reverse.mp (List.mem_of_find?_eq_some here)
      have spelled : key ≠ "" ∧ Key.normalize e.1 = key := by simpa using List.find?_some here
      have entry := (Entries.find?_eq_some (flatten tree).ascending).mpr listed
      obtain ⟨path, member, same⟩ := mem_entriesLeaves_of_get? entry
      exact ⟨path, member, spelled.1, same ▸ spelled.2⟩
  | none =>
      rintro leaf member spelled
      have present := get?_flatten_isSome.mpr ⟨leaf, member, rfl⟩
      obtain ⟨value, entry⟩ := Option.isSome_iff_exists.mp present
      have listed := (Entries.find?_eq_some (flatten tree).ascending).mp entry
      have nowhere := List.find?_eq_none.mp (Option.map_eq_none_iff.mp found) _
        (List.mem_reverse.mpr listed)
      exact nowhere (decide_eq_true spelled)

end Settings

namespace Service

open Key Settings

variable {s : Service} {files : Files} {values : Dict Value}
  {entries tree : List (String × Value)}

/-! ## Filling in -/

/-- Where there is no value yet, the first that is seeded stays. -/
theorem get?_seed (normal : ∀ e ∈ entries, IsNormal e.1) (full : ∀ e ∈ entries, e.2.isNull = false)
    (key : String) : (s.seed entries).after.settings.values.get? key =
      (s.settings.values.get? key).or (Entries.find? key entries) := by
  induction entries generalizing s with
  | nil => exact Option.or_none.symm
  | cons e rest ih =>
      obtain ⟨k, value⟩ := e
      obtain ⟨⟨some, same⟩, normal⟩ := List.forall_mem_cons.mp normal
      obtain ⟨first, full⟩ := List.forall_mem_cons.mp full
      rw [seed, after_andThen, ih normal full, Entries.find?]
      split
      · next present =>
          rw [Settings.contains, same, Dict.contains] at present
          split
          · next here =>
              obtain ⟨v, found⟩ := Option.isSome_iff_exists.mp present
              rw [after_announce, here, found, Option.some_or, Option.some_or]
          · rw [after_announce]
      · next absent =>
          rw [Settings.contains, same, Dict.contains, Option.not_isSome_iff_eq_none] at absent
          rw [settings_set, get?_set, same, first]
          by_cases here : key = k
          · rw [if_pos ⟨here, here ▸ some⟩, if_pos here, here, absent]
            rfl
          · rw [if_neg fun both => here both.1, if_neg here]

theorem normal_defaults : ∀ e ∈ defaults, IsNormal e.1 := by
  decide +kernel

theorem full_defaults : ∀ e ∈ defaults, e.2.isNull = false := by
  decide

/-- Filling in defaults touches nothing that is there. -/
theorem get?_fillDefaults (s : Service) (key : String) :
    s.fillDefaults.after.settings.values.get? key =
      (s.settings.values.get? key).or (Entries.find? key defaults) := by
  rw [fillDefaults]
  exact get?_seed normal_defaults full_defaults key

theorem seed_of_present (present : ∀ e ∈ entries, s.settings.contains e.1 = true) :
    s.seed entries = s.announce [] := by
  induction entries with
  | nil => rfl
  | cons e rest ih =>
      obtain ⟨first, later⟩ := List.forall_mem_cons.mp present
      rw [seed, if_pos first]
      exact ih later

/-- Filling in a second time does nothing and announces nothing. -/
theorem fillDefaults_again (s : Service) :
    s.fillDefaults.after.fillDefaults = s.fillDefaults.after.announce [] := by
  refine seed_of_present fun e listed => ?_
  have there : (Entries.find? e.1 defaults).isSome := by
    revert e
    decide
  rw [Settings.contains, (normal_defaults e listed).2, Dict.contains, get?_fillDefaults,
    Option.isSome_or, there, Bool.or_true]

/-- Going back to the defaults leaves these and nothing else. -/
theorem reset_eq (s : Service) : s.reset.after.settings.values = Dict.ofList defaults := by
  refine Dict.ext_get? fun key => ?_
  have cleared : s.clear.after.settings.values.get? key = none := by
    rw [settings_clear, get?_clear]
  have reversed : (Dict.ofList defaults).get? key = Entries.find? key defaults.reverse :=
    Entries.find?_ofList defaults key
  rw [reset, after_andThen, after_announce, after_andThen, get?_fillDefaults, cleared,
    Option.none_or, reversed]
  simp only [defaults, List.reverse_cons, List.reverse_nil, List.nil_append, List.cons_append,
    Entries.find?]
  grind

/-! ## Filling in and loading -/

theorem eq_of_same {a b : Service} (settings : a.settings.values = b.settings.values)
    (file : a.file = b.file) (running : a.running = b.running) : a = b := by
  obtain ⟨⟨_⟩, _, _⟩ := a
  obtain ⟨⟨_⟩, _, _⟩ := b
  simp_all

theorem file_seed (entries : List (String × Value)) (s : Service) :
    (s.seed entries).after.file = s.file := by
  induction entries generalizing s with
  | nil => rfl
  | cons e rest ih =>
      rw [seed, after_andThen, ih]
      split
      · rw [after_announce]
      · rw [Service.set, after_andThen, after_announce, adopt]

theorem file_fillDefaults (s : Service) : s.fillDefaults.after.file = s.file :=
  file_seed defaults s

theorem running_fillDefaults (s : Service) : s.fillDefaults.after.running = s.running :=
  (steady_seed defaults).1

/-- What the file of a service says; if there is none, nothing. -/
inductive Tells (s : Service) (files : Files) : List (String × Value) → Prop where
  | unnamed (none : s.file = none) : Tells s files []
  | missing {path : String} (file : s.file = some path)
      (missing : files.leadsSomewhere path = false) : Tells s files []
  | document {path text : String} {format : SettingsFormat} {tree : List (String × Value)}
      (file : s.file = some path) (named : SettingsFormat.ofPath path = .ok format)
      (there : files.readText path = .ok text) (denotes : format.decode? text = some tree) :
      Tells s files tree

theorem tells_of_filed (read : s.filed files = .ok values) :
    ∃ tree, s.Tells files tree ∧ values = flatten tree := by
  unfold filed at read
  cases file : s.file with
  | none =>
      rw [file] at read
      cases read
      exact ⟨[], .unnamed file, rfl⟩
  | some path =>
      simp only [file] at read
      split at read
      · simp only [Settings.read, bind, Except.bind] at read
        split at read
        · cases read
        · next format named =>
            split at read
            · cases read
            · next text there =>
                split at read
                · cases read
                · next tree denotes =>
                    cases read
                    exact ⟨tree, .document file named there denotes, rfl⟩
      · next missing =>
          cases read
          exact ⟨[], .missing file (by simpa using missing), rfl⟩

/-- The service after it has loaded. -/
def taking (s : Service) (values : Dict Value) : Service :=
  { s with settings := (s.settings.extend values).after }

theorem load_eq_ok {c : Change} : s.load files = .ok c ↔ ∃ values, s.filed files = .ok values ∧
    c = (s.adopt (s.settings.extend values)).andThen fun s => s.announce [.loaded] := by
  rw [load_eq]
  cases s.filed files with
  | error e => simp [Except.map]
  | ok values => simp [Except.map, eq_comm]

theorem file_taking (s : Service) (values : Dict Value) : (s.taking values).file = s.file := rfl

theorem running_taking (s : Service) (values : Dict Value) :
    (s.taking values).running = s.running := rfl

theorem get?_taking (tree : List (String × Value)) (s : Service) (key : String) :
    (s.taking (flatten tree)).settings.values.get? key =
      (given (flatten tree).entries key).or (s.settings.values.get? key) :=
  get?_setAll_given isNull_of_mem_flatten key

theorem fillDefaults_taking (tree : List (String × Value)) (s : Service) :
    s.fillDefaults.after.taking (flatten tree) = (s.taking (flatten tree)).fillDefaults.after := by
  refine eq_of_same (Dict.ext_get? fun key => ?_) ?_ ?_
  · rw [get?_taking, get?_fillDefaults, get?_fillDefaults, get?_taking, Option.or_assoc]
  · rw [file_taking, file_fillDefaults, file_fillDefaults, file_taking]
  · rw [running_taking, running_fillDefaults, running_fillDefaults, running_taking]

/-- A service that can load its file can do so before the defaults are filled in or afterwards, with
    the same outcome: a key has what the file says about it, or what it had, or its default. Filling in
    overwrites nothing, and a second time it does nothing and announces nothing; and going back to the
    defaults leaves these and nothing else. -/
theorem load_fill_comm (s : Service) :
    (∀ files loaded, s.load files = .ok loaded → ∃ tree filled, s.Tells files tree ∧
      s.fillDefaults.after.load files = .ok filled ∧
      filled.after = loaded.after.fillDefaults.after ∧
      ∀ key,
        (match given (flatten tree).entries key with
          | some value => ∃ path, (path, value) ∈ Value.entriesLeaves tree ∧ Spells path key
          | none => ∀ leaf ∈ Value.entriesLeaves tree, ¬Spells leaf.1 key) ∧
        filled.after.settings.values.get? key =
          ((given (flatten tree).entries key).or (s.settings.values.get? key)).or
            (Entries.find? key defaults)) ∧
    (∀ key, s.fillDefaults.after.settings.values.get? key =
      (s.settings.values.get? key).or (Entries.find? key defaults)) ∧
    s.fillDefaults.after.fillDefaults = s.fillDefaults.after.announce [] ∧
    s.reset.after.settings.values = Dict.ofList defaults := by
  refine ⟨fun files loaded here => ?_, get?_fillDefaults s, fillDefaults_again s, reset_eq s⟩
  obtain ⟨values, read, rfl⟩ := load_eq_ok.mp here
  obtain ⟨tree, tells, rfl⟩ := tells_of_filed read
  have again : s.fillDefaults.after.filed files = .ok (flatten tree) := by
    rw [filed, file_fillDefaults]
    exact read
  refine ⟨tree, _, tells, load_eq_ok.mpr ⟨_, again, rfl⟩, fillDefaults_taking tree s, fun key => ?_⟩
  refine ⟨given_flatten tree key, ?_⟩
  exact (get?_taking tree _ key).trans (by rw [get?_fillDefaults, Option.or_assoc])

/-- A file that gives a width twice, by two paths that spell one key. -/
def widths : String := "\x7b\"window\": \x7b\"width\": 5\x7d, \"window.width\": 7\x7d"

/-- The last of the two counts, whether the defaults were filled in before or not. -/
theorem load_fill_of_respelled_key :
    let s := ((new (some "s.json")).set "application.theme" (.string "dark")).after
    ∃ loaded filled, s.load (fileOf widths) = .ok loaded ∧
      s.fillDefaults.after.load (fileOf widths) = .ok filled ∧
      filled.after = loaded.after.fillDefaults.after ∧
      ["window/width", "application/theme", "window/height"].map filled.after.get =
        [.integer 7, .string "dark", .integer 700] := by
  intro s
  have read : (s.load (fileOf widths)).isOk = true := by decide +kernel
  have values : (s.fillDefaults.after.load (fileOf widths)).toOption.map (fun c =>
      ["window/width", "application/theme", "window/height"].map c.after.get) =
        some [.integer 7, .string "dark", .integer 700] := by decide +kernel
  cases here : s.load (fileOf widths) with
  | error e =>
      rw [here] at read
      cases read
  | ok loaded =>
      obtain ⟨tree, filled, -, there, same, -⟩ := (load_fill_comm s).1 (fileOf widths) loaded here
      rw [there] at values
      exact ⟨loaded, filled, rfl, there, same, Option.some.inj values⟩

end Service

end Mvc
