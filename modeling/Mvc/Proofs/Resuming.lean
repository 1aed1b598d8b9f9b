import Mvc.Proofs.Saving
import Mvc.Proofs.Seeding

/-! # A service that is started again

A service keeps its settings in a file. When it was stopped without a fault, a new service for the
same file starts with each text that the first one had under some key, as long as no key goes below
that key and no map is stored.
-/

namespace Mvc

namespace Value

variable {double : Binary64 → Value} {path : List String} {v w : Value}

theorem mem_leaves_of_isScalar (scalar : v.IsScalar) :
    (path, w) ∈ leaves v ↔ path = [] ∧ w = v ∧ IsLeaf w := by
  cases v <;> simp_all [leaves, IsScalar, IsLeaf]

theorem isScalar_reread (plain : ∀ x, (double x).IsScalar) (scalar : v.IsScalar) :
    (v.reread double).IsScalar := by
  cases v with
  | float x => exact plain x
  | list items => exact scalar.elim
  | map entries => exact scalar.elim
  | _ => trivial

/-- What comes back has the leaves that come back, but for doubles that are lost. -/
theorem mem_leaves_reread (plain : ∀ x, (double x).IsScalar) :
    (path, w) ∈ leaves (v.reread double) ↔
      ∃ u, (path, u) ∈ leaves v ∧ w = u.reread double ∧ IsLeaf w := by
  induction v using recParts generalizing path with
  | scalar v scalar =>
      rw [mem_leaves_of_isScalar (isScalar_reread plain scalar)]
      constructor
      · rintro ⟨rfl, rfl, leaf⟩
        refine ⟨v, (mem_leaves_of_isScalar scalar).mpr ⟨rfl, rfl, ?_⟩, rfl, leaf⟩
        cases v <;> trivial
      · rintro ⟨u, member, rfl, leaf⟩
        obtain ⟨rfl, rfl, -⟩ := (mem_leaves_of_isScalar scalar).mp member
        exact ⟨rfl, rfl, leaf⟩
  | list items =>
      simp only [reread, leaves, List.mem_singleton, Prod.mk.injEq]
      constructor
      · rintro ⟨rfl, rfl⟩
        exact ⟨_, ⟨rfl, rfl⟩, rfl, trivial⟩
      · rintro ⟨_, ⟨rfl, rfl⟩, rfl, -⟩
        exact ⟨rfl, rfl⟩
  | map entries ih =>
      rw [reread, leaves, leaves, mem_entriesLeaves, rereadEntries_eq]
      simp only [mem_entriesLeaves, List.mem_map, Prod.mk.injEq]
      constructor
      · rintro ⟨name, rest, _, rfl, ⟨e, listed, rfl, rfl⟩, member⟩
        obtain ⟨u, there, rfl, leaf⟩ := (ih e listed).mp member
        exact ⟨u, ⟨e.1, rest, e.2, rfl, listed, there⟩, rfl, leaf⟩
      · rintro ⟨u, ⟨name, rest, v, rfl, listed, there⟩, rfl, leaf⟩
        exact ⟨name, rest, _, rfl, ⟨(name, v), listed, rfl, rfl⟩,
          (ih (name, v) listed).mpr ⟨u, there, rfl, leaf⟩⟩

end Value

namespace SettingsFormat

/-- A double comes back as a value without parts. -/
theorem isScalar_double (format : SettingsFormat) (x : Binary64) : (format.double x).IsScalar := by
  cases format with
  | toml =>
      obtain ⟨y, same⟩ := Toml.rereadDouble_float x
      rw [double, same]
      trivial
  | json =>
      rcases Json.rereadDouble_cases x with none | ⟨y, same⟩
      · rw [double, none]
        trivial
      · rw [double, same]
        trivial

end SettingsFormat

namespace Settings

open Key Value

variable {s : Settings} {key : String} {v : Value} {flat : Dict Value}
  {double : Binary64 → Value}

theorem at?_eq_some {names : List String} {u : Value} (flatly : v.asMap? = none)
    (found : at? names v = some u) : names = [] ∧ u = v := by
  cases names with
  | nil => exact ⟨rfl, (Option.some.inj ((at?_nil v).symm.trans found)).symm⟩
  | cons name rest => cases v <;> first | cases found | cases flatly

section Reread

variable (normal : ∀ k ∈ flat.keys, IsNormal k) (plain : ∀ x, (double x).IsScalar)
  (ordered : ∀ e ∈ flat.entries, e.2.Ordered) (flatly : ∀ e ∈ flat.entries, e.2.asMap? = none)
include normal plain ordered flatly

/-- Without maps among the values, whatever comes back under a key comes from its entry. -/
theorem origin_reread {e : String × Value}
    (listed : e ∈ (flatten (rereadEntries double (nest flat))).entries) :
    ∃ u, (e.1, u) ∈ flat.entries ∧ e.2 = u.reread double := by
  have found := (Entries.find?_eq_some (flatten _).ascending).mpr listed
  obtain ⟨path, member, spelled⟩ := mem_entriesLeaves_of_get? found
  obtain ⟨u, there, same, -⟩ := (mem_leaves_reread (v := .map (nest flat)) plain).mp member
  obtain ⟨e', listed', more, held, -, -, eq⟩ := origin_of_get? normal ordered there
  obtain ⟨rfl, rfl⟩ := at?_eq_some (flatly e' listed') held
  rw [spelled, keyAlong_nil] at eq
  exact ⟨e'.2, eq ▸ listed', same⟩

/-- And each entry whose key no other one extends comes back. -/
theorem get?_reread (listed : (key, v) ∈ flat.entries) (leaf : IsLeaf (v.reread double))
    (outermost : ∀ k ∈ flat.keys, ¬IsBelow k key) :
    (flatten (rereadEntries double (nest flat))).get? key = some (v.reread double) := by
  have free : ∀ e ∈ flat.entries, ¬Covers e.1 e.2 key := by
    rintro e member ⟨names, w, some, found, -⟩
    exact some (at?_eq_some (flatly e member) found).1
  have leaf' : IsLeaf v := by
    cases v with
    | null => exact leaf
    | map entries => exact leaf
    | _ => trivial
  have spelled := keyAlong_path (normal key (List.mem_map_of_mem listed))
  obtain ⟨here, -⟩ := sole_leaf normal ordered listed leaf' outermost free
  have member := (mem_leaves_reread (v := .map (nest flat)) plain).mpr ⟨v, here, rfl, leaf⟩
  have present := get?_flatten_isSome.mpr ⟨_, member, spelled⟩
  obtain ⟨w, found⟩ := Option.isSome_iff_exists.mp present
  obtain ⟨u, there, same⟩ := origin_reread normal plain ordered flatly
    ((Entries.find?_eq_some (flatten _).ascending).mp found)
  have one := (Entries.find?_eq_some flat.ascending).mpr there
  rw [(Entries.find?_eq_some flat.ascending).mpr listed] at one
  cases one
  exact found.trans (congrArg some same)

/-- All that came back is taken over. -/
theorem get?_extend_reread (listed : (key, v) ∈ flat.entries) (leaf : IsLeaf (v.reread double))
    (outermost : ∀ k ∈ flat.keys, ¬IsBelow k key) :
    (s.extend (flatten (rereadEntries double (nest flat)))).after.values.get? key =
      some (v.reread double) := by
  have back := get?_reread normal plain ordered flatly listed leaf outermost
  have listed' := (Entries.find?_eq_some (flatten _).ascending).mp back
  have mine := normal key (List.mem_map_of_mem listed)
  refine (get?_setAll_given isNull_of_mem_flatten key).trans ?_
  rw [given_of_agree mine listed' fun e member same => ?_]
  · rfl
  · obtain ⟨u, there, -⟩ := origin_reread normal plain ordered flatly member
    rw [(normal e.1 (List.mem_map.mpr ⟨_, there, rfl⟩)).2] at same
    subst same
    have found := (Entries.find?_eq_some (flatten _).ascending).mpr member
    exact Option.some.inj (found.symm.trans back)

end Reread

end Settings

/-! ## From one service to the next -/

namespace Service

variable {s s₁ s' : Service} {path : String} {files files' : Files}

/-- A service goes on with its file, with keys in normal form. -/
structure Continues (s s' : Service) : Prop where
  file : s'.file = s.file
  running : s'.running = s.running
  normal : (∀ key ∈ s.settings.values.keys, Key.IsNormal key) →
    ∀ key ∈ s'.settings.values.keys, Key.IsNormal key

namespace Continues

theorem refl (s : Service) : Continues s s := ⟨rfl, rfl, id⟩

theorem trans (first : Continues s s₁) (second : Continues s₁ s') : Continues s s' :=
  ⟨second.file.trans first.file, second.running.trans first.running, second.normal ∘ first.normal⟩

/-- No entry is made under a key that is not in normal form. -/
theorem adopt {c : Settings.Change} (odd : ∀ k, ¬Key.IsNormal k →
      c.after.values.get? k = none ∨ c.after.values.get? k = s.settings.values.get? k) :
    Continues s (s.adopt c).after := by
  refine ⟨rfl, rfl, fun normal key listed => ?_⟩
  by_contra not
  rw [Dict.mem_keys] at listed
  rcases odd key not with gone | same
  · rw [Service.adopt, gone] at listed
    cases listed
  · rw [Service.adopt, same, ← Dict.mem_keys] at listed
    exact not (normal key listed)

theorem keep (s : Service) (key : String) (value : Value) :
    Continues s (s.adopt (s.settings.set key value)).after :=
  adopt fun _ odd => .inr (Settings.get?_set_of_not_isNormal odd value)

theorem seed (s : Service) (values : List (String × Value)) :
    Continues s (s.seed values).after := by
  induction values generalizing s with
  | nil => exact .refl s
  | cons e rest ih =>
      rw [Service.seed, after_andThen]
      refine .trans ?_ (ih _)
      split
      · exact .refl s
      · exact keep s e.1 e.2

theorem clear (s : Service) : Continues s s.clear.after :=
  adopt fun _ _ => .inl Settings.get?_clear

theorem request (r : Request) (s : Service) : Continues s (r.perform s).after := by
  cases r with
  | fill =>
      rw [Request.perform, fillDefaults]
      exact seed s defaults
  | reset =>
      rw [Request.perform, reset, after_andThen, after_announce, after_andThen, fillDefaults]
      exact (clear s).trans (seed _ defaults)
  | write w =>
      cases w with
      | set key value => exact keep s key value
      | clear => exact clear s
      | remove key =>
          refine adopt fun k _ => ?_
          rw [Settings.get?_remove]
          split
          · exact .inl rfl
          · exact .inr rfl

end Continues

/-- The service runs for a file, with keys in normal form. -/
structure Serves (path : String) (s : Service) : Prop where
  file : s.file = some path
  running : s.running = true
  normal : ∀ key ∈ s.settings.values.keys, Key.IsNormal key

theorem Continues.serves (continues : Continues s s') (serves : Serves path s) : Serves path s' :=
  ⟨continues.file.trans serves.file, continues.running.trans serves.running,
    continues.normal serves.normal⟩

/-- The service of a session before its file is read. -/
def unread (path : String) : Service := (new (some path)).fillDefaults.after

theorem continues_unread (path : String) : Continues (new (some path)) (unread path) :=
  .seed (new (some path)) defaults

theorem normal_unread (path : String) :
    ∀ key ∈ (unread path).settings.values.keys, Key.IsNormal key :=
  (continues_unread path).normal fun _ listed => absurd listed List.not_mem_nil

/-- A service that is started has taken over the values in its file. -/
theorem start_cases (idle : s.running = false) : (∃ e, s.filed files = .error e) ∨
    ∃ values c, s.filed files = .ok values ∧ s.start files = (.ok (), c) ∧
      c.after = { (s.adopt (s.settings.extend values)).after with running := true } := by
  rw [start, idle, if_neg Bool.false_ne_true, load_eq]
  cases filed : s.filed files with
  | error e => exact .inl ⟨e, rfl⟩
  | ok values => exact .inr ⟨values, _, rfl, rfl, rfl⟩

/-- A service that has started runs for its file. -/
theorem serves_of_start {c : Change} (started : (unread path).start files = (.ok (), c)) :
    Serves path c.after := by
  have idle := (continues_unread path).running
  rcases start_cases (s := unread path) idle with
    ⟨e, missing⟩ | ⟨values, c', -, here, same⟩
  · rw [start, idle, load_eq, missing] at started
    cases started
  · rw [here] at started
    cases started
    rw [same]
    have taken : Continues (unread path)
        ((unread path).adopt ((unread path).settings.extend values)).after :=
      .adopt fun _ odd => .inr (Settings.get?_setAll_of_not_isNormal odd _)
    exact ⟨(continues_unread path).file, rfl, taken.normal (normal_unread path)⟩

/-- What a service holds can be kept in its file. -/
structure Keepable (path : String) (s : Service) : Prop where
  /-- The entries of maps within lists ascend, as they do in every value that is set. -/
  sound : ∀ e ∈ s.settings.values.entries, e.2.WellFormed
  flatly : ∀ e ∈ s.settings.values.entries, e.2.asMap? = none
  /-- What is written can be read. -/
  readable : ∀ format text, SettingsFormat.ofPath path = .ok format →
    format.encode? (Settings.nest s.settings.values) = some text → (format.decode? text).isSome

/-- Values without maps can be kept if none is too deep. -/
theorem keepable_of_shallow (sound : ∀ e ∈ s.settings.values.entries, e.2.WellFormed)
    (flatly : ∀ e ∈ s.settings.values.entries, e.2.asMap? = none)
    (shallow : ∀ format, SettingsFormat.ofPath path = .ok format →
      ∀ e ∈ s.settings.values.entries, (Key.path e.1).length + e.2.depth ≤ format.limit) :
    s.Keepable path := by
  refine ⟨sound, flatly, fun format text named encoded => ?_⟩
  have whole : (Value.map (Settings.nest s.settings.values)).WellFormed :=
    Settings.kept_nestAll (fun _ => Value.wellFormed_map) sound
  have denotes := SettingsFormat.decode?_of_encode? whole encoded
  rw [if_pos (Settings.fits_nest (shallow format named))] at denotes
  rw [denotes]
  rfl

/-- What was saved is read. -/
theorem read_of_save (keepable : s.Keepable path)
    (saved : (s.settings.save files path).2 = .ok ()) : ∃ format : SettingsFormat,
      (s.settings.save files path).1.leadsSomewhere path = true ∧
        Settings.read (s.settings.save files path).1 path = .ok
          (Settings.flatten
            (Value.rereadEntries format.double (Settings.nest s.settings.values))) := by
  obtain ⟨format, text, named, encoded, replaced⟩ := Settings.save_cases saved
  have whole : (Value.map (Settings.nest s.settings.values)).WellFormed :=
    Settings.kept_nestAll (fun _ => Value.wellFormed_map) keepable.sound
  have there := Files.readText_replace replaced
  have denotes := SettingsFormat.decode?_of_encode? whole encoded
  have readable := keepable.readable format text named encoded
  split at denotes
  · refine ⟨format, Files.leadsSomewhere_of_readText there, ?_⟩
    simp [Settings.read, named, there, denotes, bind, Except.bind, pure, Except.pure]
  · rw [denotes] at readable
    cases readable

/-- A new service for the file of one that stopped without a fault starts, with all texts that no
    key goes below. -/
theorem start_of_stop {c : Change} (serves : Serves path s)
    (keepable : s.Keepable path) (stopped : s.stop files = (files', .ok (), c)) :
    ∃ c', (unread path).start files' = (.ok (), c') ∧
      ∀ key text, s.settings.values.get? key = some (.string text) →
        (∀ k ∈ s.settings.values.keys, ¬Key.IsBelow k key) →
          c'.after.settings.values.get? key = some (.string text) := by
  obtain ⟨saved, rfl⟩ : (s.settings.save files path).2 = .ok () ∧
      (s.settings.save files path).1 = files' := by
    simp only [stop, if_pos serves.running, save, serves.file] at stopped
    rcases written : s.settings.save files path with ⟨after, e | _⟩
    · rw [written] at stopped
      cases stopped
    · rw [written] at stopped
      cases stopped
      exact ⟨rfl, rfl⟩
  obtain ⟨format, there, back⟩ := read_of_save keepable saved
  have filed : (unread path).filed (s.settings.save files path).1 = .ok
      (Settings.flatten
        (Value.rereadEntries format.double (Settings.nest s.settings.values))) := by
    have file : (unread path).file = some path := (continues_unread path).file
    rw [Service.filed, file]
    simp only [there, if_true, back]
  rcases start_cases (continues_unread path).running with
    ⟨e, missing⟩ | ⟨values, c', found, started, same⟩
  · rw [missing] at filed
    cases filed
  · rw [filed] at found
    cases found
    refine ⟨c', started, fun key text held alone => ?_⟩
    rw [same]
    exact Settings.get?_extend_reread (v := .string text) serves.normal format.isScalar_double
      (fun e listed => Value.ordered_of_wellFormed (keepable.sound e listed)) keepable.flatly
      ((Entries.find?_eq_some s.settings.values.ascending).mp held) trivial alone

end Service

end Mvc
