import Mvc.Proofs.Addressing
import Mvc.Service

/-! # Following the configuration by its announcements

Whoever follows a service has a copy of its settings and enters each announced change: the empty
key without a value clears the copy, a key without a value is taken out, and any other key gets its
value. Writes are announced even where the settings refuse them, which they do for keys that are
normalized to the empty one. So the copy is the same as the settings after each write just as long
as every write under such a key leaves settings behind that the announcement happens to describe.
-/

namespace Mvc

namespace Service

open Key

variable {s : Service}

/-- Enter an announcement into a copy of the settings. -/
def replay (copy : Dict Value) : ServiceEvent → Dict Value
  | .changed key value =>
    if value.isNull then (if key = "" then .empty else copy.erase key) else copy.insert key value
  | _ => copy

/-- A single write. -/
inductive Write where
  | set (key : String) (value : Value)
  | remove (key : String)
  | clear

/-- What a write does. -/
def Write.perform (s : Service) : Write → Change
  | set key value => s.set key value
  | remove key => s.remove key
  | clear => s.clear

/-- Write one after another. -/
def writeAll (s : Service) : List Write → Change
  | [] => s.announce []
  | write :: rest => (write.perform s).andThen fun s => s.writeAll rest

/-- What may be asked of a service. -/
inductive Request where
  | fill
  | write (write : Write)
  | reset

/-- What a request does. -/
def Request.perform (s : Service) : Request → Change
  | fill => s.fillDefaults
  | write w => w.perform s
  | reset => s.reset

/-- Perform requests in order. -/
def performAll (s : Service) : List Request → Change
  | [] => s.announce []
  | request :: rest => (request.perform s).andThen fun s => s.performAll rest

/-- The writes that fill in what is missing. -/
def missing (s : Service) : List (String × Value) → List Write
  | [] => []
  | (key, value) :: rest =>
    if s.settings.contains key then s.missing rest
    else .set key value :: (s.set key value).after.missing rest

/-- The writes that a request makes. -/
def Request.writes (s : Service) : Request → List Write
  | fill => s.missing defaults
  | write w => [w]
  | reset => .clear :: s.clear.after.missing defaults

/-- The writes that requests make. -/
def writesOf (s : Service) : List Request → List Write
  | [] => []
  | request :: rest => request.writes s ++ (request.perform s).after.writesOf rest

/-- After some writes, a copy that followed them is the same as the settings. -/
def Replayed (s : Service) (writes : List Write) : Prop :=
  (s.writeAll writes).events.foldl replay s.settings.values =
    (s.writeAll writes).after.settings.values

/-- What is announced of a write is what the settings are like afterwards: a key that is not blank
    is written, and a blank one is not. -/
def Write.Told (s : Service) : Write → Prop
  | set key value => normalize key = "" →
      if value.isNull then s.settings.values = .empty else s.settings.get? key = some value
  | remove key => normalize key = "" → (s.settings.remove key).after.values = .empty
  | clear => True

/-- The same of all writes that a request makes. -/
def Request.Told (s : Service) : Request → Prop
  | write w => w.Told s
  | _ => True

/-! ## Requests are made of writes -/

theorem after_andThen (first : Change) (next : Service → Change) :
    (first.andThen next).after = (next first.after).after := rfl

theorem after_announce (s : Service) (events : List ServiceEvent) :
    (s.announce events).after = s := rfl

theorem events_announce (s : Service) (events : List ServiceEvent) :
    (s.announce events).events = events := rfl

theorem events_andThen (first : Change) (next : Service → Change) :
    (first.andThen next).events = first.events ++ (next first.after).events := rfl

/-- Two changes lead to the same service, and to the same copy of its settings. -/
def Alike (a b : Change) : Prop :=
  a.after = b.after ∧ ∀ copy, a.events.foldl replay copy = b.events.foldl replay copy

theorem Alike.trans {a b c : Change} (first : Alike a b) (second : Alike b c) : Alike a c :=
  ⟨first.1.trans second.1, fun copy => (first.2 copy).trans (second.2 copy)⟩

theorem Alike.andThen {a b : Change} {next next' : Service → Change} (first : Alike a b)
    (rest : Alike (next a.after) (next' a.after)) : Alike (a.andThen next) (b.andThen next') := by
  obtain ⟨same, copies⟩ := first
  refine ⟨?_, fun copy => ?_⟩
  · rw [after_andThen, after_andThen, ← same]
    exact rest.1
  · rw [events_andThen, events_andThen, List.foldl_append, List.foldl_append, copies, ← same]
    exact rest.2 _

theorem writeAll_append (s : Service) (a b : List Write) : s.writeAll (a ++ b) =
    (s.writeAll a).andThen fun s => s.writeAll b := by
  induction a generalizing s with
  | nil => rfl
  | cons w rest ih => simp [writeAll, Change.andThen, ih]

theorem writeAll_singleton (s : Service) (w : Write) : s.writeAll [w] = w.perform s := by
  simp [writeAll, Change.andThen, announce]

theorem seed_alike (values : List (String × Value)) (s : Service) :
    Alike (s.seed values) (s.writeAll (s.missing values)) := by
  induction values generalizing s with
  | nil => exact ⟨rfl, fun _ => rfl⟩
  | cons e rest ih =>
      obtain ⟨key, value⟩ := e
      rw [seed, missing]
      split
      · exact ih s
      · exact Alike.andThen ⟨rfl, fun _ => rfl⟩ (ih _)

theorem fillDefaults_alike (s : Service) :
    Alike s.fillDefaults (s.writeAll (s.missing defaults)) := seed_alike defaults s

theorem reset_alike (s : Service) :
    Alike s.reset (s.writeAll (.clear :: s.clear.after.missing defaults)) := by
  have cleared : Alike s.clear (Write.perform s .clear) := ⟨rfl, fun _ => rfl⟩
  have filled : Alike (s.clear.andThen fillDefaults)
      (s.writeAll (.clear :: s.clear.after.missing defaults)) := by
    rw [writeAll]
    exact cleared.andThen (fillDefaults_alike s.clear.after)
  refine Alike.trans ⟨?_, fun copy => ?_⟩ filled
  · rw [reset, after_andThen, after_announce]
  · rw [reset, events_andThen, events_announce, List.foldl_append, List.foldl_cons,
      List.foldl_nil, replay]
    exact fun _ _ h => nomatch h

theorem perform_alike (s : Service) (request : Request) :
    Alike (request.perform s) (s.writeAll (request.writes s)) := by
  cases request with
  | fill => exact fillDefaults_alike s
  | write w =>
      rw [Request.writes, writeAll_singleton]
      exact ⟨rfl, fun _ => rfl⟩
  | reset => exact reset_alike s

theorem performAll_alike (s : Service) (requests : List Request) :
    Alike (s.performAll requests) (s.writeAll (s.writesOf requests)) := by
  induction requests generalizing s with
  | nil => exact ⟨rfl, fun _ => rfl⟩
  | cons request rest ih =>
      rw [writesOf, writeAll_append]
      exact (perform_alike s request).andThen (ih _)

/-! ## What is announced of writes -/

/-- Every write of a list is told, in the state that it is made in. -/
def TellsAll (s : Service) : List Write → Prop
  | [] => True
  | w :: rest => w.Told s ∧ (w.perform s).after.TellsAll rest

theorem tellsAll_append {a b : List Write} :
    s.TellsAll (a ++ b) ↔ s.TellsAll a ∧ (s.writeAll a).after.TellsAll b := by
  induction a generalizing s with
  | nil => simp [TellsAll, writeAll, announce]
  | cons w rest ih => simp only [List.cons_append, TellsAll, ih, writeAll, after_andThen, and_assoc]

theorem replay_adopt (c : Settings.Change) (copy : Dict Value) :
    (s.adopt c).events.foldl replay copy = copy := by
  simp only [adopt]
  induction c.announced generalizing copy with
  | nil => rfl
  | cons key rest ih => exact ih copy

theorem events_set (s : Service) (key : String) (value : Value) (copy : Dict Value) :
    (s.set key value).events.foldl replay copy = replay copy (.changed (normalize key) value) := by
  rw [Service.set, events_andThen, List.foldl_append, replay_adopt, events_announce,
    List.foldl_cons, List.foldl_nil]

theorem events_remove (s : Service) (key : String) (copy : Dict Value) :
    (s.remove key).events.foldl replay copy = replay copy (.changed (normalize key) .null) := by
  rw [Service.remove, events_andThen, List.foldl_append, replay_adopt, events_announce,
    List.foldl_cons, List.foldl_nil]

theorem events_clear (s : Service) (copy : Dict Value) :
    s.clear.events.foldl replay copy = .empty := by
  rw [Service.clear, events_andThen, List.foldl_append, replay_adopt, events_announce]
  rfl

theorem settings_set (s : Service) (key : String) (value : Value) :
    (s.set key value).after.settings = (s.settings.set key value).after := by
  rw [Service.set, after_andThen, after_announce, adopt]

theorem settings_remove (s : Service) (key : String) :
    (s.remove key).after.settings = (s.settings.remove key).after := by
  rw [Service.remove, after_andThen, after_announce, adopt]

theorem settings_clear (s : Service) :
    s.clear.after.settings = s.settings.clear.after := by
  rw [Service.clear, after_andThen, after_announce, adopt]

theorem get?_replay {key : String} (some : key ≠ "") (value : Value) (copy : Dict Value)
    (k : String) : (replay copy (.changed key value)).get? k =
      if k = key then (if value.isNull then none else .some value) else copy.get? k := by
  simp only [replay, some, if_false]
  split
  · exact copy.get?_erase key k
  · exact copy.get?_insert key k value

theorem replay_blank (copy : Dict Value) : replay copy (.changed "" .null) = .empty := rfl

theorem replayed_set (key : String) (value : Value) :
    replay s.settings.values (.changed (normalize key) value) =
      (s.settings.set key value).after.values ↔ (Write.set key value).Told s := by
  by_cases blank : normalize key = ""
  · have refused : (s.settings.set key value).after = s.settings := by
      simp [Settings.set, blank, Settings.unchanged]
    simp only [Write.Told, Settings.get?, refused, blank, replay, if_true, forall_const]
    split
    · exact eq_comm
    · constructor
      · intro same
        have found := congrArg (Dict.get? · "") same
        simpa [Dict.get?_insert] using found.symm
      · intro found
        refine Dict.ext_get? fun k => ?_
        rw [Dict.get?_insert]
        split
        · next here => rw [here, found]
        · rfl
  · refine iff_of_true (Dict.ext_get? fun k => ?_) fun h => absurd h blank
    have same : k = normalize key ∧ k ≠ "" ↔ k = normalize key :=
      ⟨And.left, fun here => ⟨here, here ▸ blank⟩⟩
    rw [get?_replay blank, Settings.get?_set, if_congr same rfl rfl]

theorem replayed_remove (key : String) :
    replay s.settings.values (.changed (normalize key) .null) =
      (s.settings.remove key).after.values ↔ (Write.remove key).Told s := by
  by_cases blank : normalize key = ""
  · simp only [blank, replay_blank, Write.Told, forall_const]
    exact eq_comm
  · refine iff_of_true (Dict.ext_get? fun k => ?_) fun h => absurd h blank
    rw [get?_replay blank, Settings.get?_remove]
    rfl

/-- A copy that was the same as the settings before a write is so after it, just when the write is
    told. -/
theorem replayed_write (w : Write) :
    (w.perform s).events.foldl replay s.settings.values = (w.perform s).after.settings.values ↔
      w.Told s := by
  cases w with
  | set key value =>
      rw [Write.perform, events_set, settings_set]
      exact replayed_set key value
  | remove key =>
      rw [Write.perform, events_remove, settings_remove]
      exact replayed_remove key
  | clear =>
      rw [Write.perform, events_clear, settings_clear]
      exact iff_of_true (Dict.ext_get? fun k => Settings.get?_clear.symm) trivial

theorem replayed_cons {w : Write} {rest : List Write} (told : w.Told s) :
    s.Replayed (w :: rest) ↔ (w.perform s).after.Replayed rest := by
  simp only [Replayed, writeAll, events_andThen, after_andThen, List.foldl_append,
    (replayed_write w).mpr told]

/-- The copy is the same as the settings after each of some writes, just when each is told. -/
theorem replayed_iff_tellsAll (writes : List Write) :
    (∀ done, done <+: writes → s.Replayed done) ↔ s.TellsAll writes := by
  induction writes generalizing s with
  | nil => simp [TellsAll, Replayed, writeAll, announce]
  | cons w rest ih =>
      constructor
      · intro always
        have told : w.Told s := by
          have first := always [w] (by simp)
          rwa [Replayed, writeAll_singleton, replayed_write] at first
        refine ⟨told, ih.mp fun done before => (replayed_cons told).mp (always _ ?_)⟩
        exact (List.cons_prefix_cons).mpr ⟨rfl, before⟩
      · rintro ⟨told, later⟩ done before
        cases done with
        | nil => rfl
        | cons w' done =>
            obtain ⟨rfl, within⟩ := List.cons_prefix_cons.mp before
            exact (replayed_cons told).mpr (ih.mpr later done within)

/-! ## What is announced of requests -/

theorem tellsAll_missing {values : List (String × Value)}
    (named : ∀ e ∈ values, normalize e.1 ≠ "") : s.TellsAll (s.missing values) := by
  induction values generalizing s with
  | nil => trivial
  | cons e rest ih =>
      obtain ⟨key, value⟩ := e
      obtain ⟨first, later⟩ := List.forall_mem_cons.mp named
      rw [missing]
      split
      · exact ih later
      · exact ⟨fun blank => absurd blank first, ih later⟩

theorem normalize_defaults : ∀ e ∈ defaults, normalize e.1 ≠ "" := by
  decide +kernel

theorem tellsAll_defaults (s : Service) : s.TellsAll (s.missing defaults) :=
  tellsAll_missing normalize_defaults

theorem tellsAll_writes (request : Request) : s.TellsAll (request.writes s) ↔ request.Told s := by
  cases request with
  | fill => exact iff_of_true (tellsAll_defaults s) trivial
  | write w => simp [Request.writes, TellsAll, Request.Told]
  | reset =>
      rw [Request.writes, TellsAll]
      exact iff_of_true ⟨trivial, tellsAll_defaults s.clear.after⟩ trivial

theorem tellsAll_writesOf (requests : List Request) : s.TellsAll (s.writesOf requests) ↔
    ∀ before request, before ++ [request] <+: requests →
      request.Told (s.performAll before).after := by
  induction requests generalizing s with
  | nil => simp [writesOf, TellsAll]
  | cons first rest ih =>
      rw [writesOf, tellsAll_append, tellsAll_writes, ← (perform_alike s first).1, ih]
      constructor
      · rintro ⟨told, later⟩ before request upTo
        cases before with
        | nil =>
            obtain ⟨rfl, -⟩ := List.cons_prefix_cons.mp upTo
            exact told
        | cons first' before =>
            obtain ⟨rfl, within⟩ := List.cons_prefix_cons.mp upTo
            exact later before request within
      · intro all
        refine ⟨all [] first (by simp), fun before request upTo => ?_⟩
        exact all (first :: before) request (List.cons_prefix_cons.mpr ⟨rfl, upTo⟩)

/-- Whatever is asked of a service: it does what a list of writes does, and is announced like it;
    and somebody who started from what the settings held, and entered all that was announced, had
    what the settings held after every single write, just when each request was told. -/
theorem replayed_iff_told (s : Service) (requests : List Request) :
    (s.performAll requests).after = (s.writeAll (s.writesOf requests)).after ∧
    (∀ copy, (s.performAll requests).events.foldl replay copy =
      (s.writeAll (s.writesOf requests)).events.foldl replay copy) ∧
    ((∀ done, done <+: s.writesOf requests → s.Replayed done) ↔
      ∀ before request, before ++ [request] <+: requests →
        request.Told (s.performAll before).after) := by
  obtain ⟨same, copies⟩ := performAll_alike s requests
  exact ⟨same, copies, (replayed_iff_tellsAll _).trans (tellsAll_writesOf requests)⟩

/-- Under a key of separators only nothing is removed, and it is announced that all is gone. -/
theorem not_replayed_of_blank_key :
    let requests : List Request := [.write (.set "a" (.integer 1)), .write (.set ".." .null)]
    let change := (new none).performAll requests
    change.after.settings.values.entries = [("a", .integer 1)] ∧
      (change.events.foldl replay (new none).settings.values).entries = [] ∧
      ¬∀ done, done <+: (new none).writesOf requests → (new none).Replayed done := by
  refine ⟨by decide +kernel, by decide +kernel, fun always => ?_⟩
  have last := always _ (List.prefix_refl _)
  have apart : (((new none).writeAll [.set "a" (.integer 1), .set ".." .null]).events.foldl replay
      (new none).settings.values).entries ≠ ((new none).writeAll [.set "a" (.integer 1),
        .set ".." .null]).after.settings.values.entries := by
    decide +kernel
  exact apart (congrArg Dict.entries last)

end Service

end Mvc
