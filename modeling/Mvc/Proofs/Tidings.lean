import Mvc.Proofs.Addressing

/-! # What a listener of settings hears

A listener is called with a key once the entry has changed, and may read the settings and change
them while it is called. Here the operations are told step by step, with each call at its moment:
an operation that leaves the settings as they were calls nobody, and each other one calls once for
each entry that it alters.
-/

namespace Mvc

namespace Settings

open Key

variable {s : Settings} {key k : String} {value : Value}

theorem ext_get? {s s' : Settings} (same : ∀ k, s.values.get? k = s'.values.get? k) : s = s' := by
  obtain ⟨values⟩ := s
  obtain ⟨values'⟩ := s'
  exact congrArg Settings.mk (Dict.ext_get? same)

instance : DecidableEq Settings := fun s s' =>
  decidable_of_iff (s.values.entries = s'.values.entries) <| by
    refine ⟨fun same => ext_get? fun k => ?_, fun same => same ▸ rfl⟩
    rw [Dict.get?, Dict.get?, same]

/-! ## Operations and the calls that they make -/

/-- Settings that somebody listens to. -/
structure Followed where
  settings : Settings
  /-- The keys announced so far, each with the settings as they could be read at that moment. -/
  told : List (String × Settings)

/-- Something done with settings that somebody listens to. -/
abbrev Telling := StateM Followed

namespace Telling

/-- Put other settings in place. -/
def store (s : Settings) : Telling Unit := modify fun f => { f with settings := s }

section

-- What the listener does when it hears a key.
variable (listener : String → Telling Unit)

/-- Announce a key. -/
def announce (key : String) : Telling Unit := do
  modify fun f => { f with told := f.told ++ [(key, f.settings)] }
  listener key

/-- Announce a key if its entry changed, and say whether it did. -/
def conclude (key : String) (changed : Bool) : Telling Bool := do
  if changed then
    announce listener key
  return changed

/-- Store a value under a key, and say whether anything changed. -/
def set (key : String) (value : Value) : Telling Bool := do
  let key := normalize key
  if key.isEmpty then
    return false
  let s := (← get).settings
  let changed ←
    if value.isNull then do
      store ⟨s.values.erase key⟩
      pure (s.values.contains key)
    else if s.values.get? key == some value then
      pure false
    else do
      store ⟨s.values.insert key value⟩
      pure true
  conclude listener key changed

/-- Store values in the order of their keys. -/
def extend (values : Dict Value) : Telling Unit :=
  values.entries.forM fun e => discard (set listener e.1 e.2)

/-- Remove the entry under a key, and hand it over. -/
def remove (key : String) : Telling (Option Value) := do
  let key := normalize key
  let s := (← get).settings
  store ⟨s.values.erase key⟩
  let removed := s.values.get? key
  discard (conclude listener key removed.isSome)
  return removed

/-- Remove all entries. -/
def clear : Telling Unit := do
  let s := (← get).settings
  store empty
  discard (conclude listener "" (!s.values.isEmpty))

end

end Telling

/-- A listener that does nothing but listen. -/
def silent (_ : String) : Telling Unit := pure ()

/-- What is left once a listener has heard a key, the settings being those just put in place. -/
def Followed.hear (f : Followed) (listener : String → Telling Unit) (key : String) (s : Settings) :
    Followed :=
  (listener key ⟨s, f.told ++ [(key, s)]⟩).2

/-- A step either leaves the settings as they were and is not heard of, or it alters the entry under
    one key and no other, and is heard of once, by that key, with the new settings to be read. -/
inductive Exactly (listener : String → Telling Unit) (key : String) (f : Followed)
    (change : Change) : Bool → Followed → Prop where
  | idle (same : change = f.settings.unchanged) : Exactly listener key f change false f
  | altered (announced : change.announced = [key])
      (here : change.after.values.get? key ≠ f.settings.values.get? key)
      (elsewhere : ∀ k, k ≠ key → change.after.values.get? k = f.settings.values.get? k) :
      Exactly listener key f change true (f.hear listener key change.after)

/-- Entries are stored one after another, and each is announced before the next is stored. -/
inductive OneByOne (listener : String → Telling Unit) :
    List (String × Value) → Followed → Followed → Prop where
  | done (f : Followed) : OneByOne listener [] f f
  | step {e : String × Value} {rest : List (String × Value)} {f f₁ f₂ : Followed} {changed : Bool}
      (first : Exactly listener (normalize e.1) f (f.settings.set e.1 e.2) changed f₁)
      (others : OneByOne listener rest f₁ f₂) : OneByOne listener (e :: rest) f f₂

/-! ## Single steps -/

section

variable {listener : String → Telling Unit} {f f' : Followed} {change : Change} {changed : Bool}

theorem Telling.get_bind {α : Type} (next : Followed → Telling α) :
    (get >>= next) f = next f f := rfl

theorem Telling.store_bind {α : Type} (next : Unit → Telling α) :
    (store s >>= next) f = next () { f with settings := s } := rfl

theorem Telling.conclude_eq (changed : Bool) : Telling.conclude listener key changed f =
    (changed, if changed then f.hear listener key f.settings else f) := by
  cases changed <;> rfl

theorem Telling.discard_conclude_bind {α : Type} (changed : Bool) (next : Unit → Telling α) :
    (discard (Telling.conclude listener key changed) >>= next) f =
      next () (if changed then f.hear listener key f.settings else f) := by
  cases changed <;> rfl

theorem Telling.forM_cons {α : Type} (tell : α → Telling Bool) (e : α) (rest : List α) :
    (((e :: rest).forM fun e => discard (tell e) : Telling Unit) f).2 =
      ((rest.forM fun e => discard (tell e) : Telling Unit) (tell e f).2).2 := rfl

theorem Exactly.changed_iff (exact : Exactly listener key f change changed f') :
    changed = true ↔ change.after ≠ f.settings := by
  cases exact with
  | idle same => simp [same, unchanged]
  | altered _ here _ => exact ⟨fun _ same => here (by rw [same]), fun _ => rfl⟩

theorem erase_of_none (absent : s.values.get? key = none) : ⟨s.values.erase key⟩ = s := by
  refine ext_get? fun k => ?_
  rw [Dict.get?_erase]
  split
  · next here => rw [here, absent]
  · rfl

theorem exactly_erase (key : String) :
    Exactly listener key f
      (if f.settings.values.contains key then ⟨⟨f.settings.values.erase key⟩, [key]⟩
        else f.settings.unchanged)
      (f.settings.values.contains key)
      (if f.settings.values.contains key then f.hear listener key ⟨f.settings.values.erase key⟩
        else { f with settings := ⟨f.settings.values.erase key⟩ }) := by
  rw [Dict.contains]
  cases found : f.settings.values.get? key with
  | none =>
      rw [erase_of_none found]
      exact .idle rfl
  | some value =>
      rw [Option.isSome_some, if_pos rfl, if_pos rfl]
      refine .altered rfl ?_ fun k apart => ?_
      · rw [Dict.get?_erase, if_pos rfl, found]
        exact (Option.some_ne_none value).symm
      · rw [Dict.get?_erase, if_neg apart]

theorem exactly_remove (key : String) : (Telling.remove listener key f).1 = f.settings.get? key ∧
    Exactly listener (normalize key) f (f.settings.remove key)
      (f.settings.get? key).isSome (Telling.remove listener key f).2 := by
  rw [Telling.remove, Telling.get_bind, Telling.store_bind, Telling.discard_conclude_bind]
  exact ⟨rfl, exactly_erase (normalize key)⟩

theorem exactly_set (key : String) (value : Value) :
    Exactly listener (normalize key) f (f.settings.set key value)
      (Telling.set listener key value f).1 (Telling.set listener key value f).2 := by
  rw [Telling.set, Settings.set]
  split
  · exact .idle rfl
  · rw [Telling.get_bind]
    split
    · simp only [Telling.store_bind, pure_bind, Telling.conclude_eq, Settings.remove,
        normalize_normalize]
      exact exactly_erase (normalize key)
    · split
      · simp only [pure_bind, Telling.conclude_eq]
        exact .idle rfl
      · next other =>
          simp only [Telling.store_bind, pure_bind, Telling.conclude_eq, if_true]
          refine .altered rfl ?_ fun k apart => ?_
          · rw [Dict.get?_insert, if_pos rfl]
            exact fun same => other (beq_iff_eq.mpr same.symm)
          · rw [Dict.get?_insert, if_neg apart]

theorem isEmpty_iff : s.values.isEmpty = true ↔ s = empty := by
  refine ⟨fun none => ext_get? fun k => ?_, fun none => none ▸ rfl⟩
  rw [Dict.get?_of_isEmpty none]
  exact (Dict.get?_empty k).symm

theorem clear_of_empty (none : f.settings = empty) : (Telling.clear listener f).2 = f := by
  obtain ⟨settings, told⟩ := f
  subst none
  rfl

theorem clear_of_nonempty (some : f.settings ≠ empty) :
    f.settings.clear = ⟨empty, [""]⟩ ∧
      (Telling.clear listener f).2 = f.hear listener "" empty := by
  have some : f.settings.values.isEmpty = false := by rwa [← Bool.not_eq_true, isEmpty_iff]
  rw [Telling.clear, Telling.get_bind, Telling.store_bind, Settings.clear, some]
  exact ⟨rfl, rfl⟩

/-! ## Several entries -/

theorem oneByOne_forM (entries : List (String × Value)) : OneByOne listener entries f
    ((entries.forM fun e => discard (Telling.set listener e.1 e.2) : Telling Unit) f).2 := by
  induction entries generalizing f with
  | nil => exact .done f
  | cons e rest ih =>
      rw [Telling.forM_cons (fun e => Telling.set listener e.1 e.2) e rest]
      exact .step (exactly_set e.1 e.2) ih

theorem Exactly.eq_of_silent (exact : Exactly silent key f change changed f') :
    f' = ⟨change.after, f.told ++ change.announced.map fun k => (k, change.after)⟩ := by
  cases exact with
  | idle same => simp [same, unchanged]
  | altered announced =>
      rw [announced]
      rfl

theorem Exactly.elsewhere (exact : Exactly listener key f change changed f') (apart : k ≠ key) :
    change.after.values.get? k = f.settings.values.get? k := by
  cases exact with
  | idle same => rw [same, unchanged]
  | altered _ _ elsewhere => exact elsewhere k apart

/-- While nobody interferes, the settings and the keys announced are those of the entries stored in
    a row, and only what the entries name is touched. -/
theorem OneByOne.of_silent {entries : List (String × Value)}
    (steps : OneByOne silent entries f f') :
    f'.settings = (f.settings.setAll entries).after ∧
      (∃ heard, f'.told = f.told ++ heard ∧
        heard.map (·.1) = (f.settings.setAll entries).announced) ∧
      ∀ k, (∀ e ∈ entries, k ≠ normalize e.1) →
        f'.settings.values.get? k = f.settings.values.get? k := by
  generalize same : silent = listener at steps
  induction steps with
  | done f => exact ⟨rfl, ⟨[], by simp [setAll, unchanged]⟩, fun _ _ => rfl⟩
  | @step e rest f f₁ f₂ changed first _ ih =>
      subst same
      obtain ⟨settings, ⟨heard, told, keys⟩, elsewhere⟩ := ih
      obtain rfl := first.eq_of_silent
      dsimp only at settings told keys elsewhere
      rw [setAll]
      refine ⟨settings, ⟨_, by rw [told, List.append_assoc], ?_⟩, fun k apart => ?_⟩
      · simp [keys, Function.comp_def]
      · obtain ⟨here, later⟩ := List.forall_mem_cons.mp apart
        exact (elsewhere k later).trans (first.elsewhere here)

end

/-! ## Announcements are exact -/

/-- Whoever listens, and whatever has happened so far, each operation announces what it changes, and
    nothing else. -/
structure Announces (listener : String → Telling Unit) (f : Followed) : Prop where
  /-- A write is heard of once if it alters its entry, and only then says that it did. -/
  set : ∀ key value,
    Exactly listener (normalize key) f (f.settings.set key value)
      (Telling.set listener key value f).1 (Telling.set listener key value f).2 ∧
    ((Telling.set listener key value f).1 = true ↔
      (f.settings.set key value).after ≠ f.settings)
  /-- What a write makes of its entry: `null` takes it away, and no value has the empty key. -/
  written : ∀ key value k, (f.settings.set key value).after.values.get? k =
    if k = normalize key ∧ k ≠ "" then (if value.isNull then none else some value)
    else f.settings.values.get? k
  /-- A removal is heard of once if there was an entry, and hands over what it held. -/
  remove : ∀ key, (Telling.remove listener key f).1 = f.settings.get? key ∧
    Exactly listener (normalize key) f (f.settings.remove key) (f.settings.get? key).isSome
      (Telling.remove listener key f).2 ∧
    (f.settings.remove key).after.values.get? (normalize key) = none
  /-- Clearing is heard of once, by the empty key, if there was any entry. -/
  clear : f.settings = empty ∧ f.settings.clear = f.settings.unchanged ∧
      (Telling.clear listener f).2 = f ∨
    f.settings ≠ empty ∧ f.settings.clear = ⟨empty, [""]⟩ ∧
      (Telling.clear listener f).2 = f.hear listener "" empty
  /-- Storing several entries is storing each of them, in the order of their keys. -/
  extend : ∀ values : Dict Value, Ascending values.entries ∧
    OneByOne listener values.entries f (Telling.extend listener values f).2
  /-- While the listener only listens, it hears the keys of the program's own account of this, and
      no entry changes that is not named. -/
  undisturbed : ∀ values : Dict Value,
    (Telling.extend silent values f).2.settings = (f.settings.extend values).after ∧
    (∃ heard, (Telling.extend silent values f).2.told = f.told ++ heard ∧
      heard.map (·.1) = (f.settings.extend values).announced) ∧
    ∀ k, (∀ e ∈ values.entries, k ≠ normalize e.1) →
      (Telling.extend silent values f).2.settings.values.get? k = f.settings.values.get? k

/-- What each operation announces is what it changes: no change goes unheard, nothing is heard of
    that did not change, and the change can be seen when it is heard of. -/
theorem announces_exactly (listener : String → Telling Unit) (f : Followed) :
    Announces listener f where
  set key value := ⟨exactly_set key value, (exactly_set key value).changed_iff⟩
  written key value k := get?_set value
  remove key :=
    ⟨(exactly_remove key).1, (exactly_remove key).2, by rw [get?_remove, if_pos rfl]⟩
  clear := by
    by_cases none : f.settings = empty
    · exact .inl ⟨none, by rw [none]; rfl, clear_of_empty none⟩
    · exact .inr ⟨none, clear_of_nonempty none⟩
  extend values := ⟨values.ascending, oneByOne_forM values.entries⟩
  undisturbed values := (oneByOne_forM values.entries).of_silent

example : (((Telling.set silent "window.width" (.integer 800) >>= fun _ =>
    Telling.set silent "window/width" (.integer 800) >>= fun _ =>
    Telling.remove silent "window.width" >>= fun _ =>
    Telling.remove silent "window/width") ⟨empty, []⟩).2.told.map (·.1)) =
      ["window/width", "window/width"] := by
  decide +kernel

end Settings

end Mvc
