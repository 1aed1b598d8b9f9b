import Mvc.Signal.Basic

/-! # What the ids of a registry name

A sound registry has every free index once and nothing at it. There, making an entry changes
what its new id names and nothing else, and removing one changes what its old id names and
nothing else. The id of a removed entry is past: no entry will ever have it again.

Signals inherit this. A slot that is connected keeps its id until it is disconnected, so an
id of somebody's own never comes to name somebody else's connection.
-/

namespace Mvc

theorem ConnectionId.eq_of {a b : ConnectionId} (index : a.index = b.index)
    (version : a.version = b.version) : a = b := by
  cases a
  cases b
  cases index
  cases version
  rfl

namespace Registry

variable {κ : Type}

/-- Every free index is listed once and holds nothing, and versions start at one. -/
structure Sound (r : Registry κ) : Prop where
  nodup : r.free.Nodup
  vacant : ∀ i ∈ r.free, ∃ version, r.cells[i]? = some ⟨version, none⟩
  positive : ∀ (i : Nat) (cell : Cell κ), r.cells[i]? = some cell → 1 ≤ cell.version

/-- An id that no later entry will have. -/
def Past (r : Registry κ) (id : ConnectionId) : Prop :=
  id.version = 0 ∨ ∃ cell, r.cells[id.index]? = some cell ∧ id.version < cell.version

theorem sound_empty : (empty : Registry κ).Sound :=
  ⟨List.nodup_nil, by simp [empty], by simp [empty]⟩

theorem get?_eq_some {r : Registry κ} {id : ConnectionId} {e : κ} :
    r.get? id = some e ↔ r.cells[id.index]? = some ⟨id.version, some e⟩ := by
  simp only [get?]
  constructor
  · intro h
    split at h
    case h_1 cell located =>
      split at h
      · next same => rw [located, ← same, ← h]
      · cases h
    case h_2 => cases h
  · intro h
    simp [h]

theorem get?_of_past {r : Registry κ} (sound : r.Sound) {id : ConnectionId} (past : r.Past id) :
    r.get? id = none := by
  cases named : r.get? id with
  | none => rfl
  | some e =>
      have located := get?_eq_some.mp named
      rcases past with zero | ⟨cell, at_index, older⟩
      · have := sound.positive _ _ located
        simp only at this
        omega
      · rw [at_index] at located
        cases located
        simp at older

/-! ## Making an entry -/

/-- A new entry takes an index that held nothing, at the version of that index. -/
theorem insert_cells {r : Registry κ} (sound : r.Sound) (e : κ) :
    (r.cells[(r.insert e).1.index]? = none ∨
      r.cells[(r.insert e).1.index]? = some ⟨(r.insert e).1.version, none⟩) ∧
    1 ≤ (r.insert e).1.version ∧
    ∀ j, (r.insert e).2.cells[j]? =
      if j = (r.insert e).1.index then some ⟨(r.insert e).1.version, some e⟩
      else r.cells[j]? := by
  cases hfree : r.free with
  | nil =>
      simp only [insert, hfree]
      refine ⟨.inl (by simp), Nat.le_refl 1, ?_⟩
      intro j
      by_cases here : j = r.cells.length
      · simp [here]
      · by_cases below : j < r.cells.length
        · rw [if_neg here, List.getElem?_append_left below]
        · rw [if_neg here, List.getElem?_eq_none (by simp; omega),
            List.getElem?_eq_none (by omega)]
  | cons i rest =>
      obtain ⟨version, vacant⟩ := sound.vacant i (by simp [hfree])
      have below : i < r.cells.length := (List.getElem?_eq_some_iff.mp vacant).1
      simp only [insert, hfree, vacant, Option.map_some, Option.getD_some]
      refine ⟨.inr trivial, sound.positive i _ vacant, ?_⟩
      intro j
      by_cases here : j = i
      · simp [here, below]
      · rw [if_neg here, List.getElem?_set_ne (Ne.symm here)]

theorem get?_insert {r : Registry κ} (sound : r.Sound) (e : κ) (id : ConnectionId) :
    (r.insert e).2.get? id = if id = (r.insert e).1 then some e else r.get? id := by
  obtain ⟨before, -, after⟩ := insert_cells sound e
  apply Option.ext
  intro x
  by_cases same : id = (r.insert e).1
  · rw [if_pos same, get?_eq_some, same, after, if_pos rfl]
    simp
  · rw [if_neg same, get?_eq_some, get?_eq_some, after]
    by_cases here : id.index = (r.insert e).1.index
    · have other : (r.insert e).1.version ≠ id.version :=
        fun version => same (ConnectionId.eq_of here version.symm)
      rw [if_pos here, here]
      rcases before with none | vacant
      · simp [none, other]
      · simp [vacant, other]
    · rw [if_neg here]

theorem get?_insert_self {r : Registry κ} (sound : r.Sound) (e : κ) :
    r.get? (r.insert e).1 = none := by
  rcases (insert_cells sound e).1 with none | vacant
  · simp [get?, none]
  · simp [get?, vacant]

theorem not_past_insert {r : Registry κ} (sound : r.Sound) (e : κ) :
    ¬ r.Past (r.insert e).1 := by
  obtain ⟨before, positive, -⟩ := insert_cells sound e
  rintro (zero | ⟨cell, located, older⟩)
  · omega
  · rcases before with none | vacant
    · simp [none] at located
    · rw [vacant] at located
      cases located
      simp at older

theorem Past.insert {r : Registry κ} (sound : r.Sound) (e : κ) {id : ConnectionId}
    (past : r.Past id) : (r.insert e).2.Past id := by
  obtain ⟨before, -, after⟩ := insert_cells sound e
  rcases past with zero | ⟨cell, located, older⟩
  · exact .inl zero
  · refine .inr ?_
    rw [after]
    by_cases here : id.index = (r.insert e).1.index
    · rw [here] at located
      rcases before with none | vacant
      · simp [none] at located
      · rw [vacant] at located
        cases located
        simpa [here] using older
    · exact ⟨cell, by rw [if_neg here, located], older⟩

theorem Sound.insert {r : Registry κ} (sound : r.Sound) (e : κ) : (r.insert e).2.Sound := by
  obtain ⟨-, positive, after⟩ := insert_cells sound e
  have free : (r.insert e).2.free.Nodup ∧
      ∀ i ∈ (r.insert e).2.free, i ∈ r.free ∧ i ≠ (r.insert e).1.index := by
    cases hfree : r.free with
    | nil => simp [Registry.insert, hfree]
    | cons i rest =>
        have nodup := sound.nodup
        rw [hfree, List.nodup_cons] at nodup
        simp only [Registry.insert, hfree]
        refine ⟨nodup.2, ?_⟩
        intro j member
        exact ⟨List.mem_cons_of_mem _ member, fun same => nodup.1 (same ▸ member)⟩
  refine ⟨free.1, ?_, ?_⟩
  · intro i member
    obtain ⟨was_free, other⟩ := free.2 i member
    rw [after, if_neg other]
    exact sound.vacant i was_free
  · intro i cell located
    rw [after] at located
    split at located
    · cases located
      exact positive
    · exact sound.positive i cell located

/-! ## Removing an entry -/

/-- Removing an entry frees its index at the next version. -/
theorem erase_cells {r : Registry κ} {id : ConnectionId} (found : r.contains id = true) (j : Nat) :
    (r.erase id).2.cells[j]? =
      if j = id.index then some ⟨id.version + 1, none⟩ else r.cells[j]? := by
  obtain ⟨e, named⟩ := Option.isSome_iff_exists.mp found
  have below : id.index < r.cells.length :=
    (List.getElem?_eq_some_iff.mp (get?_eq_some.mp named)).1
  simp only [erase, found, if_true]
  by_cases here : j = id.index
  · simp [here, below]
  · rw [if_neg here, List.getElem?_set_ne (Ne.symm here)]

theorem erase_of_not_contains {r : Registry κ} {id : ConnectionId}
    (missing : r.contains id = false) : (r.erase id).2 = r := by
  simp [erase, missing]

theorem get?_erase (r : Registry κ) (id other : ConnectionId) :
    (r.erase id).2.get? other = if other = id then none else r.get? other := by
  cases found : r.contains id with
  | false =>
      rw [erase_of_not_contains found]
      split
      · next same =>
          rw [same]
          simpa [contains] using found
      · rfl
  | true =>
      obtain ⟨e, named⟩ := Option.isSome_iff_exists.mp found
      apply Option.ext
      intro x
      rw [get?_eq_some, erase_cells found]
      by_cases same : other = id
      · simp [same]
      · rw [if_neg same, get?_eq_some]
        by_cases here : other.index = id.index
        · have version : id.version ≠ other.version :=
            fun version => same (ConnectionId.eq_of here version.symm)
          rw [if_pos here, here, get?_eq_some.mp named]
          simp [version]
        · rw [if_neg here]

theorem Past.erase {r : Registry κ} {id : ConnectionId} (past : r.Past id)
    (other : ConnectionId) : (r.erase other).2.Past id := by
  cases found : r.contains other with
  | false => rwa [erase_of_not_contains found]
  | true =>
      rcases past with zero | ⟨cell, located, older⟩
      · exact .inl zero
      · refine .inr ?_
        rw [erase_cells found]
        by_cases here : id.index = other.index
        · obtain ⟨e, named⟩ := Option.isSome_iff_exists.mp found
          rw [here, get?_eq_some.mp named] at located
          cases located
          exact ⟨_, by rw [if_pos here], Nat.lt_succ_of_lt older⟩
        · exact ⟨cell, by rw [if_neg here, located], older⟩

theorem past_erase {r : Registry κ} {id : ConnectionId} (found : r.contains id = true) :
    (r.erase id).2.Past id :=
  .inr ⟨_, by rw [erase_cells found, if_pos rfl], Nat.lt_succ_self _⟩

theorem Sound.erase {r : Registry κ} (sound : r.Sound) (id : ConnectionId) :
    (r.erase id).2.Sound := by
  cases found : r.contains id with
  | false => rwa [erase_of_not_contains found]
  | true =>
      obtain ⟨e, named⟩ := Option.isSome_iff_exists.mp found
      have taken := get?_eq_some.mp named
      have fresh : id.index ∉ r.free := by
        intro member
        obtain ⟨version, vacant⟩ := sound.vacant _ member
        rw [vacant] at taken
        cases taken
      have free : (r.erase id).2.free = id.index :: r.free := by
        simp [Registry.erase, found]
      refine ⟨?_, ?_, ?_⟩
      · rw [free]
        exact List.nodup_cons.mpr ⟨fresh, sound.nodup⟩
      · intro i member
        rw [erase_cells found]
        split
        · exact ⟨_, rfl⟩
        · next other =>
            rw [free] at member
            exact sound.vacant i ((List.mem_cons.mp member).resolve_left other)
      · intro i cell located
        rw [erase_cells found] at located
        split at located
        · cases located
          exact Nat.succ_pos _
        · exact sound.positive i cell located

/-! ## All entries -/

theorem mem_entriesFrom {id : ConnectionId} {e : κ} {cells : List (Cell κ)} {start : Nat} :
    (id, e) ∈ entriesFrom start cells ↔
      start ≤ id.index ∧ cells[id.index - start]? = some ⟨id.version, some e⟩ := by
  induction cells generalizing start with
  | nil => simp [entriesFrom]
  | cons cell rest ih =>
      have step : start + 1 ≤ id.index ∧
          rest[id.index - (start + 1)]? = some ⟨id.version, some e⟩ ↔
          start < id.index ∧
            (cell :: rest)[id.index - start]? = some ⟨id.version, some e⟩ := by
        constructor
        · rintro ⟨later, located⟩
          refine ⟨later, ?_⟩
          rw [show id.index - start = id.index - (start + 1) + 1 by omega]
          exact located
        · rintro ⟨later, located⟩
          refine ⟨later, ?_⟩
          rw [show id.index - start = id.index - (start + 1) + 1 by omega] at located
          exact located
      obtain ⟨version, content⟩ := cell
      cases content with
      | none =>
          rw [entriesFrom, ih, step]
          constructor
          · rintro ⟨later, located⟩
            exact ⟨Nat.le_of_lt later, located⟩
          · rintro ⟨later, located⟩
            rcases Nat.eq_or_lt_of_le later with here | later
            · simp [here] at located
            · exact ⟨later, located⟩
      | some first =>
          rw [entriesFrom, List.mem_cons, ih, step]
          constructor
          · rintro (same | ⟨later, located⟩)
            · cases same
              simp
            · exact ⟨Nat.le_of_lt later, located⟩
          · rintro ⟨later, located⟩
            rcases Nat.eq_or_lt_of_le later with here | later
            · subst here
              simp only [Nat.sub_self, List.getElem?_cons_zero, Option.some.injEq,
                Cell.mk.injEq] at located
              exact .inl (by rw [located.1, located.2])
            · exact .inr ⟨later, located⟩

theorem mem_entries {r : Registry κ} {id : ConnectionId} {e : κ} :
    (id, e) ∈ r.entries ↔ r.get? id = some e := by
  rw [entries, mem_entriesFrom, get?_eq_some]
  simp

theorem entriesFrom_nodup (cells : List (Cell κ)) (start : Nat) :
    ((entriesFrom start cells).map (·.1)).Nodup := by
  induction cells generalizing start with
  | nil => exact List.nodup_nil
  | cons cell rest ih =>
      obtain ⟨version, content⟩ := cell
      cases content with
      | none => exact ih (start + 1)
      | some first =>
          refine List.nodup_cons.mpr ⟨?_, ih (start + 1)⟩
          intro member
          obtain ⟨⟨id, e⟩, listed, same⟩ := List.mem_map.mp member
          have later := (mem_entriesFrom.mp listed).1
          simp only at same
          subst same
          simp only at later
          omega

theorem entries_nodup (r : Registry κ) : (r.entries.map (·.1)).Nodup := entriesFrom_nodup _ 0

/-- Removing entries one after another. -/
theorem eraseAll_spec {r : Registry κ} (sound : r.Sound) (l : List (ConnectionId × κ)) :
    let after := l.foldl (fun r entry => (r.erase entry.1).2) r
    after.Sound ∧ (∀ id, r.Past id → after.Past id) ∧
      (∀ id, id ∈ l.map (·.1) → r.contains id = true → after.Past id) ∧
      ∀ id, after.get? id = if id ∈ l.map (·.1) then none else r.get? id := by
  induction l generalizing r with
  | nil => exact ⟨sound, fun _ past => past, by simp, by simp⟩
  | cons entry rest ih =>
      obtain ⟨kept, past, removed, named⟩ := ih (sound.erase entry.1)
      refine ⟨kept, fun id h => past id (h.erase entry.1), ?_, ?_⟩
      · intro id member found
        by_cases first : id = entry.1
        · exact past id (first ▸ past_erase (first ▸ found))
        · refine removed id ((List.mem_cons.mp member).resolve_left first) ?_
          simpa only [contains, get?_erase, if_neg first] using found
      · intro id
        rw [List.foldl_cons, named, get?_erase]
        by_cases first : id = entry.1
        · simp [first]
        · simp only [List.map_cons, List.mem_cons, first, if_false, false_or]

theorem Sound.clear {r : Registry κ} (sound : r.Sound) : r.clear.Sound :=
  (eraseAll_spec sound r.entries).1

theorem Past.clear {r : Registry κ} (sound : r.Sound) {id : ConnectionId} (past : r.Past id) :
    r.clear.Past id := (eraseAll_spec sound r.entries).2.1 id past

theorem mem_entries_of_contains {r : Registry κ} {id : ConnectionId}
    (found : r.contains id = true) : id ∈ r.entries.map (·.1) := by
  obtain ⟨e, named⟩ := Option.isSome_iff_exists.mp found
  exact List.mem_map.mpr ⟨_, mem_entries.mpr named, rfl⟩

theorem past_clear {r : Registry κ} (sound : r.Sound) {id : ConnectionId}
    (found : r.contains id = true) : r.clear.Past id :=
  (eraseAll_spec sound r.entries).2.2.1 id (mem_entries_of_contains found) found

theorem get?_clear {r : Registry κ} (sound : r.Sound) (id : ConnectionId) :
    r.clear.get? id = none := by
  rw [Registry.clear, (eraseAll_spec sound r.entries).2.2.2]
  cases found : r.contains id with
  | true => rw [if_pos (mem_entries_of_contains found)]
  | false =>
      split
      · rfl
      · simpa [contains] using found

end Registry

namespace Signal

variable {κ : Type}

/-- The registry is sound, and a closed signal has no connections. -/
structure Sound (x : Signal κ) : Prop where
  registry : x.registry.Sound
  closed : x.closed = true → x.registry = .empty

/-- The slot that an id names. -/
def slot? (x : Signal κ) (id : ConnectionId) : Option κ := (x.registry.get? id).map (·.slot)

/-- An id names a slot with a property, or none now and ever. -/
def Settled (P : κ → Prop) (x : Signal κ) (id : ConnectionId) : Prop :=
  x.closed = true ∨ x.registry.Past id ∨ ∃ k, x.slot? id = some k ∧ P k

theorem sound_new : (new : Signal κ).Sound := ⟨Registry.sound_empty, fun _ => rfl⟩

theorem slot?_new (id : ConnectionId) : (new : Signal κ).slot? id = none := rfl

theorem contains_of_slot? {x : Signal κ} {id : ConnectionId} {k : κ} (h : x.slot? id = some k) :
    x.registry.contains id = true := by
  obtain ⟨e, named, -⟩ := Option.map_eq_some_iff.mp h
  rw [Registry.contains, named]
  rfl

theorem slot?_of_closed {x : Signal κ} (sound : x.Sound) (closed : x.closed = true)
    (id : ConnectionId) : x.slot? id = none := by
  rw [slot?, sound.closed closed]
  rfl

/-- Of a settled id that names a slot, the slot has the property. -/
theorem Settled.property {P : κ → Prop} {x : Signal κ} (sound : x.Sound) {id : ConnectionId}
    (settled : x.Settled P id) {k : κ} (named : x.slot? id = some k) : P k := by
  rcases settled with closed | past | ⟨k', named', holds⟩
  · rw [slot?_of_closed sound closed] at named
    cases named
  · rw [slot?, Registry.get?_of_past sound.registry past] at named
    cases named
  · rw [named] at named'
    cases named'
    exact holds

theorem Settled.imp {P Q : κ → Prop} {x : Signal κ} {id : ConnectionId} (settled : x.Settled P id)
    (imp : ∀ k, P k → Q k) : x.Settled Q id := by
  rcases settled with closed | past | ⟨k, named, holds⟩
  · exact .inl closed
  · exact .inr (.inl past)
  · exact .inr (.inr ⟨k, named, imp k holds⟩)

/-- An id that is settled, but not connected, will never be. -/
theorem Settled.gone {P : κ → Prop} {x : Signal κ} {id : ConnectionId} (settled : x.Settled P id)
    (missing : x.slot? id = none) : x.Settled (fun _ => False) id := by
  rcases settled with closed | past | ⟨k, named, -⟩
  · exact .inl closed
  · exact .inr (.inl past)
  · rw [missing] at named
    cases named

/-! ## Connecting -/

theorem connect_of_closed {x : Signal κ} (closed : x.closed = true) (k : κ) (d : Delivery) :
    x.connect k d = (.unused, x) := by
  simp [connect, closed]

theorem connect_of_open {x : Signal κ} (opened : x.closed = false) (k : κ) (d : Delivery) :
    x.connect k d =
      ((x.registry.insert ⟨k, d⟩).1, { x with registry := (x.registry.insert ⟨k, d⟩).2 }) := by
  simp [connect, opened]

theorem closed_connect (x : Signal κ) (k : κ) (d : Delivery) :
    (x.connect k d).2.closed = x.closed := by
  cases h : x.closed with
  | true => rw [connect_of_closed h, h]
  | false => rw [connect_of_open h, h]

theorem slot?_connect {x : Signal κ} (sound : x.Sound) (opened : x.closed = false) (k : κ)
    (d : Delivery) (id : ConnectionId) :
    (x.connect k d).2.slot? id = if id = (x.connect k d).1 then some k else x.slot? id := by
  rw [connect_of_open opened]
  simp only [slot?, Registry.get?_insert sound.registry]
  split <;> rfl

theorem slot?_connect_self {x : Signal κ} (sound : x.Sound) (opened : x.closed = false) (k : κ)
    (d : Delivery) : x.slot? (x.connect k d).1 = none := by
  rw [connect_of_open opened]
  simp only [slot?, Registry.get?_insert_self sound.registry, Option.map_none]

/-- The id of a new connection was settled by nothing. -/
theorem not_settled_connect {P : κ → Prop} {x : Signal κ} (sound : x.Sound)
    (opened : x.closed = false) (k : κ) (d : Delivery) : ¬ x.Settled P (x.connect k d).1 := by
  rintro (closed | past | ⟨k', named, -⟩)
  · rw [opened] at closed
    cases closed
  · rw [connect_of_open opened] at past
    exact Registry.not_past_insert sound.registry _ past
  · rw [slot?_connect_self sound opened] at named
    cases named

theorem Sound.connect {x : Signal κ} (sound : x.Sound) (k : κ) (d : Delivery) :
    (x.connect k d).2.Sound := by
  cases h : x.closed with
  | true => rwa [connect_of_closed h]
  | false =>
      rw [connect_of_open h]
      exact ⟨sound.registry.insert _, fun closed => by simp [h] at closed⟩

theorem Settled.connect {P : κ → Prop} {x : Signal κ} (sound : x.Sound) {id : ConnectionId}
    (settled : x.Settled P id) (k : κ) (d : Delivery) : (x.connect k d).2.Settled P id := by
  cases h : x.closed with
  | true =>
      rw [connect_of_closed h]
      exact .inl h
  | false =>
      rcases settled with closed | past | ⟨k', named, holds⟩
      · simp [h] at closed
      · rw [connect_of_open h]
        exact .inr (.inl (past.insert sound.registry _))
      · refine .inr (.inr ⟨k', ?_, holds⟩)
        rw [slot?_connect sound h, if_neg ?_]
        · exact named
        · intro same
          rw [same, slot?_connect_self sound h] at named
          cases named

/-- The id of a new connection is settled by its slot. -/
theorem settled_connect {P : κ → Prop} {x : Signal κ} (sound : x.Sound) {k : κ} (holds : P k)
    (d : Delivery) : (x.connect k d).2.Settled P (x.connect k d).1 := by
  cases h : x.closed with
  | true =>
      rw [connect_of_closed h]
      exact .inl h
  | false => exact .inr (.inr ⟨k, by rw [slot?_connect sound h, if_pos rfl], holds⟩)

/-! ## Disconnecting -/

theorem slot?_disconnect (x : Signal κ) (i id : ConnectionId) :
    (x.disconnect i).2.slot? id = if id = i then none else x.slot? id := by
  simp only [slot?, disconnect, Registry.get?_erase]
  split <;> rfl

theorem Sound.disconnect {x : Signal κ} (sound : x.Sound) (i : ConnectionId) :
    (x.disconnect i).2.Sound := by
  refine ⟨sound.registry.erase i, ?_⟩
  intro closed
  have empty := sound.closed closed
  simp only [Signal.disconnect, empty]
  rfl

theorem Settled.disconnect {P : κ → Prop} {x : Signal κ} {id : ConnectionId}
    (settled : x.Settled P id) (i : ConnectionId) : (x.disconnect i).2.Settled P id := by
  rcases settled with closed | past | ⟨k, named, holds⟩
  · exact .inl closed
  · exact .inr (.inl (past.erase i))
  · by_cases same : id = i
    · subst same
      exact .inr (.inl (Registry.past_erase (contains_of_slot? named)))
    · exact .inr (.inr ⟨k, by rw [slot?_disconnect, if_neg same, named], holds⟩)

theorem slot?_disconnectAll {x : Signal κ} (sound : x.Sound) (id : ConnectionId) :
    x.disconnectAll.slot? id = none := by
  simp only [slot?, disconnectAll, Registry.get?_clear sound.registry, Option.map_none]

theorem Sound.disconnectAll {x : Signal κ} (sound : x.Sound) : x.disconnectAll.Sound := by
  refine ⟨sound.registry.clear, ?_⟩
  intro closed
  have empty := sound.closed closed
  simp only [Signal.disconnectAll, empty]
  rfl

theorem Settled.disconnectAll {P : κ → Prop} {x : Signal κ} (sound : x.Sound)
    {id : ConnectionId} (settled : x.Settled P id) : x.disconnectAll.Settled P id := by
  rcases settled with closed | past | ⟨k, named, -⟩
  · exact .inl closed
  · exact .inr (.inl (past.clear sound.registry))
  · exact .inr (.inl (Registry.past_clear sound.registry (contains_of_slot? named)))

/-! ## Closing -/

theorem slot?_close (x : Signal κ) (id : ConnectionId) : x.close.slot? id = none := rfl

theorem sound_close (x : Signal κ) : x.close.Sound := ⟨Registry.sound_empty, fun _ => rfl⟩

theorem settled_close (P : κ → Prop) (x : Signal κ) (id : ConnectionId) : x.close.Settled P id :=
  .inl rfl

end Signal

end Mvc
