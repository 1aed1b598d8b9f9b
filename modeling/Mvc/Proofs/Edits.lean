import Mathlib.Logic.Function.Basic
import Mvc.Proofs.Bystanders
import Mvc.Proofs.Contents
import Mvc.Proofs.Notes

/-! # Stores as partial maps

A store stands for a partial map from names to values that are not `null`. What is done to the
store of a model, in whatever way, is noted beside a run as an edit, in the order in which it
takes effect, together with what the store held right after it. Hooks and slots may edit the
store in the middle of an operation.

An edit says what becomes of a partial map by itself, without a store. A run takes the store
wherever its edits take the partial map, and every write comes to what the map says that it
comes to (`store_refines_map`). That a write which changes nothing is left out agrees with
deleting what is set to `null` only because no `null` is ever held.
-/

namespace Mvc

variable {σ ε : Type}

/-! ## What stores show -/

namespace Store

/-- However a store is looked at, it shows the same, and no `null`. -/
structure IsSound (s : Store) : Prop where
  full : ∀ name, s.value? name ≠ some .null
  has : ∀ name, s.has name = true ↔ s.get name ≠ .null
  names : ∀ name, name ∈ s.names ↔ s.get name ≠ .null
  listed : ∀ name value, (name, value) ∈ s.values.entries ↔ s.get name = value ∧ value ≠ .null
  seen : ∀ name, s.values.get? name = some (s.get name) ↔ s.get name ≠ .null
  distinct : s.names.Nodup
  size : s.size = s.names.length

variable {s : Store}

theorem value?_eq_some (full : ∀ name, s.value? name ≠ some .null) {name : String} {value : Value} :
    s.value? name = some value ↔ s.get name = value ∧ value ≠ .null := by
  rw [get_eq]
  cases held : s.value? name with
  | none => exact ⟨nofun, fun ⟨same, not⟩ => absurd same.symm not⟩
  | some v =>
      have not : v ≠ .null := fun null => full name (held.trans (congrArg some null))
      exact ⟨fun same => Option.some.inj same ▸ ⟨rfl, not⟩, fun ⟨same, _⟩ => congrArg some same⟩

theorem nodup_names (s : Store) : s.names.Nodup :=
  List.pairwise_map.mpr (s.values.ascending.imp fun below same =>
    absurd (same ▸ below) (String.lt_irrefl _))

theorem isSound_of_full (full : ∀ name, s.value? name ≠ some .null) : s.IsSound := by
  have seen : ∀ name, s.values.get? name = some (s.get name) ↔ s.get name ≠ .null := fun name =>
    (value?_eq_some full).trans (and_iff_right rfl)
  have listed : ∀ name value,
      (name, value) ∈ s.values.entries ↔ s.get name = value ∧ value ≠ .null := fun name value =>
    (Entries.find?_eq_some s.values.ascending).symm.trans (value?_eq_some full)
  refine ⟨full, fun name => ?_, fun name => ?_, listed, seen, nodup_names s, ?_⟩
  · rw [has, Dict.contains, Option.isSome_iff_exists, ← seen]
    constructor
    · rintro ⟨v, found⟩
      rw [found, ((value?_eq_some full).mp found).1]
    · exact fun found => ⟨_, found⟩
  · constructor
    · intro member
      obtain ⟨e, there, rfl⟩ := List.mem_map.mp member
      obtain ⟨same, not⟩ := (listed e.1 e.2).mp there
      exact same ▸ not
    · exact fun not => List.mem_map.mpr ⟨(name, s.get name), (listed _ _).mpr ⟨rfl, not⟩, rfl⟩
  · rw [size, Dict.size, names, Dict.keys, List.length_map]

end Store

/-! ## Edits -/

/-- A partial map from names to values. -/
abbrev Content := String → Option Value

/-- No `null` is held. -/
def Content.IsFull (c : Content) : Prop := ∀ name, c name ≠ some .null

/-- What is done to the properties of a model. -/
inductive Edit where
  /-- A property is written, if its value is accepted. -/
  | set (name : String) (value : Value) (accepted : Bool)
  /-- A property is written without anybody being asked or told. -/
  | put (name : String) (value : Value)
  /-- Others take the place of all properties. -/
  | replace (pairs : List (String × Value))
  /-- All properties are removed. -/
  | clear

namespace Edit

/-- What becomes of a partial map. -/
def apply : Edit → Content → Content
  | set name value accepted, c => if accepted then Function.update c name (Store.kept value) else c
  | put name value, c => Function.update c name (Store.kept value)
  | replace pairs, _ => fun name =>
    ((Dict.ofList pairs).get? name).filter fun value => !value.isNull
  | clear, _ => fun _ => none

/-- What a write comes to. -/
def outcome? : Edit → Content → Option SetOutcome
  | set name value accepted, c =>
    some (if !accepted then .rejected
      else if (c name).getD .null = value then .unchanged else .changed)
  | _, _ => none

theorem value?_write_eq (s : Store) (name : String) (value : Value) :
    (s.write name value).value? = Function.update s.value? name (Store.kept value) := by
  funext n
  rw [Store.value?_write, Function.update_apply]

theorem value?_ofPairs_eq (pairs : List (String × Value)) (c : Content) :
    (Store.ofPairs pairs).value? = (replace pairs).apply c := by
  funext name
  rw [Store.value?_ofPairs, ← Entries.find?_ofList]
  rfl

variable {c : Content}

theorem isFull_update (full : c.IsFull) (name : String) (value : Value) :
    Content.IsFull (Function.update c name (Store.kept value)) := by
  intro n
  rw [Function.update_apply]
  split
  · cases value <;> simp [Store.kept, Value.isNull]
  · exact full n

theorem isFull_apply (full : c.IsFull) (e : Edit) : Content.IsFull (e.apply c) := by
  cases e with
  | set name value accepted =>
      cases accepted with
      | true => exact isFull_update full name value
      | false => exact full
  | put name value => exact isFull_update full name value
  | replace pairs =>
      intro name held
      have kept := (Option.filter_eq_some_iff.mp held).2
      cases kept
  | clear => exact fun name => nofun

end Edit

/-- An edit that was made, with what it came to and what the store held then. -/
structure Edited where
  edit : Edit
  outcome : Option SetOutcome
  left : Store

/-- What was done to a store is what its edits do to a partial map. -/
inductive Replays : Content → List Edited → Content → Prop
  | nothing (c : Content) : Replays c [] c
  | edited {c c' : Content} {e : Edited} {rest : List Edited}
      (outcome : e.outcome = e.edit.outcome? c) (left : e.left.value? = e.edit.apply c)
      (later : Replays (e.edit.apply c) rest c') : Replays c (e :: rest) c'

namespace Replays

variable {c c₁ c' : Content} {log log' : List Edited}

theorem append (first : Replays c log c₁) (second : Replays c₁ log' c') :
    Replays c (log ++ log') c' := by
  induction first with
  | nothing c => exact second
  | edited outcome left later ih => exact .edited outcome left (ih second)

/-- No `null` is held in the end, or after any edit. -/
theorem full (replays : Replays c log c') (full : c.IsFull) :
    c'.IsFull ∧ ∀ e ∈ log, Content.IsFull e.left.value? := by
  induction replays with
  | nothing c => exact ⟨full, nofun⟩
  | @edited c c' e rest outcome left later ih =>
      have here := Edit.isFull_apply full e.edit
      obtain ⟨last, each⟩ := ih here
      refine ⟨last, fun e' member => ?_⟩
      rcases List.mem_cons.mp member with rfl | behind
      · exact left ▸ here
      · exact each e' behind

end Replays

/-- An ensemble with the edits of a model beside it. -/
abbrev Ensemble.Recorded (σ ε : Type) := Ensemble σ (Noted (List Edited) ε)

namespace Ensemble

/-! ## Recording -/

/-- Note an edit that has been made. -/
def noteEdit (m : Nat) (e : Edit) (outcome : Option SetOutcome) (w : Recorded σ ε) : Recorded σ ε :=
  { w with
    client := { w.client with
      notes := w.client.notes ++ [⟨e, outcome, (w.model m).store⟩] } }

section Recording

variable (run : Runner σ (Noted (List Edited) ε)) (β : Behaviour σ (Noted (List Edited) ε))
  (m : Nat)

/-- What is left of a write once the value is accepted. -/
def recordRevision (name : String) (value : Value) (react : Value → Proc (Recorded σ ε) Unit) :
    Proc (Recorded σ ε) SetOutcome := do
  let old := ((← get).model m).store.get name
  if old == value then
    modify (noteEdit m (.set name value true) (some .unchanged))
    return .unchanged
  modify fun w => noteEdit m (.set name value true) (some .changed)
    (updateStore m (fun s => s.write name value) w)
  react old
  emit run (.modelProperty m) (.property name value)
  emit run (.modelData m) .dataChanged
  return .changed

/-- `write`, recorded. -/
def recordWrite (hooked : Bool) (name : String) (value : Value) :
    Proc (Recorded σ ε) SetOutcome := do
  let accepted ← if hooked then run.client (β.accepts m name value) else pure true
  if !accepted then
    modify (noteEdit m (.set name value false) (some .rejected))
    return .rejected
  recordRevision run m name value fun old =>
    if hooked then run.client (β.afterSet m name old value) else pure ()

/-- `setProperty`, recorded. -/
def recordProperty (name : String) (value : Value) : Proc (Recorded σ ε) SetOutcome := do
  let outcome ← recordWrite run β m true name value
  if outcome.isChanged then emitValidity run β m
  return outcome

/-- `initializeModel`, recorded. -/
def recordInitialize : Proc (Recorded σ ε) (Except ModelError Unit) := do
  if ((← get).model m).initialized then return .ok ()
  match ← run.client (β.populate m) with
  | .error e => return .error e
  | .ok defaults =>
    if ((← get).model m).initialized then return .ok ()
    modify fun w => noteEdit m (.replace defaults) none
      (updateModel m (fun o => { o with store := .ofPairs defaults, initialized := true }) w)
    emitReloaded run β m
    return .ok ()

/-- `resetModel`, recorded. -/
def recordReset : Proc (Recorded σ ε) (Except ModelError Unit) := do
  match ← run.client (β.populate m) with
  | .error e => return .error e
  | .ok defaults =>
    modify fun w => noteEdit m (.replace defaults) none
      (updateStore m (fun _ => .ofPairs defaults) w)
    emitReloaded run β m
    return .ok ()

/-- `body`, one model being recorded. Client code does not change the notes. -/
def recordedBody (fuel : Nat) : Runner σ (Noted (List Edited) ε)
  | .action (.write n hooked name value) =>
    if n = m then recordWrite run β m hooked name value else write run β n hooked name value
  | .action (.setProperty n name value) =>
    if n = m then recordProperty run β m name value else setProperty run β n name value
  | .action (.setSilently n name value) =>
    if n = m then
      modify fun w => noteEdit m (.put name value) none (updateStore m (·.write name value) w)
    else modify (updateStore n (·.write name value))
  | .action (.replaceAll n pairs) =>
    if n = m then
      modify fun w => noteEdit m (.replace pairs) none (updateStore m (fun _ => .ofPairs pairs) w)
    else modify (updateStore n fun _ => .ofPairs pairs)
  | .action (.clear n) =>
    if n = m then modify fun w => noteEdit m .clear none (updateStore m (fun _ => .empty) w)
    else modify (updateStore n fun _ => .empty)
  | .action (.initializeModel n) =>
    if n = m then recordInitialize run β m else initializeModel run β n
  | .action (.resetModel n) => if n = m then recordReset run β m else resetModel run β n
  | .action (.change f) =>
    modify fun w => { w with client := { f w.client with notes := w.client.notes } }
  | call => body run β fuel call

end Recording

/-- Run a call and note the edits of a model. -/
def recorded (β : Behaviour σ ε) (m : Nat) : Nat → Runner σ (Noted (List Edited) ε)
  | 0 => fun _ => Proc.tooDeep
  | depth + 1 => recordedBody (recorded β m depth) (β.beside _) m depth

/-! ## A recorded run is a run -/

open Proc

section Unrecorded

variable {run' : Runner σ (Noted (List Edited) ε)} {run : Runner σ ε}
  (calls : BareRunner run' run) (β : Behaviour σ ε) (m : Nat)
include calls

theorem bares_recordWrite (hooked : Bool) (name : String) (value : Value) :
    Bares id (recordWrite run' (β.beside _) m hooked name value)
      (write run β m hooked name value) := by
  have announce : Bares id
      (do
        emit run' (.modelProperty m) (.property name value)
        emit run' (.modelData m) .dataChanged
        return SetOutcome.changed)
      (do
        emit run (.modelProperty m) (.property name value)
        emit run (.modelData m) .dataChanged
        return SetOutcome.changed) :=
    .bind (bares_emit calls _ _) fun _ => .bind (bares_emit calls _ _) fun _ => .pure _
  unfold recordWrite recordRevision write
  cases hooked with
  | false =>
      refine .bind (.pure true) fun accepted => .ite (.note rfl (.pure _)) (.look fun w => ?_)
      exact .ite (.note rfl (.pure _)) (.bind (.modify fun w => rfl) fun _ => announce)
  | true =>
      refine .bind (f := id) (bares_client calls _) fun accepted => ?_
      refine .ite (.note rfl (.pure _)) (.look fun w => ?_)
      refine .ite (.note rfl (.pure _)) (.bind (.modify fun w => rfl) fun _ => ?_)
      exact .bind (bares_client calls _) fun _ => announce

theorem bares_recordProperty (name : String) (value : Value) :
    Bares id (recordProperty run' (β.beside _) m name value) (setProperty run β m name value) := by
  refine .bind (bares_recordWrite calls β m true name value) fun outcome => ?_
  cases outcome with
  | changed => exact .bind (bares_emitValidity calls β m) fun _ => .pure _
  | unchanged | rejected => exact .bind (.pure ()) fun _ => .pure _

theorem bares_recordInitialize :
    Bares id (recordInitialize run' (β.beside _) m) (initializeModel run β m) := by
  refine .look fun w => .ite (.pure _) (.bind (bares_client calls _) fun populated => ?_)
  cases populated with
  | error e => exact .pure _
  | ok defaults =>
      refine .look fun w => .ite (.pure _) (.bind (.modify fun w => rfl) fun _ => ?_)
      exact .bind (bares_emitReloaded calls β m) fun _ => .pure _

theorem bares_recordReset :
    Bares id (recordReset run' (β.beside _) m) (resetModel run β m) := by
  refine .bind (bares_client calls _) fun populated => ?_
  cases populated with
  | error e => exact .pure _
  | ok defaults =>
      refine .bind (.modify fun w => rfl) fun _ => ?_
      exact .bind (bares_emitReloaded calls β m) fun _ => .pure _

theorem bare_recordedBody (fuel : Nat) :
    BareRunner (recordedBody run' (β.beside _) m fuel) (body run β fuel) := by
  have plain := bares_body calls β fuel
  refine ⟨plain.slot, plain.task, plain.subscription, fun a => ?_⟩
  have unrecorded := plain.action a
  -- What happens to another model is not recorded.
  have either : ∀ {α : Type} {n : Nat} {p' q' : Proc (Recorded σ ε) α} {p : Proc (Ensemble σ ε) α},
      (n = m → Bares id p' p) → Bares id q' p → Bares id (if n = m then p' else q') p := by
    intro α n p' q' p here there
    split
    · next same => exact here same
    · exact there
  cases a with
  | write n hooked name value =>
      exact either (fun same => same ▸ bares_recordWrite calls β n hooked name value) unrecorded
  | setProperty n name value =>
      exact either (fun same => same ▸ bares_recordProperty calls β n name value) unrecorded
  | setSilently | replaceAll | clear =>
      exact either (fun same => .modify fun w => same ▸ rfl) unrecorded
  | initializeModel n =>
      exact either (fun same => same ▸ bares_recordInitialize calls β n) unrecorded
  | resetModel n => exact either (fun same => same ▸ bares_recordReset calls β n) unrecorded
  | _ => exact unrecorded

end Unrecorded

/-- Without the notes, a recorded run is a run. -/
theorem bare_recorded (β : Behaviour σ ε) (m depth : Nat) :
    BareRunner (recorded β m depth) (Ensemble.run β depth) := by
  induction depth with
  | zero => exact ⟨fun _ _ => .tooDeep, fun _ => .tooDeep, fun _ => .tooDeep, fun _ => .tooDeep⟩
  | succ depth ih => exact bare_recordedBody ih β m depth

/-! ## Edits are all that happens -/

variable {m : Nat} {β : Behaviour σ ε} {w w₁ w' : Recorded σ ε}

/-- Edits are noted, and they are what happened to the model's store. -/
def Amends (m : Nat) (w w' : Recorded σ ε) : Prop :=
  ∃ log, w'.client.notes = w.client.notes ++ log ∧
    (Content.IsFull (w.model m).store.value? →
      Replays (w.model m).store.value? log (w'.model m).store.value?)

theorem amends_composes : Composes (Amends (σ := σ) (ε := ε) m) where
  refl w := ⟨[], by simp, fun _ => .nothing _⟩
  trans := by
    rintro a b c ⟨log, noted, replays⟩ ⟨log', noted', replays'⟩
    refine ⟨log ++ log', by rw [noted', noted, List.append_assoc], fun full => ?_⟩
    have first := replays full
    exact first.append (replays' (first.full full).1)

theorem amends_of_same (notes : w'.client.notes = w.client.notes)
    (store : (w'.model m).store = (w.model m).store) : Amends m w w' :=
  ⟨[], by simp [notes], fun _ => store ▸ .nothing _⟩

theorem amends_updateModel {n : Nat} (other : n ≠ m) (f : Model σ → Model σ) :
    Amends m w (updateModel n f w) := by
  refine amends_of_same rfl ?_
  rw [model_updateModel, if_neg fun same => other same.symm]

/-- An edit is made and noted. -/
theorem amends_noteEdit {e : Edit} {outcome : Option SetOutcome}
    (notes : w₁.client.notes = w.client.notes)
    (comes : Content.IsFull (w.model m).store.value? →
      outcome = e.outcome? (w.model m).store.value? ∧
        (w₁.model m).store.value? = e.apply (w.model m).store.value?) :
    Amends m w (noteEdit m e outcome w₁) := by
  refine ⟨[⟨e, outcome, (w₁.model m).store⟩], by rw [noteEdit, notes], fun full => ?_⟩
  obtain ⟨same, left⟩ := comes full
  have after : ((noteEdit m e outcome w₁).model m).store.value? =
      e.apply (w.model m).store.value? := left
  rw [after]
  exact .edited same left (.nothing _)

theorem amends_reject (name : String) (value : Value) :
    Amends m w (noteEdit m (.set name value false) (some .rejected) w) :=
  amends_noteEdit rfl fun _ => ⟨rfl, rfl⟩

/-- What is held already would be written over itself. -/
theorem amends_retain {name : String} {value : Value}
    (same : (w.model m).store.get name = value) :
    Amends m w (noteEdit m (.set name value true) (some .unchanged) w) := by
  refine amends_noteEdit rfl fun full => ⟨?_, ?_⟩
  · rw [Edit.outcome?, ← Store.get_eq, if_pos same]
    rfl
  · have kept : Store.kept value = (w.model m).store.value? name := by
      rw [← same, Store.get_eq]
      cases held : (w.model m).store.value? name with
      | none => rfl
      | some v =>
          cases v with
          | null => exact absurd held (full name)
          | _ => rfl
    rw [Edit.apply, if_pos rfl, kept]
    exact (Function.update_eq_self name _).symm

theorem store_updateStore (m : Nat) (f : Store → Store) (w : Ensemble σ ε) :
    ((updateStore m f w).model m).store = f (w.model m).store := by
  rw [updateStore, model_updateModel, if_pos rfl]

theorem amends_change {name : String} {value : Value}
    (apart : (w.model m).store.get name ≠ value) :
    Amends m w (noteEdit m (.set name value true) (some .changed)
      (updateStore m (fun s => s.write name value) w)) := by
  refine amends_noteEdit rfl fun _ => ⟨?_, ?_⟩
  · rw [Edit.outcome?, ← Store.get_eq, if_neg apart]
    rfl
  · rw [store_updateStore]
    exact Edit.value?_write_eq _ name value

theorem amends_put (name : String) (value : Value) :
    Amends m w (noteEdit m (.put name value) none (updateStore m (·.write name value) w)) := by
  refine amends_noteEdit rfl fun _ => ⟨rfl, ?_⟩
  rw [store_updateStore]
  exact Edit.value?_write_eq _ name value

theorem amends_replace (pairs : List (String × Value)) {f : Model σ → Model σ}
    (stores : ∀ o, (f o).store = .ofPairs pairs) :
    Amends m w (noteEdit m (.replace pairs) none (updateModel m f w)) := by
  refine amends_noteEdit rfl fun _ => ⟨rfl, ?_⟩
  rw [model_updateModel, if_pos rfl, stores]
  exact Edit.value?_ofPairs_eq pairs _

theorem amends_clear : Amends m w (noteEdit m .clear none (updateStore m (fun _ => .empty) w)) := by
  refine amends_noteEdit rfl fun _ => ⟨rfl, ?_⟩
  rw [store_updateStore]
  rfl

theorem connect_amends (s : SignalRef) (slot : Slot σ) (d : Delivery) :
    Keeps (Amends m) (connect (ε := Noted (List Edited) ε) s slot d) := by
  intro w r w' h
  cases h
  refine amends_of_same (by simp) ?_
  have same := congrArg (·.store) (model_setSignal w s ((w.signal s).connect slot d).2 m)
  exact same

section Calls

variable {run : Runner σ (Noted (List Edited) ε)} (calls : ∀ call, Keeps (Amends m) (run call))
include calls

/-- Whoever minds what is done to a store is a bystander. -/
theorem amends_bystander : Bystander (Amends m) (fun _ => True) run where
  order := amends_composes
  tacit still := amends_of_same (congrArg _ still.client) (still.store m)
  giveUpController _ _ _ := amends_of_same rfl rfl
  giveUpView _ _ _ := amends_of_same rfl rfl
  action a _ := calls (.action a)
  slot slot notice := calls (.slot slot notice)
  task t := calls (.task t)
  subscription code := calls (.subscription code)
  link s slot _ := connect_amends s slot .direct
  subscribe _ _ _ :=
    .look fun _ => .bind amends_composes (connect_amends _ _ _) fun _ => .pure amends_composes _

theorem amends_client {ρ : Type} (code : Client σ (Noted (List Edited) ε) ρ) :
    Keeps (Amends m) (run.client code) :=
  (tracks_self _).mp
    (.program amends_composes (fun a => (tracks_self _).mpr (calls (.action a))) code)

variable (β : Behaviour σ (Noted (List Edited) ε))

theorem amends_scribe {n : Nat} (other : n ≠ m) : Scribe (Amends m) β run n :=
  (amends_bystander calls).scribe (.of_client (amends_client calls) β) fun _ _ =>
    amends_updateModel other _

theorem amends_emitReloaded : Keeps (Amends m) (emitReloaded run β m) := by
  have b := amends_bystander calls
  exact .bind amends_composes (b.emit _ _) fun _ => .look fun _ => b.emit _ _

/-- What is written depends on what is held at that moment. -/
theorem recordRevision_amends (name : String) (value : Value)
    {react : Value → Proc (Recorded σ ε) Unit} (reacts : ∀ old, Keeps (Amends m) (react old)) :
    Keeps (Amends m) (recordRevision run m name value react) := by
  have b := amends_bystander calls
  have order := amends_composes (σ := σ) (ε := ε) (m := m)
  intro w
  refine .get_bind ?_
  dsimp only
  split
  · next same => exact .modify_bind ((ends_pure _ _ _).mpr (amends_retain (eq_of_beq same)))
  · next apart =>
      have announce : Keeps (Amends m)
          (do
            emit run (.modelProperty m) (.property name value)
            emit run (.modelData m) .dataChanged
            return SetOutcome.changed) :=
        .bind order (b.emit _ _) fun _ => .bind order (b.emit _ _) fun _ => .pure order _
      have later := Keeps.bind order (reacts ((w.model m).store.get name)) fun _ => announce
      refine .modify_bind ((later _).mono fun _ _ after => order.trans ?_ after)
      exact amends_change fun same => apart (beq_iff_eq.mpr same)

theorem recordWrite_amends (hooked : Bool) (name : String) (value : Value) :
    Keeps (Amends m) (recordWrite run β m hooked name value) := by
  have order := amends_composes (σ := σ) (ε := ε) (m := m)
  have refuse : Keeps (Amends m)
      (do
        modify (noteEdit m (.set name value false) (some .rejected))
        return SetOutcome.rejected) :=
    .bind order (.modify fun w => amends_reject name value) fun _ => .pure order _
  have revise : Keeps (Amends m) (recordRevision run m name value fun old =>
      if hooked then run.client (β.afterSet m name old value) else pure ()) :=
    recordRevision_amends calls name value fun old =>
      .ite (amends_client calls _) (.pure order ())
  unfold recordWrite
  cases hooked with
  | false => exact .bind order (.pure order true) fun accepted => .ite refuse revise
  | true => exact .bind order (amends_client calls _) fun accepted => .ite refuse revise

theorem recordProperty_amends (name : String) (value : Value) :
    Keeps (Amends m) (recordProperty run β m name value) := by
  refine .bind amends_composes (recordWrite_amends calls β true name value) fun outcome => ?_
  cases outcome with
  | changed =>
      refine .bind amends_composes ?_ fun _ => .pure amends_composes _
      exact .look fun _ => (amends_bystander calls).emit _ _
  | unchanged | rejected => exact .pure amends_composes _

theorem recordReset_amends : Keeps (Amends m) (recordReset run β m) := by
  refine .bind amends_composes (amends_client calls _) fun populated => ?_
  cases populated with
  | error e => exact .pure amends_composes _
  | ok defaults =>
      refine .bind amends_composes (.modify fun w => ?_) fun _ => ?_
      · exact amends_replace defaults fun _ => rfl
      · exact .bind amends_composes (amends_emitReloaded calls β) fun _ => .pure amends_composes _

theorem recordInitialize_amends : Keeps (Amends m) (recordInitialize run β m) := by
  refine .look fun w => .ite (.pure amends_composes _) ?_
  refine .bind amends_composes (amends_client calls _) fun populated => ?_
  cases populated with
  | error e => exact .pure amends_composes _
  | ok defaults =>
      refine .look fun w => .ite (.pure amends_composes _) ?_
      refine .bind amends_composes (.modify fun w => ?_) fun _ => ?_
      · exact amends_replace defaults fun _ => rfl
      · exact .bind amends_composes (amends_emitReloaded calls β) fun _ => .pure amends_composes _

theorem recordedBody_amends (fuel : Nat) (call : Call σ (Noted (List Edited) ε)) :
    Keeps (Amends m) (recordedBody run β m fuel call) := by
  have b := amends_bystander calls
  have hooks : Hooked (Amends m) β run := .of_client (amends_client calls) β
  have unrecorded : ∀ a, (a.isNoticed = true → Keeps (Amends m) (performAction run β fuel a)) →
      Keeps (Amends m) (performAction run β fuel a) := fun a =>
    b.performAction hooks fuel a trivial
  have either : ∀ {α : Type} {n : Nat} {p q : Proc (Recorded σ ε) α},
      Keeps (Amends m) p → (n ≠ m → Keeps (Amends m) q) →
      Keeps (Amends m) (if n = m then p else q) := by
    intro α n p q here there
    split
    · exact here
    · next other => exact there other
  cases call with
  | slot slot notice => exact b.onlooker.serve hooks.toAnswers slot notice fun _ => trivial
  | task t => exact b.runTask hooks t
  | subscription code => exact hooks.job code
  | action a =>
      cases a with
      | write n hooked name value =>
          exact either (recordWrite_amends calls β hooked name value) fun other =>
            (amends_scribe calls β other).write hooked name value
      | setProperty n name value =>
          exact either (recordProperty_amends calls β name value) fun other =>
            (amends_scribe calls β other).setProperty name value
      | setSilently n name value =>
          exact either (.modify fun w => amends_put name value) fun other =>
            .modify fun w => amends_updateModel other _
      | replaceAll n pairs =>
          exact either (.modify fun w => amends_replace pairs fun _ => rfl) fun other =>
            .modify fun w => amends_updateModel other _
      | clear n =>
          exact either (.modify fun w => amends_clear) fun other =>
            .modify fun w => amends_updateModel other _
      | initializeModel n =>
          exact either (recordInitialize_amends calls β) fun other =>
            (amends_scribe calls β other).initializeModel fun _ _ => amends_updateModel other _
      | resetModel n =>
          exact either (recordReset_amends calls β) fun other =>
            (amends_scribe calls β other).resetModel
      | change f => exact .modify fun w => amends_of_same rfl rfl
      | connect s slot d => exact connect_amends s slot d
      | inBackground a =>
          exact (inBackground_tracks amends_composes (fun _ _ => amends_of_same rfl rfl)
            ((tracks_self _).mpr (calls (.action a)))).keeps
      | _ => exact unrecorded _ nofun

/-! ### What an operation notes -/

omit calls in
/-- Some edit like this is noted, whatever else is. -/
def Jots (like : Edited → Prop) (w w' : Recorded σ ε) : Prop :=
  ∃ before e after, like e ∧ w'.client.notes = w.client.notes ++ before ++ e :: after

section Jotting

omit calls

variable {like like' : Edited → Prop}

theorem jots_noteEdit (u : Recorded σ ε) {e : Edit} {outcome : Option SetOutcome}
    (here : like ⟨e, outcome, (u.model m).store⟩) (same : u.client.notes = w.client.notes) :
    Jots like w (noteEdit m e outcome u) :=
  ⟨[], _, [], here, by simp [noteEdit, same]⟩

theorem Jots.later (before : Amends m w w₁) (jots : Jots like w₁ w') : Jots like w w' := by
  obtain ⟨log, noted, -⟩ := before
  obtain ⟨before, e, after, here, noted'⟩ := jots
  exact ⟨log ++ before, e, after, here, by simp [noted', noted]⟩

theorem Jots.earlier (jots : Jots like w w₁) (after : Amends m w₁ w') : Jots like w w' := by
  obtain ⟨before, e, between, here, noted⟩ := jots
  obtain ⟨log, noted', -⟩ := after
  exact ⟨before, e, between ++ log, here, by simp [noted', noted]⟩

theorem Jots.mono (jots : Jots like w w') (more : ∀ e, like e → like' e) : Jots like' w w' := by
  obtain ⟨before, e, after, here, noted⟩ := jots
  exact ⟨before, e, after, more e here, noted⟩

end Jotting

/-- A write notes an edit with the outcome that it returns. -/
theorem recordRevision_jots (name : String) (value : Value)
    {react : Value → Proc (Recorded σ ε) Unit} (reacts : ∀ old, Keeps (Amends m) (react old)) :
    Ends (recordRevision run m name value react) w fun r w' =>
      Jots (fun e => e.edit = .set name value true ∧ e.outcome = some r) w w' := by
  have emits : ∀ s notice, Keeps (Amends m) (emit run s notice) := (amends_bystander calls).emit
  refine .get_bind ?_
  dsimp only
  split
  · exact .modify_bind ((ends_pure _ _ _).mpr (jots_noteEdit w ⟨rfl, rfl⟩ rfl))
  · refine .modify_bind (.bind ((reacts _ _).mono fun _ w₁ reaction => ?_))
    refine .bind ((emits _ _ w₁).mono fun _ w₂ told => ?_)
    refine .bind ((emits _ _ w₂).mono fun _ w' told' => (ends_pure _ _ _).mpr ?_)
    have jots : Jots (fun e => e.edit = .set name value true ∧ e.outcome = some .changed) w
        (noteEdit m (.set name value true) (some .changed)
          (updateStore m (fun s => s.write name value) w)) :=
      jots_noteEdit _ ⟨rfl, rfl⟩ rfl
    exact ((jots.earlier reaction).earlier told).earlier told'

/-- An edit that writes a property, with an outcome. Without hooks every value is accepted. -/
def IsSet (hooked : Bool) (name : String) (value : Value) (r : SetOutcome) (e : Edited) : Prop :=
  ∃ accepted, (hooked = false → accepted = true) ∧ e.edit = .set name value accepted ∧
    e.outcome = some r

theorem recordWrite_jots (hooked : Bool) (name : String) (value : Value) :
    Ends (recordWrite run β m hooked name value) w fun r w' =>
      Jots (IsSet hooked name value r) w w' := by
  have revise : ∀ w₁, Ends (recordRevision run m name value fun old =>
      if hooked then run.client (β.afterSet m name old value) else pure ()) w₁ fun r w' =>
        Jots (IsSet hooked name value r) w₁ w' := fun w₁ =>
    (recordRevision_jots calls name value fun old =>
      .ite (amends_client calls _) (.pure amends_composes ())).mono fun r w' jots =>
        jots.mono fun e same => ⟨true, fun _ => rfl, same⟩
  unfold recordWrite
  cases hooked with
  | false => exact .bind_of_eq rfl (revise w)
  | true =>
      refine .bind ((amends_client calls _ w).mono fun accepted w₁ asked => ?_)
      cases accepted with
      | true => exact (revise w₁).mono fun _ _ jots => jots.later asked
      | false =>
          refine .modify_bind ((ends_pure _ _ _).mpr (.later asked ?_))
          exact jots_noteEdit w₁ ⟨false, nofun, rfl, rfl⟩ rfl

theorem recordProperty_jots (name : String) (value : Value) :
    Ends (recordProperty run β m name value) w fun r w' =>
      Jots (IsSet true name value r) w w' := by
  refine .bind ((recordWrite_jots calls β true name value).mono fun outcome w₁ jots => ?_)
  cases outcome with
  | changed =>
      have told : Keeps (Amends m) (emitValidity run β m) :=
        .look fun _ => (amends_bystander calls).emit _ _
      exact .bind ((told w₁).mono fun _ w' later => (ends_pure _ _ _).mpr (jots.earlier later))
  | unchanged | rejected => exact (ends_pure _ _ _).mpr jots

end Calls

theorem recorded_amends (β : Behaviour σ ε) (m depth : Nat)
    (call : Call σ (Noted (List Edited) ε)) : Keeps (Amends m) (recorded β m depth call) := by
  induction depth generalizing call with
  | zero =>
      intro w r w' h
      cases h
  | succ depth ih => exact recordedBody_amends ih _ depth call

end Ensemble

/-- The model whose properties an operation edits by itself. -/
def Action.edited? : Action σ ε → Option Nat
  | .write n .. | .setProperty n .. | .setSilently n .. | .replaceAll n .. | .clear n => some n
  | _ => none

/-- The edit is the one that an operation is for, and it came to what the operation returns. -/
def Action.Edits : (a : Action σ ε) → a.Result → Edited → Prop
  | .write _ hooked name value, r, e => Ensemble.IsSet hooked name value r e
  | .setProperty _ name value, r, e => Ensemble.IsSet true name value r e
  | .setSilently _ name value, _, e => e.edit = .put name value
  | .replaceAll _ pairs, _, e => e.edit = .replace pairs
  | .clear _, _, e => e.edit = .clear
  | _, _, _ => False

namespace Ensemble

open Proc

variable {m : Nat} {β : Behaviour σ ε}

/-- Every operation notes its edit. -/
theorem recorded_jots {depth : Nat} {a : Action σ (Noted (List Edited) ε)} {w : Recorded σ ε}
    (edits : a.edited? = some m) :
    Ends (recorded β m (depth + 1) (.action a)) w fun r w' => Jots (a.Edits r) w w' := by
  have calls := recorded_amends β m depth
  have here : ∀ {α : Type} {p q : Proc (Recorded σ ε) α} {post : α → Recorded σ ε → Prop},
      Ends p w post → Ends (if m = m then p else q) w post := fun ends => by
    rwa [if_pos rfl]
  have silent : ∀ {f : Recorded σ ε → Recorded σ ε} {q : Proc (Recorded σ ε) Unit}
      {like : Edited → Prop}, Jots like w (f w) →
      Ends (if m = m then modify f else q) w fun _ w' => Jots like w w' := fun jots =>
    here ((ends_modify _ _ _).mpr jots)
  cases a with
  | write n hooked name value =>
      cases edits
      exact here (recordWrite_jots calls (β.beside _) hooked name value)
  | setProperty n name value =>
      cases edits
      exact here (recordProperty_jots calls (β.beside _) name value)
  | setSilently | replaceAll | clear =>
      cases edits
      exact silent (jots_noteEdit _ rfl rfl)
  | _ => cases edits

/-- Whatever client code does to a model that holds no `null`, with whatever hooks and slots:
    its store holds no `null` in the end or after any edit, however it is looked at it shows the
    same, and its edits take it, one after another, wherever they take a partial map. Each
    operation makes its own edit, and each write returns what the map says that it comes to. -/
theorem store_refines_map (β : Behaviour σ ε) (m depth : Nat) :
    (∀ {ρ : Type} (code : Client σ ε ρ) (r : ρ) (w w' : Ensemble σ ε),
      Content.IsFull (w.model m).store.value? → (run β depth).client code w = some (r, w') →
      ∃ log, (recorded β m depth).client (code.beside _) (w.noted []) = some (r, w'.noted log) ∧
        Replays (w.model m).store.value? log (w'.model m).store.value? ∧
        (w'.model m).store.IsSound ∧ ∀ e ∈ log, e.left.IsSound) ∧
    (∀ a r (w w' : Recorded σ ε), a.edited? = some m →
      recorded β m (depth + 1) (.action a) w = some (r, w') →
      ∃ before e after, a.Edits r e ∧
        w'.client.notes = w.client.notes ++ before ++ e :: after) := by
  refine ⟨fun code r w w' full ran => ?_, fun a r w w' edits ran => recorded_jots edits r w' ran⟩
  obtain ⟨log, noted⟩ := exists_beside (bare_recorded β m depth) ran []
  obtain ⟨log', same, replays⟩ :=
    amends_client (recorded_amends β m depth) (code.beside _) _ _ _ noted
  obtain rfl : log = log' := same
  have replays := replays full
  obtain ⟨last, each⟩ := replays.full full
  exact ⟨log, noted, replays, Store.isSound_of_full last, fun e member =>
    Store.isSound_of_full (each e member)⟩

/-- A lock cannot be set. The model's hook keeps what the width was set to, and a slot removes
    the width when the depth has changed. -/
def guarded : Behaviour Nat Unit :=
  { Behaviour.plain with
    accepts := fun _ name _ => pure (name != "lock")
    afterSet := fun _ name _ new =>
      if name = "width" then Program.perform (Action.setSilently 0 "kept" new) else pure ()
    slot := fun _ notice =>
      match notice with
      | .property "depth" _ => do
        let _ ← Program.perform (Action.write 0 false "width" .null)
      | _ => pure () }

/-- A new model, and the slot. -/
def guardedStart : Ensemble Nat Unit :=
  setSignal (.modelProperty 0) (Signal.new.connect (.client 0) .direct).2 (.new ())

/-- Some writes, and a width is removed that is not there any more. -/
def draft : Client Nat Unit (List SetOutcome) := do
  let width ← Program.perform (Action.write 0 true "width" (.integer 2))
  let again ← Program.perform (Action.write 0 true "width" (.integer 2))
  let lock ← Program.perform (Action.write 0 true "lock" (.integer 2))
  let depth ← Program.perform (Action.write 0 false "depth" (.integer 2))
  let removed ← Program.perform (Action.write 0 true "width" .null)
  Program.perform (Action.replaceAll 0 [("width", .null), ("depth", .integer 3)])
  return [width, again, lock, depth, removed]

/-- The hook and the slot have edits of their own. -/
theorem edits_of_draft :
    ∃ (w' : Ensemble Nat Unit) (log : List Edited),
      (run guarded 8).client draft guardedStart =
        some ([.changed, .unchanged, .rejected, .changed, .unchanged], w') ∧
      (recorded guarded 0 8).client (draft.beside _) (guardedStart.noted []) =
        some ([.changed, .unchanged, .rejected, .changed, .unchanged], w'.noted log) ∧
      log.map (·.outcome) = [some .changed, none, some .unchanged, some .rejected, some .changed,
        some .changed, some .unchanged, none] ∧
      log.map (·.left.names) = [["width"], ["kept", "width"], ["kept", "width"],
        ["kept", "width"], ["depth", "kept", "width"], ["depth", "kept"], ["depth", "kept"],
        ["depth"]] ∧
      Replays (guardedStart.model 0).store.value? log (w'.model 0).store.value? ∧
      (w'.model 0).store.IsSound := by
  have ends : ((run guarded 8).client draft guardedStart).map (·.1) =
      some [.changed, .unchanged, .rejected, .changed, .unchanged] := by
    decide +kernel
  obtain ⟨⟨r, w'⟩, ran, rfl⟩ := Option.map_eq_some_iff.mp ends
  obtain ⟨log, noted, replays, sound, -⟩ :=
    (store_refines_map guarded 0 8).1 draft _ guardedStart w' (fun _ => nofun) ran
  have logged : ((recorded guarded 0 8).client (draft.beside _) (guardedStart.noted [])).map
      (fun x => x.2.client.notes.map fun e => (e.outcome, e.left.names)) =
      some [(some .changed, ["width"]), (none, ["kept", "width"]),
        (some .unchanged, ["kept", "width"]), (some .rejected, ["kept", "width"]),
        (some .changed, ["depth", "kept", "width"]), (some .changed, ["depth", "kept"]),
        (some .unchanged, ["depth", "kept"]), (none, ["depth"])] := by
    decide +kernel
  rw [noted] at logged
  have logged := Option.some.inj logged
  have outcomes := congrArg (List.map Prod.fst) logged
  have names := congrArg (List.map Prod.snd) logged
  rw [List.map_map] at outcomes names
  exact ⟨w', log, ran, noted, outcomes, names, replays, sound⟩

end Ensemble

end Mvc
