import Mathlib.Data.List.Perm.Basic
import Mvc.Ensemble.Handle
import Mvc.Ensemble.Run
import Mvc.Proofs.Procedure
import Mvc.Proofs.Registry
import Mvc.Proofs.State

/-! # Handles and the connections that they end

Slots are connected to a signal and disconnected, and handles are made on its connections, take
each other's place, go, or forget. A handle may be left when its connection has long been gone
and another one lives at the same index, or when the owner of the signal is gone.

What is done is kept in a history, with what it was answered, so the connections that ought to
stand can be read off the history. They are those that the signal has (`handles_unconfused`). So
what a handle ends is the connection that it was made on, if anything at all.
-/

namespace Mvc.Handling

open Ensemble Proc

variable {σ ε : Type}

/-! ## Deeds -/

/-- What is done to a signal, and to the handles on its connections. Handles are numbered in the
    order in which they are made. -/
inductive Deed (σ : Type) where
  | connect (slot : Slot σ) (delivery : Delivery)
  | disconnect (id : ConnectionId)
  | disconnectAll
  /-- A handle is made on a connection. -/
  | subscribe (id : ConnectionId)
  /-- A handle is made on a connection and takes the place of another one, which goes. -/
  | replace (handle : Nat) (id : ConnectionId)
  /-- A handle goes. -/
  | drop (handle : Nat)
  /-- A handle is told to end its subscription, and goes. -/
  | disconnectNow (handle : Nat)
  /-- A handle is told to forget its subscription, and goes. -/
  | forget (handle : Nat)
  /-- The owner of the signal goes. -/
  | close

/-- What comes of a deed. -/
inductive Answer where
  | made (id : ConnectionId)
  | found (found : Bool)
  | done
  /-- There is no such handle any more, or no owner. -/
  | impossible
  deriving DecidableEq

namespace Deed

/-- The handle that is used up. -/
def uses? : Deed σ → Option Nat
  | replace h _ | drop h | disconnectNow h | forget h => some h
  | _ => none

/-- Whether the owner of the signal has to be there. -/
def needsOwner : Deed σ → Bool
  | drop _ | disconnectNow _ | forget _ => false
  | _ => true

end Deed

/-- A deed that was done, what it was answered, and the signal before and after it. -/
structure Happening (σ : Type) where
  deed : Deed σ
  answer : Answer
  before : Signal (Slot σ)
  after : Signal (Slot σ)

/-- An ensemble, and the handles that were made as long as they are there. -/
structure Bench (σ ε : Type) where
  now : Ensemble σ ε
  handles : List (Option (Handle σ))

/-- Something is done to the ensemble. -/
def beside {α : Type} (p : Proc (Ensemble σ ε) α) : Proc (Bench σ ε) α :=
  fun b => (p b.now).map fun x => (x.1, { b with now := x.2 })

/-- A handle is made on a connection. -/
def hand (s : SignalRef) (id : ConnectionId) : Proc (Bench σ ε) Unit :=
  modify fun b => { b with handles := b.handles ++ [some (.new (.connection s id))] }

/-- Take a handle, if it is there. -/
def take (h : Nat) : Proc (Bench σ ε) (Option (Handle σ)) := do
  let handle := (← get).handles[h]?.join
  modify fun b => { b with handles := b.handles.set h none }
  return handle

section Perform

variable (run : Runner σ ε) (s : SignalRef)

/-- Do something as long as the owner of the signal is there. -/
def ifOpen (p : Proc (Bench σ ε) Answer) : Proc (Bench σ ε) Answer := do
  if ((← get).now.signal s).closed then return .impossible else p

/-- Take a handle, if it is there, and do something with it. -/
def spend (h : Nat) (rest : Handle σ → Proc (Bench σ ε) Unit) : Proc (Bench σ ε) Answer := do
  match ← take h with
  | some handle =>
    rest handle
    return .done
  | none => return .impossible

/-- What a deed does. -/
def perform : Deed σ → Proc (Bench σ ε) Answer
  | .connect slot delivery => ifOpen s do
    return .made (← beside (run (.action (.connect s slot delivery))))
  | .disconnect id => ifOpen s do
    return .found (← beside (run (.action (.disconnect s id))))
  | .disconnectAll => ifOpen s do
    beside (run (.action (.disconnectAll s)))
    return .done
  | .subscribe id => ifOpen s do
    hand s id
    return .done
  | .replace h id => ifOpen s (spend h fun old => do
    hand s id
    beside (run.client old.drop))
  | .drop h => spend h fun handle => beside (run.client handle.drop)
  | .disconnectNow h => spend h fun handle => beside (run.client handle.disconnect)
  | .forget h => spend h fun handle => beside (run.client handle.forget)
  | .close => ifOpen s do
    beside (run (.action (.close s)))
    return .done

/-- Deeds one after another, added to what happened before. The latest comes first. -/
def performAll : List (Deed σ) → List (Happening σ) → Proc (Bench σ ε) (List (Happening σ))
  | [], past => return past
  | deed :: rest, past => do
    let before := (← get).now.signal s
    let answer ← perform run s deed
    let after := (← get).now.signal s
    performAll rest (⟨deed, answer, before, after⟩ :: past)

end Perform

/-! ## Histories -/

namespace Happening

/-- The connection that was made. -/
def made? (e : Happening σ) : Option ConnectionId :=
  match e.answer with
  | .made id => some id
  | _ => none

/-- Whether a connection was named and found, and so removed. -/
def finds (id : ConnectionId) (e : Happening σ) : Bool :=
  match e.deed with
  | .disconnect i => i = id ∧ e.answer = .found true
  | _ => false

/-- The handle that was used up. -/
def usedUp? (e : Happening σ) : Option Nat :=
  match e.answer with
  | .impossible => none
  | _ => e.deed.uses?

/-- The connection that a handle was made on. -/
def target? (e : Happening σ) : Option ConnectionId :=
  match e.deed, e.answer with
  | .subscribe id, .done | .replace _ id, .done => some id
  | _, _ => none

end Happening

/-- The connections that were made. -/
def made (past : List (Happening σ)) : List ConnectionId := past.filterMap Happening.made?

/-- The connections that handles were made on, the first one first. -/
def targets : List (Happening σ) → List ConnectionId
  | [] => []
  | e :: past => targets past ++ e.target?.toList

/-- Whether a handle was made and has not been used up. -/
def isHeld (past : List (Happening σ)) (h : Nat) : Bool :=
  h < (targets past).length && past.all fun e => e.usedUp? ≠ some h

/-- Whether the owner of the signal is gone. -/
def isClosed : List (Happening σ) → Bool
  | [] => false
  | e :: past =>
    match e.deed, e.answer with
    | .close, .done => true
    | _, _ => isClosed past

/-- The connections that were made and not removed. -/
def standing : List (Happening σ) → ConnectionId → Option (Connection (Slot σ))
  | [], _ => none
  | e :: past, id =>
    match e.deed, e.answer with
    | .connect slot delivery, .made i => if id = i then some ⟨slot, delivery⟩ else standing past id
    | .disconnect i, .found _ => if id = i then none else standing past id
    | .disconnectAll, .done | .close, .done => none
    | .replace h _, .done | .drop h, .done | .disconnectNow h, .done =>
      if (targets past)[h]? = some id then none else standing past id
    | _, _ => standing past id

/-! ## What deeds do -/

variable {s : SignalRef} {b b' : Bench σ ε} {d : Deed σ} {answer : Answer}

/-- The bench with another signal. -/
def Bench.rewire (s : SignalRef) (x : Signal (Slot σ)) (b : Bench σ ε) : Bench σ ε :=
  { b with now := setSignal s x b.now }

/-- All that a deed can do. -/
inductive Does (s : SignalRef) (b : Bench σ ε) : Deed σ → Answer → Bench σ ε → Prop
  | connect (opened : (b.now.signal s).closed = false) (slot : Slot σ) (delivery : Delivery) :
      Does s b (.connect slot delivery) (.made ((b.now.signal s).connect slot delivery).1)
        (b.rewire s ((b.now.signal s).connect slot delivery).2)
  | disconnect (opened : (b.now.signal s).closed = false) (id : ConnectionId) :
      Does s b (.disconnect id) (.found ((b.now.signal s).disconnect id).1)
        (b.rewire s ((b.now.signal s).disconnect id).2)
  | disconnectAll (opened : (b.now.signal s).closed = false) :
      Does s b .disconnectAll .done (b.rewire s (b.now.signal s).disconnectAll)
  | close (opened : (b.now.signal s).closed = false) :
      Does s b .close .done (b.rewire s (b.now.signal s).close)
  | subscribe (opened : (b.now.signal s).closed = false) (id : ConnectionId) :
      Does s b (.subscribe id) .done
        { b with handles := b.handles ++ [some (.new (.connection s id))] }
  | replace (opened : (b.now.signal s).closed = false) {h : Nat} {id : ConnectionId}
      (held : b.handles[h]? = some (some (.new (.connection s id)))) (i : ConnectionId) :
      Does s b (.replace h i) .done ⟨setSignal s ((b.now.signal s).disconnect id).2 b.now,
        b.handles.set h none ++ [some (.new (.connection s i))]⟩
  | drop {h : Nat} {id : ConnectionId}
      (held : b.handles[h]? = some (some (.new (.connection s id)))) :
      Does s b (.drop h) .done
        ⟨setSignal s ((b.now.signal s).disconnect id).2 b.now, b.handles.set h none⟩
  | disconnectNow {h : Nat} {id : ConnectionId}
      (held : b.handles[h]? = some (some (.new (.connection s id)))) :
      Does s b (.disconnectNow h) .done
        ⟨setSignal s ((b.now.signal s).disconnect id).2 b.now, b.handles.set h none⟩
  | forget {h : Nat} {id : ConnectionId}
      (held : b.handles[h]? = some (some (.new (.connection s id)))) :
      Does s b (.forget h) .done { b with handles := b.handles.set h none }
  | impossible {d : Deed σ}
      (no : d.needsOwner = true ∧ (b.now.signal s).closed = true ∨
        ∃ h, d.uses? = some h ∧ b.handles[h]?.join = none) :
      Does s b d .impossible b

/-- The handles that are there are on connections of the signal, and have not detached them. -/
def Tied (s : SignalRef) (b : Bench σ ε) : Prop :=
  ∀ (h : Nat) (handle : Handle σ), b.handles[h]? = some (some handle) →
    ∃ id, handle = .new (.connection s id)

section Ends

variable {β : Behaviour σ ε} {depth : Nat}

theorem ifOpen_eq (p : Proc (Bench σ ε) Answer) (b : Bench σ ε) :
    ifOpen s p b = if (b.now.signal s).closed then some (.impossible, b) else p b := by
  show (if (b.now.signal s).closed then pure Answer.impossible else p : Proc (Bench σ ε) _) b = _
  split <;> rfl

/-- What takes the owner and does not find it is impossible. -/
theorem ends_ifOpen {p : Proc (Bench σ ε) Answer} (needs : d.needsOwner = true)
    (rest : (b.now.signal s).closed = false → ∃ answer b', p b = some (answer, b') ∧
      Does s b d answer b') :
    ∃ answer b', ifOpen s p b = some (answer, b') ∧ Does s b d answer b' := by
  rw [ifOpen_eq]
  cases closed : (b.now.signal s).closed with
  | true => exact ⟨_, _, rfl, .impossible (.inl ⟨needs, closed⟩)⟩
  | false => exact rest closed

theorem set_of_join_none {handles : List (Option (Handle σ))} {h : Nat}
    (gone : handles[h]?.join = none) : handles.set h none = handles := by
  by_cases inside : h < handles.length
  · have here : handles[h] = none := by simpa [inside] using gone
    rw [← here, List.set_getElem_self]
  · exact List.set_eq_of_length_le (Nat.le_of_not_lt inside)

theorem take_eq (h : Nat) (b : Bench σ ε) :
    take h b = some (b.handles[h]?.join, { b with handles := b.handles.set h none }) := rfl

/-- A handle is used up if it is there. -/
theorem ends_spend {h : Nat} {next : Handle σ → Proc (Bench σ ε) Unit} (tied : Tied s b)
    (uses : d.uses? = some h)
    (rest : ∀ id, b.handles[h]? = some (some (.new (.connection s id))) →
      ∃ b', next (.new (.connection s id)) { b with handles := b.handles.set h none } =
          some ((), b') ∧
        Does s b d .done b') :
    ∃ answer b', spend h next b = some (answer, b') ∧ Does s b d answer b' := by
  have taking := take_eq h b
  cases taken : b.handles[h]?.join with
  | none =>
      rw [taken, set_of_join_none taken] at taking
      exact ⟨.impossible, b, bind_eq_of_eq taking, .impossible (.inr ⟨h, uses, taken⟩)⟩
  | some handle =>
      have there := Option.join_eq_some_iff.mp taken
      obtain ⟨id, rfl⟩ := tied h handle there
      obtain ⟨b', done, does⟩ := rest id there
      rw [taken] at taking
      exact ⟨.done, b', (bind_eq_of_eq taking).trans (bind_eq_of_eq done), does⟩

theorem perform_ends (tied : Tied s b) (d : Deed σ) :
    ∃ answer b', perform (Ensemble.run β (depth + 1)) s d b = some (answer, b') ∧
      Does s b d answer b' := by
  cases d with
  | connect slot delivery =>
      exact ends_ifOpen rfl fun opened => ⟨_, _, rfl, .connect opened slot delivery⟩
  | disconnect id => exact ends_ifOpen rfl fun opened => ⟨_, _, rfl, .disconnect opened id⟩
  | disconnectAll => exact ends_ifOpen rfl fun opened => ⟨_, _, rfl, .disconnectAll opened⟩
  | subscribe id => exact ends_ifOpen rfl fun opened => ⟨_, _, rfl, .subscribe opened id⟩
  | close => exact ends_ifOpen rfl fun opened => ⟨_, _, rfl, .close opened⟩
  | drop h => exact ends_spend tied rfl fun id held => ⟨_, rfl, .drop held⟩
  | disconnectNow h => exact ends_spend tied rfl fun id held => ⟨_, rfl, .disconnectNow held⟩
  | forget h => exact ends_spend tied rfl fun id held => ⟨_, rfl, .forget held⟩
  | replace h i =>
      exact ends_ifOpen rfl fun opened =>
        ends_spend tied rfl fun id held => ⟨_, rfl, .replace opened held i⟩

end Ends

/-! ## The signal in the history -/

variable {past : List (Happening σ)} {e : Happening σ} {x x' : Signal (Slot σ)}

/-- The signal is as the history says. -/
structure Recorded (past : List (Happening σ)) (x : Signal (Slot σ)) : Prop where
  sound : x.Sound
  closed : x.closed = isClosed past
  stands : ∀ id, x.registry.get? id = standing past id
  settled : ∀ id ∈ made past, x.Settled (fun _ => True) id
  nodup : (made past).Nodup
  gone : ∀ e ∈ past, ∀ id, e.finds id = true → x.Settled (fun _ => False) id
  once : ∀ id, past.countP (·.finds id) ≤ 1

/-- The handles are as the history says. -/
structure Shelved (s : SignalRef) (past : List (Happening σ)) (handles : List (Option (Handle σ))) :
    Prop where
  there : ∀ h, handles[h]? = (targets past)[h]?.map fun id =>
    if isHeld past h then some (.new (.connection s id)) else none
  used : ∀ e ∈ past, ∀ h, e.usedUp? = some h → h < (targets past).length

theorem recorded_new : Recorded ([] : List (Happening σ)) (.new : Signal (Slot σ)) where
  sound := Signal.sound_new
  closed := rfl
  stands _ := rfl
  settled _ member := nomatch member
  nodup := List.nodup_nil
  gone _ member := nomatch member
  once _ := Nat.zero_le 1

theorem shelved_new : Shelved s ([] : List (Happening σ)) [] where
  there _ := rfl
  used _ member := nomatch member

/-- What a happening has to keep for the history to go on. -/
theorem Recorded.next (kept : Recorded past x) (sound : x'.Sound)
    (closed : x'.closed = isClosed (e :: past))
    (stands : ∀ id, x'.registry.get? id = standing (e :: past) id)
    (settles : ∀ (P : Slot σ → Prop) (id), x.Settled P id → x'.Settled P id)
    (made : ∀ id, e.made? = some id →
      ¬ x.Settled (fun _ => True) id ∧ x'.Settled (fun _ => True) id)
    (found : ∀ id, e.finds id = true →
      ¬ x.Settled (fun _ => False) id ∧ x'.Settled (fun _ => False) id) :
    Recorded (e :: past) x' where
  sound := sound
  closed := closed
  stands := stands
  settled := by
    intro id member
    cases makes : e.made? with
    | none =>
        rw [Handling.made, List.filterMap_cons_none makes] at member
        exact settles _ id (kept.settled id member)
    | some i =>
        rw [Handling.made, List.filterMap_cons_some makes] at member
        rcases List.mem_cons.mp member with rfl | earlier
        · exact (made id makes).2
        · exact settles _ id (kept.settled id earlier)
  nodup := by
    cases makes : e.made? with
    | none => rw [Handling.made, List.filterMap_cons_none makes]; exact kept.nodup
    | some i =>
        rw [Handling.made, List.filterMap_cons_some makes]
        refine List.nodup_cons.mpr ⟨fun earlier => ?_, kept.nodup⟩
        exact (made i makes).1 (kept.settled i earlier)
  gone := by
    intro e' member id finds
    rcases List.mem_cons.mp member with rfl | earlier
    · exact (found id finds).2
    · exact settles _ id (kept.gone e' earlier id finds)
  once := by
    intro id
    rw [List.countP_cons]
    cases finds : e.finds id with
    | false => exact kept.once id
    | true =>
        have never : past.countP (·.finds id) = 0 :=
          List.countP_eq_zero.mpr fun e' earlier again =>
            (found id finds).1 (kept.gone e' earlier id again)
        simp [never]

/-- A happening that makes no connection and finds none only has to keep the rest. -/
theorem Recorded.pass (kept : Recorded past x) (makes : e.made? = none)
    (finds : ∀ id, e.finds id = false) (sound : x'.Sound)
    (closed : x'.closed = isClosed (e :: past))
    (stands : ∀ id, x'.registry.get? id = standing (e :: past) id)
    (settles : ∀ (P : Slot σ → Prop) (id), x.Settled P id → x'.Settled P id) :
    Recorded (e :: past) x' :=
  kept.next sound closed stands settles (fun _ made => nomatch makes.symm.trans made)
    fun id found => nomatch (finds id).symm.trans found

theorem get?_connect (sound : x.Sound) (opened : x.closed = false) (slot : Slot σ)
    (delivery : Delivery) (id : ConnectionId) :
    (x.connect slot delivery).2.registry.get? id =
      if id = (x.connect slot delivery).1 then some ⟨slot, delivery⟩ else x.registry.get? id := by
  rw [Signal.connect_of_open opened]
  exact Registry.get?_insert sound.registry _ id

theorem get?_disconnect (x : Signal (Slot σ)) (i id : ConnectionId) :
    (x.disconnect i).2.registry.get? id = if id = i then none else x.registry.get? id :=
  Registry.get?_erase x.registry i id

theorem disconnect_fst (x : Signal (Slot σ)) (i : ConnectionId) :
    (x.disconnect i).1 = x.registry.contains i := by
  unfold Signal.disconnect Registry.erase
  cases x.registry.contains i <;> rfl

/-- What was found was there, and is there never again. -/
theorem settled_disconnect (kept : Recorded past x) {id : ConnectionId}
    (found : (x.disconnect id).1 = true) :
    ¬ x.Settled (fun _ => False) id ∧ (x.disconnect id).2.Settled (fun _ => False) id := by
  rw [disconnect_fst] at found
  refine ⟨fun settled => ?_, .inr (.inl (Registry.past_erase found))⟩
  obtain ⟨c, named⟩ := Option.isSome_iff_exists.mp found
  exact settled.property kept.sound (by rw [Signal.slot?, named]; rfl)

/-- A handle disconnects its connection, and no other one. -/
theorem Recorded.release (kept : Recorded past x) {h : Nat} {i : ConnectionId}
    (target : (targets past)[h]? = some i) (makes : e.made? = none)
    (finds : ∀ id, e.finds id = false) (closed : isClosed (e :: past) = isClosed past)
    (stands : ∀ id, standing (e :: past) id =
      if (targets past)[h]? = some id then none else standing past id) :
    Recorded (e :: past) (x.disconnect i).2 := by
  refine kept.pass makes finds (kept.sound.disconnect i) (kept.closed.trans closed.symm) ?_
    fun _ _ settled => settled.disconnect i
  intro id
  rw [get?_disconnect, kept.stands, stands, target]
  simp only [Option.some.injEq, eq_comm]

theorem signal_rewire (x : Signal (Slot σ)) (b : Bench σ ε) : (b.rewire s x).now.signal s = x := by
  rw [Bench.rewire, signal_setSignal, if_pos rfl]

/-- Whoever is on the shelf was put there and has not been used up. -/
theorem Shelved.of_there {handles : List (Option (Handle σ))} (shelved : Shelved s past handles)
    {h : Nat} {id : ConnectionId} (there : handles[h]? = some (some (.new (.connection s id)))) :
    (targets past)[h]? = some id ∧ isHeld past h = true := by
  rw [shelved.there h] at there
  obtain ⟨i, target, same⟩ := Option.map_eq_some_iff.mp there
  split at same
  · next held =>
      injection same with same
      injection same with same
      injection same with same
      injection same with _ same
      exact ⟨same ▸ target, held⟩
  · cases same

/-- The signal is as the history says after any deed. -/
theorem Does.recorded (does : Does s b d answer b') (kept : Recorded past (b.now.signal s))
    (shelved : Shelved s past b.handles) :
    Recorded (⟨d, answer, b.now.signal s, b'.now.signal s⟩ :: past) (b'.now.signal s) := by
  cases does with
  | connect opened slot delivery =>
      rw [signal_rewire]
      refine kept.next (kept.sound.connect slot delivery) ?_ ?_ ?_ ?_ ?_
      · rw [Signal.closed_connect]; exact kept.closed
      · intro id
        rw [get?_connect kept.sound opened, kept.stands]
        rfl
      · exact fun _ _ settled => settled.connect kept.sound slot delivery
      · rintro id ⟨⟩
        exact ⟨Signal.not_settled_connect kept.sound opened slot delivery,
          Signal.settled_connect kept.sound trivial delivery⟩
      · exact fun _ found => nomatch found
  | disconnect opened i =>
      rw [signal_rewire]
      refine kept.next (kept.sound.disconnect i) kept.closed ?_ ?_ ?_ ?_
      · intro id
        rw [get?_disconnect, kept.stands]
        rfl
      · exact fun _ _ settled => settled.disconnect i
      · exact fun _ made => nomatch made
      · intro id found
        obtain ⟨rfl, was⟩ := of_decide_eq_true found
        injection was with was
        exact settled_disconnect kept was
  | disconnectAll opened =>
      rw [signal_rewire]
      exact kept.pass rfl (fun _ => rfl) kept.sound.disconnectAll kept.closed
        (Registry.get?_clear kept.sound.registry)
        fun _ _ settled => settled.disconnectAll kept.sound
  | close opened =>
      rw [signal_rewire]
      exact kept.pass rfl (fun _ => rfl) (Signal.sound_close _) rfl (fun _ => rfl)
        fun P id _ => Signal.settled_close P _ id
  | subscribe | forget =>
      exact kept.pass rfl (fun _ => rfl) kept.sound kept.closed kept.stands
        fun _ _ settled => settled
  | replace opened held i =>
      rw [signal_setSignal, if_pos rfl]
      exact kept.release (shelved.of_there held).1 rfl (fun _ => rfl) rfl fun _ => rfl
  | drop held =>
      rw [signal_setSignal, if_pos rfl]
      exact kept.release (shelved.of_there held).1 rfl (fun _ => rfl) rfl fun _ => rfl
  | disconnectNow held =>
      rw [signal_setSignal, if_pos rfl]
      exact kept.release (shelved.of_there held).1 rfl (fun _ => rfl) rfl fun _ => rfl
  | impossible no =>
      refine kept.pass rfl ?_ kept.sound ?_ ?_ fun _ _ settled => settled
      · intro id; cases d <;> simp [Happening.finds]
      · cases d <;> exact kept.closed
      · cases d <;> exact kept.stands

/-! ## The handles in the history -/

theorem isHeld_eq_true {h : Nat} : isHeld past h = true ↔
    h < (targets past).length ∧ ∀ e ∈ past, e.usedUp? ≠ some h := by
  simp [isHeld]

theorem Shelved.length {handles : List (Option (Handle σ))} (shelved : Shelved s past handles) :
    handles.length = (targets past).length := by
  refine Nat.le_antisymm ?_ ?_ <;> refine Nat.le_of_not_lt fun less => ?_
  · have there := shelved.there (targets past).length
    rw [List.getElem?_eq_getElem less, List.getElem?_eq_none (Nat.le_refl _)] at there
    cases there
  · have there := shelved.there handles.length
    rw [List.getElem?_eq_none (Nat.le_refl _), List.getElem?_eq_getElem less] at there
    cases there

/-- What becomes of the handles. -/
def Happening.shelve (s : SignalRef) (e : Happening σ) (handles : List (Option (Handle σ))) :
    List (Option (Handle σ)) :=
  e.usedUp?.elim handles (fun h => handles.set h none) ++
    e.target?.toList.map fun id => some (.new (.connection s id))

/-- A handle may be used up, and another one made. -/
theorem Shelved.next {handles : List (Option (Handle σ))} (shelved : Shelved s past handles)
    (inside : ∀ h, e.usedUp? = some h → h < (targets past).length) :
    Shelved s (e :: past) (e.shelve s handles) where
  there h := by
    have length : (e.usedUp?.elim handles fun h => handles.set h none).length =
        (targets past).length := by
      rw [← shelved.length]
      cases e.usedUp? with
      | none => rfl
      | some _ => exact List.length_set
    rw [targets, Happening.shelve, List.getElem?_append, List.getElem?_append, length]
    by_cases old : h < (targets past).length
    · rw [if_pos old, if_pos old]
      by_cases uses : e.usedUp? = some h
      · have spent : isHeld (e :: past) h = false := by
          simp only [isHeld, List.all_cons, uses, ne_eq, not_true_eq_false, decide_false,
            Bool.false_and, Bool.and_false]
        simp [uses, spent, old, shelved.length]
      · have same : isHeld (e :: past) h = isHeld past h := by
          simp [isHeld, targets, uses, old, Nat.lt_add_right]
        have kept : (e.usedUp?.elim handles fun h => handles.set h none)[h]? = handles[h]? := by
          cases gone : e.usedUp? with
          | none => rfl
          | some k =>
              exact List.getElem?_set_ne fun other => uses (gone.trans (congrArg some other))
        rw [kept, same, shelved.there h]
    · -- Nobody has used up a handle before it was made.
      have fresh : ∀ e' ∈ e :: past, e'.usedUp? ≠ some h := by
        refine List.forall_mem_cons.mpr ⟨fun uses => old (inside h uses), ?_⟩
        exact fun e' earlier uses => old (shelved.used e' earlier h uses)
      rw [if_neg old, if_neg old, List.getElem?_map]
      refine Option.map_congr fun id there => ?_
      have held : isHeld (e :: past) h = true := by
        refine isHeld_eq_true.mpr ⟨?_, fresh⟩
        have := (List.getElem?_eq_some_iff.mp there).1
        rw [targets, List.length_append]
        omega
      rw [held, if_pos rfl]
  used e' member h uses := by
    rw [targets, List.length_append]
    rcases List.mem_cons.mp member with rfl | earlier
    · exact Nat.lt_add_right _ (inside h uses)
    · exact Nat.lt_add_right _ (shelved.used e' earlier h uses)

/-- The handles are as the history says after any deed. -/
theorem Does.shelved (does : Does s b d answer b') (shelved : Shelved s past b.handles) :
    Shelved s (⟨d, answer, b.now.signal s, b'.now.signal s⟩ :: past) b'.handles := by
  have shelves : b'.handles =
      Happening.shelve s ⟨d, answer, b.now.signal s, b'.now.signal s⟩ b.handles := by
    cases does <;>
      simp [Happening.shelve, Happening.usedUp?, Happening.target?, Deed.uses?, Bench.rewire]
  rw [shelves]
  refine shelved.next fun h uses => ?_
  have inside {h : Nat} {id : ConnectionId}
      (held : b.handles[h]? = some (some (.new (.connection s id)))) :
      h < (targets past).length :=
    (List.getElem?_eq_some_iff.mp (shelved.of_there held).1).1
  cases does with
  | replace _ held | drop held | disconnectNow held | forget held =>
      injection uses with same
      exact same ▸ inside held
  | _ => cases uses

/-! ## What a history says -/

theorem Shelved.tied (shelved : Shelved s past b.handles) : Tied s b := by
  intro h handle there
  rw [shelved.there h] at there
  obtain ⟨id, -, same⟩ := Option.map_eq_some_iff.mp there
  split at same
  · exact ⟨id, (Option.some.inj same).symm⟩
  · cases same

theorem Shelved.held_iff (shelved : Shelved s past b.handles) (h : Nat) :
    b.handles[h]?.join = none ↔ isHeld past h = false := by
  rw [shelved.there h]
  cases target : (targets past)[h]? with
  | none =>
      have outside := List.getElem?_eq_none_iff.mp target
      simp [isHeld, Nat.not_lt.mpr outside]
  | some id => cases isHeld past h <;> simp

/-- What stands stood before, unless it has just been made. -/
theorem standing_of_cons {id : ConnectionId} (stands : (standing (e :: past) id).isSome = true) :
    e.made? = some id ∨ (standing past id).isSome = true := by
  unfold standing at stands
  split at stands
  case h_1 slot delivery i deed answer =>
    split at stands
    · next same => exact .inl (by rw [Happening.made?, answer, same])
    · exact .inr stands
  case h_3 | h_4 => cases stands
  case h_8 => exact .inr stands
  all_goals
    split at stands
    · cases stands
    · exact .inr stands

/-- Only connections that were made stand. -/
theorem mem_made_of_standing {id : ConnectionId} (stands : (standing past id).isSome = true) :
    id ∈ made past := by
  induction past with
  | nil => cases stands
  | cons e past ih =>
      rcases standing_of_cons stands with makes | before
      · exact List.mem_filterMap.mpr ⟨e, List.mem_cons_self, makes⟩
      · obtain ⟨e', member, makes⟩ := List.mem_filterMap.mp (ih before)
        exact List.mem_filterMap.mpr ⟨e', List.mem_cons_of_mem e member, makes⟩

/-- The connections that a signal counts are those that were made and are there. -/
theorem Recorded.counted (kept : Recorded past x) :
    x.connectionCount = ((made past).filter x.isConnected).length := by
  have listed := Registry.entries_nodup x.registry
  rw [Signal.connectionCount, Registry.size, ← List.length_map (·.1)]
  refine List.Perm.length_eq ((List.perm_ext_iff_of_nodup listed (kept.nodup.filter _)).mpr ?_)
  intro id
  rw [List.mem_filter]
  constructor
  · intro member
    obtain ⟨⟨id, c⟩, entry, rfl⟩ := List.mem_map.mp member
    have there := Registry.mem_entries.mp entry
    have connected : x.isConnected id = true := by
      rw [Signal.isConnected, Registry.contains, there]
      rfl
    exact ⟨mem_made_of_standing (by rw [← kept.stands, there]; rfl), connected⟩
  · exact fun both => Registry.mem_entries_of_contains both.2

/-- How a happening fits what happened before it. -/
structure Fits (earlier : List (Happening σ)) (e : Happening σ) : Prop where
  /-- Before it and after it the connections are those that were made and not removed. -/
  before : ∀ id, e.before.registry.get? id = standing earlier id
  after : ∀ id, e.after.registry.get? id = standing (e :: earlier) id
  /-- Whoever disconnects is told whether the connection was there. -/
  found : ∀ id found, e.deed = .disconnect id → e.answer = .found found →
    found = (standing earlier id).isSome
  /-- What takes the owner of the signal, or a handle, does not go without. -/
  impossible : e.answer = .impossible ↔ e.deed.needsOwner = true ∧ isClosed earlier = true ∨
    ∃ h, e.deed.uses? = some h ∧ isHeld earlier h = false
  idle : e.answer = .impossible → e.after = e.before
  /-- A handle is used up once. -/
  once : ∀ h, e.usedUp? = some h → ∀ e' ∈ earlier, e'.usedUp? ≠ some h
  /-- A handle removes the connection that it was made on, and no other one, while the owner is
      there and the handle has not been told to forget it. -/
  own : ∀ h, e.deed.uses? = some h → ∀ id, e.after.registry.get? id ≠ e.before.registry.get? id →
    (targets earlier)[h]? = some id ∧ e.before.isConnected id = true ∧
      e.after.isConnected id = false ∧ isClosed earlier = false ∧ e.deed ≠ .forget h

/-- What ids and handles are good for. -/
structure Unconfused (s : SignalRef) (past : List (Happening σ)) (b : Bench σ ε) : Prop where
  /-- No id is given twice. -/
  distinct : (made past).Nodup
  /-- An id names the connection that was made with it, until that is removed. -/
  entry : ∀ id, (b.now.signal s).registry.get? id = standing past id
  connected : ∀ id, (b.now.signal s).isConnected id = (standing past id).isSome
  counted : (b.now.signal s).connectionCount =
    ((made past).filter (b.now.signal s).isConnected).length
  /-- A connection is found by its id once. -/
  found : ∀ id, past.countP (·.finds id) ≤ 1
  fits : ∀ later e earlier, past = later ++ e :: earlier → Fits earlier e

/-- Without effect is what lacks the owner, or the handle. -/
theorem Does.impossible_iff (does : Does s b d answer b') (kept : Recorded past (b.now.signal s))
    (shelved : Shelved s past b.handles) :
    answer = .impossible ↔ d.needsOwner = true ∧ isClosed past = true ∨
      ∃ h, d.uses? = some h ∧ isHeld past h = false := by
  rw [← kept.closed]
  simp only [← shelved.held_iff]
  constructor
  · rintro rfl
    cases does with
    | impossible no => exact no
  · intro no
    cases does with
    | impossible => rfl
    | connect opened | disconnect opened | disconnectAll opened | close opened | subscribe opened =>
        simp [opened, Deed.uses?] at no
    | replace opened held => simp [opened, Deed.uses?, held] at no
    | drop held | disconnectNow held | forget held => simp [Deed.uses?, Deed.needsOwner, held] at no

/-- Disconnecting changes what its id names, where that was connected. -/
theorem Recorded.of_disconnect (kept : Recorded past x) {i id : ConnectionId}
    (changed : (x.disconnect i).2.registry.get? id ≠ x.registry.get? id) :
    i = id ∧ x.isConnected id = true ∧ (x.disconnect i).2.isConnected id = false ∧
      isClosed past = false := by
  rw [get?_disconnect] at changed
  split at changed
  · next same =>
      obtain ⟨c, named⟩ := Option.ne_none_iff_exists'.mp changed.symm
      refine ⟨same.symm, ?_, ?_, ?_⟩
      · rw [Signal.isConnected, Registry.contains, named]
        rfl
      · rw [Signal.isConnected, Registry.contains, get?_disconnect, if_pos same]
        rfl
      · refine Bool.eq_false_iff.mpr fun closed => ?_
        rw [kept.sound.closed (kept.closed.trans closed)] at named
        cases named
  · exact absurd rfl changed

/-- Where a handle removes something, that is its own connection. -/
theorem Does.own (does : Does s b d answer b') (kept : Recorded past (b.now.signal s))
    (shelved : Shelved s past b.handles) {h : Nat} (uses : d.uses? = some h) {id : ConnectionId}
    (changed : (b'.now.signal s).registry.get? id ≠ (b.now.signal s).registry.get? id) :
    (targets past)[h]? = some id ∧ (b.now.signal s).isConnected id = true ∧
      (b'.now.signal s).isConnected id = false ∧ isClosed past = false ∧ d ≠ .forget h := by
  cases does with
  | replace _ held | drop held | disconnectNow held =>
      injection uses with same
      rw [signal_setSignal, if_pos rfl] at changed ⊢
      obtain ⟨rfl, connected, gone, opened⟩ := kept.of_disconnect changed
      exact ⟨same ▸ (shelved.of_there held).1, connected, gone, opened, nofun⟩
  | forget | impossible => exact absurd rfl changed
  | _ => cases uses

/-- Whoever disconnects is told whether the connection was there. -/
theorem Does.found (does : Does s b d answer b') (kept : Recorded past (b.now.signal s))
    {id : ConnectionId} {found : Bool} (deed : d = .disconnect id) (told : answer = .found found) :
    found = (standing past id).isSome := by
  cases does with
  | disconnect =>
      cases deed
      cases told
      rw [disconnect_fst, Registry.contains, kept.stands]
  | _ => cases told

theorem Does.fits (does : Does s b d answer b') (kept : Recorded past (b.now.signal s))
    (shelved : Shelved s past b.handles) :
    Fits past ⟨d, answer, b.now.signal s, b'.now.signal s⟩ where
  before := kept.stands
  after := (does.recorded kept shelved).stands
  found _ _ deed told := does.found kept deed told
  impossible := does.impossible_iff kept shelved
  idle told := by
    cases does with
    | impossible => rfl
    | _ => cases told
  once := by
    intro h uses
    cases does with
    | replace _ held | drop held | disconnectNow held | forget held =>
        injection uses with same
        exact (isHeld_eq_true.mp (same ▸ (shelved.of_there held).2)).2
    | _ => cases uses
  own _ uses _ changed := does.own kept shelved uses changed

/-- The signal and the handles are as the history says, and the history is as it should be. -/
structure Kept (s : SignalRef) (past : List (Happening σ)) (b : Bench σ ε) : Prop where
  recorded : Recorded past (b.now.signal s)
  shelved : Shelved s past b.handles
  fits : ∀ later e earlier, past = later ++ e :: earlier → Fits earlier e

theorem Kept.next (kept : Kept s past b) (does : Does s b d answer b') :
    Kept s (⟨d, answer, b.now.signal s, b'.now.signal s⟩ :: past) b' where
  recorded := does.recorded kept.recorded kept.shelved
  shelved := does.shelved kept.shelved
  fits := by
    intro later e earlier split
    cases later with
    | nil =>
        injection split with same rest
        subst same rest
        exact does.fits kept.recorded kept.shelved
    | cons _ later =>
        injection split with _ rest
        exact kept.fits later e earlier rest

theorem Kept.unconfused (kept : Kept s past b) : Unconfused s past b where
  distinct := kept.recorded.nodup
  entry := kept.recorded.stands
  connected id := by rw [Signal.isConnected, Registry.contains, kept.recorded.stands]
  counted := kept.recorded.counted
  found := kept.recorded.once
  fits := kept.fits

theorem performAll_of_perform {run : Runner σ ε} {rest : List (Deed σ)}
    (done : perform run s d b = some (answer, b')) :
    performAll run s (d :: rest) past b =
      performAll run s rest (⟨d, answer, b.now.signal s, b'.now.signal s⟩ :: past) b' := by
  show (perform run s d >>= fun answer => get >>= fun now => performAll run s rest
    (⟨d, answer, b.now.signal s, now.now.signal s⟩ :: past)) b = _
  rw [bind_eq_of_eq done]
  rfl

section Main

variable {start : Ensemble σ ε} (β : Behaviour σ ε) (depth : Nat)

/-- Any deeds can be done one after another. -/
theorem Kept.performed (deeds : List (Deed σ)) (kept : Kept s past b) :
    ∃ past' b', performAll (Ensemble.run β (depth + 1)) s deeds past b = some (past', b') ∧
      past'.map (·.deed) = deeds.reverse ++ past.map (·.deed) ∧ Kept s past' b' := by
  induction deeds generalizing past b with
  | nil => exact ⟨past, b, rfl, rfl, kept⟩
  | cons deed rest ih =>
      obtain ⟨answer, b₁, done, does⟩ := perform_ends (β := β) kept.shelved.tied deed
      obtain ⟨past', b', ran, deeds, kept'⟩ := ih (kept.next does)
      refine ⟨past', b', (performAll_of_perform done).trans ran, ?_, kept'⟩
      rw [deeds, List.reverse_cons, List.append_assoc]
      rfl

/-- Whatever is done to a signal and to handles on its connections, ids and handles mean what
    they were made for. -/
theorem handles_unconfused (deeds : List (Deed σ)) (new : start.signal s = .new) :
    ∃ past b, performAll (Ensemble.run β (depth + 1)) s deeds [] ⟨start, []⟩ =
        some (past, b) ∧
      past.map (·.deed) = deeds.reverse ∧ Unconfused s past b := by
  have kept : Kept s [] (⟨start, []⟩ : Bench σ ε) :=
    ⟨new ▸ recorded_new, shelved_new, fun _ _ _ none => absurd none (by simp)⟩
  obtain ⟨past, b, done, deeds, kept'⟩ := kept.performed β depth deeds
  exact ⟨past, b, done, by rw [deeds, List.map_nil, List.append_nil], kept'.unconfused⟩

end Main

/-- A connection is disconnected while there is a handle on it, and another one takes its index.
    The second handle forgets its connection, the third one is there when the owner is gone. -/
def reusing : List (Deed Unit) :=
  [.connect (.client ()) .direct, .subscribe ⟨0, 1⟩, .disconnect ⟨0, 1⟩,
    .connect (.client ()) .direct, .drop 0, .disconnect ⟨0, 1⟩, .subscribe ⟨0, 2⟩, .forget 1,
    .subscribe ⟨0, 2⟩, .close, .drop 2, .drop 2, .disconnectAll]

theorem unconfused_of_reuse :
    ∃ past b, performAll (Ensemble.run (.plain : Behaviour Unit Unit) 1) (.channel 0) reusing []
        ⟨.new (), []⟩ = some (past, b) ∧
      past.map (·.answer) = [.impossible, .impossible, .done, .done, .done, .done, .done,
        .found false, .done, .made ⟨0, 2⟩, .found true, .done, .made ⟨0, 1⟩] ∧
      Unconfused (.channel 0) past b := by
  obtain ⟨past, b, done, -, unconfused⟩ :=
    @handles_unconfused Unit Unit (.channel 0) (.new ()) .plain 0 reusing rfl
  have answers : (performAll (Ensemble.run (.plain : Behaviour Unit Unit) 1) (.channel 0) reusing []
      ⟨.new (), []⟩).map (fun x => x.1.map (·.answer)) = some [.impossible, .impossible, .done,
        .done, .done, .done, .done, .found false, .done, .made ⟨0, 2⟩, .found true, .done,
        .made ⟨0, 1⟩] := by
    decide +kernel
  rw [done] at answers
  exact ⟨past, b, done, Option.some.inj answers, unconfused⟩

end Mvc.Handling
