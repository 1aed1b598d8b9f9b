import Mvc.Proofs.Registry
import Mvc.Proofs.State
import Mvc.Proofs.Watch

/-! # The chronicle is made of episodes

An episode is one write or one filling of the model, with all that happens inside: the episodes
of the hook, then those of the slots that hear of the property, then those of the slots that
hear of the data. Whatever is done while the model's signals are spared, the chronicle grows by
whole episodes (`watcher_watch`).
-/

namespace Mvc

variable {σ ε κ : Type}

/-! ## Episodes -/

/-- A write or a filling of a model. -/
inductive Episode where
  /-- A value was refused, or it was there already. -/
  | idle (door : Door) (accepted : Bool)
  /-- A write changed the store. Inside, hooks and slots caused other episodes. In the end the
      model was valid, or it was not. -/
  | done (door : Door) (name : String) (old new : Value) (hook property data : List Episode)
    (valid : Bool)
  /-- The model was filled with its defaults. -/
  | filled (data : List Episode) (valid : Bool)

namespace Chronicle

/-- What a write writes down, given what is written down inside. -/
def written (hooked : Bool) (name : String) (old new : Value) (hook property data : Chronicle) :
    Chronicle :=
  (if hooked then tell (.reacted name old new) ++ hook else empty) ++
    (tell (.property name new) ++ property ++ (tell .data ++ data))

/-- What a write through the model adds. -/
def judged (door : Door) (valid : Bool) : Chronicle :=
  match door with
  | .model => tell (.validity valid valid)
  | .store _ => empty

end Chronicle

namespace Episode

mutual

/-- What is written down of an episode. -/
def log : Episode → Chronicle
  | idle door accepted => .wrote door (if accepted then .unchanged else .rejected)
  | done door name old new hook property data valid =>
    .written door.isHooked name old new (logs hook) (logs property) (logs data) ++
      .judged door valid ++ .wrote door .changed
  | filled data valid => .tell .data ++ logs data ++ .tell (.validity valid valid) ++ .filled

/-- What is written down of episodes, one after another. -/
def logs : List Episode → Chronicle
  | [] => .empty
  | e :: rest => e.log ++ logs rest

end

theorem logs_append (a b : List Episode) : logs (a ++ b) = logs a ++ logs b := by
  induction a with
  | nil => simp [logs]
  | cons e rest ih => simp [logs, ih, Chronicle.append_assoc]

@[simp] theorem logs_singleton (e : Episode) : logs [e] = e.log := by simp [logs]

end Episode

/-! ## What signals carry -/

namespace Signal

/-- Every connected slot has a property. -/
def Carries (P : κ → Prop) (x : Signal κ) : Prop :=
  ∀ cell ∈ x.registry.cells, ∀ c, cell.content = some c → P c.slot

variable {P : κ → Prop} {x : Signal κ}

theorem Carries.connections (carries : x.Carries P) : ∀ e ∈ x.connections, P e.2.slot := by
  intro e member
  have found := Registry.get?_eq_some.mp (Registry.mem_entries.mp member)
  exact carries _ (List.mem_of_getElem? found) _ rfl

theorem Carries.erase {r : Registry (Connection κ)}
    (carries : ∀ cell ∈ r.cells, ∀ c, cell.content = some c → P c.slot) (id : ConnectionId) :
    ∀ cell ∈ (r.erase id).2.cells, ∀ c, cell.content = some c → P c.slot := by
  intro cell member c content
  unfold Registry.erase at member
  split at member
  · rcases List.mem_or_eq_of_mem_set member with old | rfl
    · exact carries cell old c content
    · cases content
  · exact carries cell member c content

theorem Carries.disconnect (carries : x.Carries P) (id : ConnectionId) :
    (x.disconnect id).2.Carries P :=
  Carries.erase carries id

theorem Carries.disconnectAll (carries : x.Carries P) : x.disconnectAll.Carries P := by
  show ∀ cell ∈ (x.registry.entries.foldl (fun r entry => (r.erase entry.1).2) x.registry).cells, _
  have start : ∀ cell ∈ x.registry.cells, ∀ c, cell.content = some c → P c.slot := carries
  generalize x.registry.entries = entries at *
  generalize x.registry = r at *
  induction entries generalizing r with
  | nil => exact start
  | cons e rest ih => exact ih _ (Carries.erase start e.1)

theorem carries_close (x : Signal κ) : x.close.Carries P := by
  intro cell member
  cases member

theorem Carries.connect (carries : x.Carries P) {k : κ} (holds : P k) (d : Delivery) :
    (x.connect k d).2.Carries P := by
  unfold Signal.connect
  split
  · exact carries
  · intro cell member c content
    simp only [Registry.insert] at member
    split at member
    · rcases List.mem_or_eq_of_mem_set member with old | rfl
      · exact carries cell old c content
      · cases content
        exact holds
    · rcases List.mem_append.mp member with old | new
      · exact carries cell old c content
      · rw [List.mem_singleton.mp new] at content
        cases content
        exact holds

theorem blocked_connect (x : Signal κ) (k : κ) (d : Delivery) :
    (x.connect k d).2.blocked = x.blocked := by
  unfold Signal.connect
  split <;> rfl

end Signal

namespace Ensemble

open Proc

/-- A model's signals are open, and those who hear of its validity are quiet. -/
structure Spared (m : Nat) (quiet : σ → Bool) (w : Ensemble σ ε) : Prop where
  unblocked : ∀ s, s.isOf m = true → (w.signal s).blocked = false
  quiet : (w.signal (.modelValidity m)).Carries (·.isQuiet quiet = true)

variable {m : Nat} {quiet : σ → Bool} {fills : Bool}
  {w w₁ w' : Ensemble σ (Noted Chronicle ε)}

/-- What is written down is added. -/
structure Adds (m : Nat) (quiet : σ → Bool) (c : Chronicle)
    (w w' : Ensemble σ (Noted Chronicle ε)) : Prop where
  spared : Spared m quiet w'
  notes : w'.client.notes = w.client.notes ++ c

/-- The chronicle grows by whole episodes, which are no fillings if there may be none. -/
def Grows (m : Nat) (quiet : σ → Bool) (fills : Bool) (w w' : Ensemble σ (Noted Chronicle ε)) :
    Prop :=
  Spared m quiet w → ∃ episodes, Adds m quiet (Episode.logs episodes) w w' ∧
    (fills = false → (Episode.logs episodes).fillings = 0)

theorem Adds.trans {a b : Chronicle} (first : Adds m quiet a w w₁) (second : Adds m quiet b w₁ w') :
    Adds m quiet (a ++ b) w w' where
  spared := second.spared
  notes := by rw [second.notes, first.notes, Chronicle.append_assoc]

theorem grows_composes : Composes (Grows (σ := σ) (ε := ε) m quiet fills) where
  refl w spared := ⟨[], ⟨spared, (Chronicle.append_empty _).symm⟩, fun _ => rfl⟩
  trans := by
    intro a b c first second spared
    obtain ⟨episodes, adds, none⟩ := first spared
    obtain ⟨episodes', adds', none'⟩ := second adds.spared
    refine ⟨episodes ++ episodes', ?_, ?_⟩
    · rw [Episode.logs_append]
      exact adds.trans adds'
    · intro never
      rw [Episode.logs_append, Chronicle.fillings_append, none never, none' never]

/-! ## Changes that write nothing down -/

/-- Nothing is written down, no signal of the model is blocked, and only quiet slots hear of
    its validity. -/
structure Gentle (m : Nat) (quiet : σ → Bool) (w w' : Ensemble σ (Noted Chronicle ε)) :
    Prop where
  notes : w'.client.notes = w.client.notes
  spared : Spared m quiet w → Spared m quiet w'

theorem Gentle.adds (gentle : Gentle m quiet w w') (spared : Spared m quiet w) :
    Adds m quiet .empty w w' :=
  ⟨gentle.spared spared, gentle.notes.trans (Chronicle.append_empty _).symm⟩

theorem Gentle.grows (gentle : Gentle m quiet w w') : Grows m quiet fills w w' :=
  fun spared => ⟨[], gentle.adds spared, fun _ => rfl⟩

theorem Spared.of_signals {ε' : Type} {w : Ensemble σ ε} {w' : Ensemble σ ε'}
    (spared : Spared m quiet w) (signals : ∀ s, w'.signal s = w.signal s) :
    Spared m quiet w' where
  unblocked s own := by rw [signals, spared.unblocked s own]
  quiet := by
    rw [signals]
    exact spared.quiet

theorem gentle_of_signals (signals : ∀ s, w'.signal s = w.signal s)
    (notes : w'.client.notes = w.client.notes) : Gentle m quiet w w' :=
  ⟨notes, fun spared => spared.of_signals signals⟩

theorem gentle_setSignal (w : Ensemble σ (Noted Chronicle ε)) (s : SignalRef)
    {x : Signal (Slot σ)}
    (blocked : s.isOf m = true → (w.signal s).blocked = false → x.blocked = false)
    (carries : s = .modelValidity m → (w.signal s).Carries (·.isQuiet quiet = true) →
      x.Carries (·.isQuiet quiet = true)) : Gentle m quiet w (setSignal s x w) := by
  refine ⟨by rw [client_setSignal], fun spared => ⟨?_, ?_⟩⟩
  · intro t own
    rw [signal_setSignal]
    split
    · next same =>
        subst same
        exact blocked own (spared.unblocked t own)
    · exact spared.unblocked t own
  · rw [signal_setSignal]
    split
    · next same =>
        subst same
        exact carries rfl spared.quiet
    · exact spared.quiet

theorem gentle_updateModel (w : Ensemble σ (Noted Chronicle ε)) (n : Nat)
    {f : Model σ → Model σ} (deaf : ∀ o, (f o).propertyChanged = o.propertyChanged ∧
      (f o).dataChanged = o.dataChanged ∧ (f o).validityChanged = o.validityChanged) :
    Gentle m quiet w (updateModel n f w) :=
  gentle_of_signals (signal_updateModel w n deaf) rfl

theorem gentle_store (w : Ensemble σ (Noted Chronicle ε)) (n : Nat) (f : Store → Store) :
    Gentle m quiet w (updateStore n f w) :=
  gentle_updateModel w n fun _ => ⟨rfl, rfl, rfl⟩

/-- A change of a view that spares models. -/
theorem gentle_updateView (w : Ensemble σ (Noted Chronicle ε)) (v : Nat) (f : View σ → View σ) :
    Gentle m quiet w (updateView v f w) := by
  refine ⟨rfl, fun spared => ⟨fun s own => ?_, spared.quiet⟩⟩
  have before := spared.unblocked s own
  cases s <;> first | exact before | cases own

/-- A change of a controller that spares models. -/
theorem gentle_updateController (w : Ensemble σ (Noted Chronicle ε)) (c : Nat)
    (f : Controller σ → Controller σ) : Gentle m quiet w (updateController c f w) := by
  refine ⟨rfl, fun spared => ⟨fun s own => ?_, spared.quiet⟩⟩
  have before := spared.unblocked s own
  cases s <;> first | exact before | cases own

theorem gentle_updateDispatcher (w : Ensemble σ (Noted Chronicle ε)) (d : Nat)
    (f : Dispatcher (Task σ) → Dispatcher (Task σ)) :
    Gentle m quiet w (updateDispatcher d f w) :=
  gentle_of_signals (signal_updateDispatcher w d f) rfl

theorem gentle_thread (w : Ensemble σ (Noted Chronicle ε)) (thread : Thread) :
    Gentle m quiet w { w with thread } :=
  gentle_of_signals (signal_setThread w thread) rfl

/-! ## Operations -/

variable {α : Type}

theorem grown_pure (r : α) : Tracks (Grows (σ := σ) (ε := ε) m quiet fills) (pure r) (pure r) :=
  .pure grows_composes r

theorem grown_modify {f : Ensemble σ (Noted Chronicle ε) → Ensemble σ (Noted Chronicle ε)}
    (gentle : ∀ w, Gentle m quiet w (f w)) :
    Tracks (Grows m quiet fills) (modify f) (modify f) :=
  .modify fun w => (gentle w).grows

/-- What comes after a change. -/
theorem grown_after {f : Ensemble σ (Noted Chronicle ε) → Ensemble σ (Noted Chronicle ε)}
    {p q : Unit → Proc (Ensemble σ (Noted Chronicle ε)) α}
    (gentle : ∀ w, Gentle m quiet w (f w)) (rest : Tracks (Grows m quiet fills) (p ()) (q ())) :
    Tracks (Grows m quiet fills) (modify f >>= p) (modify f >>= q) :=
  .bind grows_composes (grown_modify gentle) fun _ => rest

theorem grown_look {p q : Ensemble σ (Noted Chronicle ε) → Proc (Ensemble σ (Noted Chronicle ε)) α}
    (rest : ∀ w, Tracks (Grows m quiet fills) (p w) (q w)) :
    Tracks (Grows m quiet fills) (get >>= p) (get >>= q) :=
  .bind grows_composes (.get grows_composes) rest

theorem grown_connect (s : SignalRef) (slot : Slot σ) (delivery : Delivery)
    (allowed : s = .modelValidity m → slot.isQuiet quiet = true) :
    Tracks (Grows (ε := ε) m quiet fills) (connect s slot delivery)
      (connect s slot delivery) := by
  intro w r w' h
  have gentle : Gentle m quiet w (setSignal s ((w.signal s).connect slot delivery).2 w) := by
    refine gentle_setSignal w s (fun _ opened => ?_) fun same carries => ?_
    · exact (Signal.blocked_connect _ _ _).trans opened
    · exact carries.connect (allowed same) delivery
  cases h
  exact ⟨rfl, gentle.grows⟩

theorem grown_disconnect (s : SignalRef) (i : ConnectionId) :
    Tracks (Grows (σ := σ) (ε := ε) m quiet fills) (disconnect s i) (disconnect s i) := by
  intro w r w' h
  have gentle : Gentle m quiet w (setSignal s ((w.signal s).disconnect i).2 w) :=
    gentle_setSignal w s (fun _ opened => opened) fun _ carries => carries.disconnect i
  cases h
  exact ⟨rfl, gentle.grows⟩

theorem grown_changeSignal (s : SignalRef) (f : Signal (Slot σ) → Signal (Slot σ))
    (blocked : s.isOf m = true → ∀ x, x.blocked = false → (f x).blocked = false)
    (carries : ∀ x : Signal (Slot σ), x.Carries (·.isQuiet quiet = true) →
      (f x).Carries (·.isQuiet quiet = true)) :
    Tracks (Grows (ε := ε) m quiet fills) (changeSignal s f) (changeSignal s f) :=
  grown_modify fun w => gentle_setSignal w s (fun own => blocked own _) fun _ => carries _

section Operations

variable {run : Runner σ (Noted Chronicle ε)}
  (calls : ∀ call, Tracks (Grows m quiet fills) (run call) (run call))
include calls

theorem grown_client {ρ : Type} (code : Client σ (Noted Chronicle ε) ρ) :
    Tracks (Grows m quiet fills) (run.client code) (run.client code) :=
  .program grows_composes (fun a => calls (.action a)) code

theorem grown_emit (s : SignalRef) (notice : Notice) :
    Tracks (Grows m quiet fills) (emit run s notice) (emit run s notice) :=
  emit_tracks grows_composes s notice (fun _ => calls _) fun w d _ =>
    (gentle_updateDispatcher w d _).grows

theorem grown_release (subscription : Subscription σ) :
    Tracks (Grows m quiet fills) (release run subscription) (release run subscription) := by
  cases subscription with
  | connection s i => exact .bind grows_composes (grown_disconnect s i) fun _ => grown_pure ()
  | client code => exact calls _

theorem grown_releaseAll (subscriptions : List (Subscription σ)) :
    Tracks (Grows m quiet fills) (releaseAll run subscriptions)
      (releaseAll run subscriptions) := by
  induction subscriptions with
  | nil => exact grown_pure ()
  | cons first rest ih => exact .bind grows_composes (grown_release calls first) fun _ => ih

/-! ### Lifetimes -/

theorem grown_collectView (v : Nat) :
    Tracks (Grows m quiet fills) (collectView run v) (collectView run v) := by
  refine grown_look fun w => .ite (grown_pure ()) ?_
  exact grown_after (fun w => gentle_updateView w v _) (grown_releaseAll calls _)

theorem grown_collectController (c : Nat) :
    Tracks (Grows m quiet fills) (collectController run c) (collectController run c) := by
  refine grown_look fun w => .ite (grown_pure ()) ?_
  refine grown_after (fun w => gentle_updateController w c _) ?_
  cases (w.controller c).view with
  | some v =>
      refine .bind grows_composes (grown_collectView calls v) fun _ => ?_
      refine .bind grows_composes (grown_releaseAll calls _) fun _ => ?_
      exact grown_modify fun w => gentle_updateController w c _
  | none =>
      refine .bind grows_composes (grown_releaseAll calls _) fun _ => ?_
      exact grown_modify fun w => gentle_updateController w c _

variable {p q : Proc (Ensemble σ (Noted Chronicle ε)) α}

theorem grown_holdingController (c : Nat) (grown : Tracks (Grows m quiet fills) p q) :
    Tracks (Grows m quiet fills) (holdingController run c p) (holdingController run c q) := by
  refine grown_after (fun w => gentle_updateController w c _) ?_
  refine .bind grows_composes grown fun r => ?_
  refine grown_after (fun w => gentle_updateController w c _) ?_
  exact .bind grows_composes (grown_collectController calls c) fun _ => grown_pure r

theorem grown_holdingView (v : Nat) (grown : Tracks (Grows m quiet fills) p q) :
    Tracks (Grows m quiet fills) (holdingView run v p) (holdingView run v q) := by
  refine grown_after (fun w => gentle_updateView w v _) ?_
  refine .bind grows_composes grown fun r => ?_
  refine grown_after (fun w => gentle_updateView w v _) ?_
  exact .bind grows_composes (grown_collectView calls v) fun _ => grown_pure r

theorem grown_holdingView? (v : Option Nat) (grown : Tracks (Grows m quiet fills) p q) :
    Tracks (Grows m quiet fills) (holdingView? run v p) (holdingView? run v q) := by
  cases v with
  | some v => exact grown_holdingView calls v grown
  | none => exact grown

theorem grown_dropController (c : Nat) :
    Tracks (Grows m quiet fills) (dropController run c) (dropController run c) := by
  refine grown_look fun w => .ite ?_ (grown_pure ())
  exact grown_after (fun w => gentle_updateController w c _) (grown_collectController calls c)

theorem grown_dropView (v : Nat) :
    Tracks (Grows m quiet fills) (dropView run v) (dropView run v) := by
  refine grown_look fun w => .ite ?_ (grown_pure ())
  exact grown_after (fun w => gentle_updateView w v _) (grown_collectView calls v)

/-! ### Binding -/

variable (β : Behaviour σ (Noted Chronicle ε))

theorem grown_bindings (c : Nat) :
    Tracks (Grows m quiet fills) (establishBindings run β c) (establishBindings run β c) := by
  refine .bind grows_composes (grown_client calls _) fun _ => grown_look fun w => ?_
  exact grown_after (fun w => gentle_updateController w c _) (grown_releaseAll calls _)

theorem grown_keeper : Keeper (Grows m quiet fills) β run run where
  order := grows_composes
  action a := calls (.action a)
  drain d fuel := drain_tracks grows_composes (fun _ => calls _)
    (fun w d f => (gentle_updateDispatcher w d f).grows) d fuel
  emit s notice _ := grown_emit calls s notice
  thread w t := (gentle_thread w t).grows
  post w d _ := (gentle_updateDispatcher w d _).grows
  model w n _ _ := (gentle_updateModel w n (by exact fun _ => ⟨rfl, rfl, rfl⟩)).grows
  view w v _ _ := (gentle_updateView w v _).grows
  initialized w c := (gentle_updateController w c _).grows
  bindings c := grown_bindings calls β c
  holdingController c _ _ tracks := grown_holdingController calls c tracks
  holdingView v _ _ tracks := grown_holdingView calls v tracks

theorem grown_attach (v : Nat) (c : Option Nat) :
    Tracks (Grows m quiet fills) (attach run v c) (attach run v c) := by
  refine grown_look fun w => .ite (grown_pure ()) ?_
  refine grown_after (fun w => gentle_updateView w v _) ?_
  refine .bind grows_composes (grown_releaseAll calls _) fun _ => ?_
  cases c with
  | none => exact grown_pure ()
  | some c =>
      have subscribed : Tracks (Grows (ε := ε) m quiet fills)
          (subscribeToController v c) (subscribeToController v c) := by
        refine .bind grows_composes (grown_connect _ _ _ (by simp)) fun _ => ?_
        refine .bind grows_composes (grown_connect _ _ _ (by simp)) fun _ => ?_
        refine .bind grows_composes (grown_connect _ _ _ (by simp)) fun _ => ?_
        exact grown_pure _
      refine .bind grows_composes subscribed fun _ => ?_
      exact grown_modify fun w => gentle_updateView w v _

theorem grown_setModel (c : Nat) (n : Option Nat) :
    Tracks (Grows m quiet fills) (setModel run β c n) (setModel run β c n) := by
  have announced := Tracks.bind grows_composes ((grown_keeper calls β).rebindIfReady c) fun _ =>
    (grown_keeper calls β).emitPhase c
  refine grown_look fun w => .ite (grown_pure ()) ?_
  refine grown_after (fun w => gentle_updateController w c _) ?_
  refine .bind grows_composes (grown_releaseAll calls _) fun _ => ?_
  refine .bind grows_composes (grown_releaseAll calls _) fun _ => ?_
  cases n with
  | none => exact announced
  | some n =>
      have subscribed : Tracks (Grows (ε := ε) m quiet fills)
          (subscribeToModel c n) (subscribeToModel c n) := by
        refine grown_look fun w => ?_
        exact .bind grows_composes (grown_connect _ _ _ (by simp)) fun _ => grown_pure _
      refine .bind grows_composes subscribed fun _ => grown_look fun w => ?_
      refine grown_after (fun w => gentle_updateController w c _) ?_
      exact .bind grows_composes (grown_releaseAll calls _) fun _ => announced

theorem grown_setView (c : Nat) (v : Option Nat) :
    Tracks (Grows m quiet fills) (setView run β c v) (setView run β c v) := by
  have announced := Tracks.bind grows_composes ((grown_keeper calls β).rebindIfReady c) fun _ =>
    (grown_keeper calls β).emitPhase c
  refine grown_look fun w => .ite (grown_pure ()) ?_
  refine .bind grows_composes (grown_holdingView? calls _ ?_) fun _ => ?_
  · refine grown_after (fun w => gentle_updateController w c _) ?_
    refine .bind grows_composes (grown_releaseAll calls _) fun _ => ?_
    refine .bind grows_composes (grown_releaseAll calls _) fun _ => ?_
    cases (w.controller c).view with
    | none => exact grown_pure ()
    | some old => exact grown_look fun w => .ite (grown_attach calls old none) (grown_pure ())
  · cases v with
    | none => exact announced
    | some v =>
        have subscribed : Tracks (Grows (ε := ε) m quiet fills)
            (subscribeToView c v) (subscribeToView c v) := by
          refine .bind grows_composes (grown_connect _ _ _ (by simp)) fun _ => ?_
          refine .bind grows_composes (grown_connect _ _ _ (by simp)) fun _ => ?_
          refine .bind grows_composes (grown_connect _ _ _ (by simp)) fun _ => ?_
          exact grown_pure _
        refine .bind grows_composes subscribed fun _ => grown_look fun w => ?_
        refine grown_after (fun w => gentle_updateController w c _) ?_
        refine .bind grows_composes (grown_releaseAll calls _) fun _ => ?_
        exact .bind grows_composes (grown_attach calls v (some c)) fun _ => announced

/-! ### Calls -/

/-- An action that spares the model, unless it is one that is watched. -/
theorem grown_performAction (fuel : Nat) {a : Action σ (Noted Chronicle ε)}
    (spares : a.spares m quiet fills = true) (own : ∀ f, a ≠ .change f) :
    Tracks (Grows m quiet fills) (performAction run β fuel a) (performAction run β fuel a) := by
  have k := grown_keeper calls β
  intro w
  refine k.performAction fuel a w fun elementary => ?_
  cases a with
  | connect s slot delivery =>
      refine grown_connect s slot delivery (fun same => ?_) w
      simpa [Action.spares, same] using spares
  | disconnect s i => exact grown_disconnect s i w
  | disconnectAll s =>
      exact grown_changeSignal s Signal.disconnectAll (fun _ _ opened => opened)
        (fun _ carries => carries.disconnectAll) w
  | block s blocked =>
      refine grown_changeSignal s (·.setBlocked blocked) (fun own x _ => ?_)
        (fun _ carries => carries) w
      simpa [Action.spares, own, Signal.setBlocked] using spares
  | close s =>
      exact grown_changeSignal s Signal.close (fun _ _ opened => opened)
        (fun x _ => Signal.carries_close x) w
  | emit s notice => exact grown_emit calls s notice w
  | release subscription => exact grown_release calls subscription w
  | setModel c n => exact grown_holdingController calls c (grown_setModel calls β c n) w
  | setView c v =>
      exact grown_holdingController calls c (grown_holdingView? calls v (grown_setView calls β c v)) w
  | attach v c => exact grown_holdingView calls v (grown_attach calls v c) w
  | handleClosing c =>
      refine grown_holdingController calls c (k.handleClosing c fun w => ?_) w
      exact (gentle_updateController w c _).grows
  | announceClosing v =>
      refine grown_holdingView calls v (grown_look fun w => .ite (grown_pure ()) ?_) w
      exact grown_after (fun w => gentle_updateView w v _) (grown_emit calls _ _)
  | dropController c => exact grown_dropController calls c w
  | dropView v => exact grown_dropView calls v w
  | change f => exact absurd rfl (own f)
  | post | drain | perform | inBackground | write | setProperty | setSilently | replaceAll
  | clear | initializeModel | resetModel | initializeController | handleAction | refresh
  | reportError | reportDone | initializeView | enable | report | displayView | finishUpdate
  | showError | showInfo => cases elementary

end Operations

end Ensemble

end Mvc
