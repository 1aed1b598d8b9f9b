import Mathlib.Data.List.Induction
import Mvc.Proofs.Contents
import Mvc.Proofs.Ordinary
import Mvc.Proofs.Slots

/-! # A copy that follows a store

A listener at the property signal of a model writes down what it is told, and applies it to a
copy of what the store held in the beginning. Hooks and other slots may write to the store
again, and so on.

A write is announced after the model's hook has reacted to it, and a listener is served after
those connected before it. If one of them changes the same name again, the later value is
announced first and the copy stays behind. A name that nobody changes before the listener has
been told of its last change is never different in the copy and in the store after a write from
outside.
-/

namespace Mvc

variable {σ τ : Type}

/-- The client's own state, with the book of a listener. -/
structure Mirror (τ : Type) where
  /-- What the store held in the beginning. -/
  initial : Store
  /-- What the listener was told, in this order. -/
  heard : List (String × Value)
  rest : τ

namespace Mirror

/-- What was told, applied to what the store held. -/
def copy (c : Mirror τ) : Store := c.heard.foldl (fun s p => s.write p.1 p.2) c.initial

/-- The last value told for a name. -/
def last? (c : Mirror τ) (name : String) : Option Value :=
  ((c.heard.filter (·.1 = name)).getLast?).map (·.2)

/-- Write down what is told. -/
def hear (name : String) (value : Value) (c : Mirror τ) : Mirror τ :=
  { c with heard := c.heard ++ [(name, value)] }

variable (c : Mirror τ)

theorem copy_hear (name : String) (value : Value) :
    (c.hear name value).copy = c.copy.write name value := by
  simp [copy, hear, List.foldl_append]

theorem copy_of_same {c c' : Mirror τ} (initial : c'.initial = c.initial)
    (heard : c'.heard = c.heard) : c'.copy = c.copy := by
  rw [copy, copy, initial, heard]

/-- The last value told for a name is what the copy holds. -/
theorem value?_copy (name : String) :
    c.copy.value? name = ((c.last? name).map Store.kept).getD (c.initial.value? name) := by
  obtain ⟨initial, heard, rest⟩ := c
  induction heard using List.reverseRecOn with
  | nil => rfl
  | append_singleton earlier p ih =>
      have step := copy_hear ⟨initial, earlier, rest⟩ p.1 p.2
      simp only [hear] at step
      rw [step, Store.value?_write, ih]
      by_cases here : name = p.1
      · simp [last?, here, List.filter_append]
      · simp [last?, here, Ne.symm here, List.filter_append]

end Mirror

namespace Action

/-- What a hook may do that is asked whether a value is taken. -/
def IsAside : Action σ (Mirror τ) → Prop
  | .change f => ∀ c, (f c).initial = c.initial ∧ (f c).heard = c.heard
  | _ => False

/-- What code may do that writes to the store of one model. -/
def WritesTo (m : Nat) : Action σ (Mirror τ) → Prop
  | .write n _ _ _ => n = m
  | .drain _ => True
  | .change f => ∀ c, (f c).initial = c.initial ∧ (f c).heard = c.heard
  | .inBackground a => a.WritesTo m
  | _ => False

end Action

/-- The slot of a client other than the listener. -/
def Slot.IsOther (l : σ) (slot : Slot σ) : Prop := ∃ code, slot = .client code ∧ code ≠ l

/-- A delivery to a client other than the listener. -/
def Task.IsOther (l : σ) : Task σ → Prop
  | .delivery _ _ slot _ => slot.IsOther l
  | .client _ => False

/-- Hooks and slots write to the store of one model, and the listener keeps its copy. -/
structure Behaviour.Mirrors (β : Behaviour σ (Mirror τ)) (m : Nat) (l : σ) : Prop where
  listens : ∀ name value,
    β.slot l (.property name value) = .perform (Action.change (Mirror.hear name value))
  slot : ∀ code notice, code ≠ l → (β.slot code notice).All (Action.WritesTo m)
  accepts : ∀ name value, (β.accepts m name value).All Action.IsAside
  afterSet : ∀ name old new, (β.afterSet m name old new).All (Action.WritesTo m)

namespace Ensemble

open Proc

/-- The listener's copy agrees with the store about a name. -/
def Told (m : Nat) (w : Ensemble σ (Mirror τ)) (name : String) : Prop :=
  w.client.copy.value? name = (w.model m).store.value? name

instance (m : Nat) (w : Ensemble σ (Mirror τ)) (name : String) : Decidable (w.Told m name) :=
  inferInstanceAs (Decidable (_ = _))

/-- Nobody changes some names before the listener has been told of their last change. -/
def timely (m : Nat) (P : String → Bool) : Discipline σ (Mirror τ) :=
  let code (w : Ensemble σ (Mirror τ)) : Action σ (Mirror τ) → Bool
    | .write n _ name value =>
        n ≠ m || !P name || w.Told m name || (w.model m).store.get name == value
    | _ => true
  ⟨code, code⟩

/-- The listener is connected once, to an open property signal, in such a way that it is
    served at once on every thread. Everybody else is some client. -/
structure Listening (m : Nat) (l : σ) (w : Ensemble σ (Mirror τ)) : Prop where
  unblocked : (w.signal (.modelProperty m)).blocked = false
  line : ∃ before id delivery after,
    (w.signal (.modelProperty m)).connections =
        before ++ (id, ⟨.client l, delivery⟩) :: after ∧
      (∀ thread, servesInline delivery thread = true) ∧
      ∀ e ∈ before ++ after, e.2.slot.IsOther l
  data : ∀ e ∈ (w.signal (.modelData m)).connections, e.2.slot.IsOther l
  queued : ∀ d, ∀ task ∈ (w.dispatcher d).queue, task.IsOther l

variable {m : Nat} {l : σ} {P : String → Bool} {w w₁ w' : Ensemble σ (Mirror τ)}

/-- The copy and the store hold under a name what they held. -/
def SameAt (m : Nat) (name : String) (w w' : Ensemble σ (Mirror τ)) : Prop :=
  w'.client.copy.value? name = w.client.copy.value? name ∧
    (w'.model m).store.value? name = (w.model m).store.value? name

/-- Where the copy agrees it agrees again, and where it does not nothing happens. -/
def HoldsAt (m : Nat) (name : String) (w w' : Ensemble σ (Mirror τ)) : Prop :=
  (w.Told m name → w'.Told m name) ∧ (¬ w.Told m name → SameAt m name w w')

/-- What a call does to the copy and the store while the listener is listening. -/
structure Followed (m : Nat) (l : σ) (P : String → Bool) (w w' : Ensemble σ (Mirror τ)) :
    Prop where
  listening : Listening m l w'
  signals : ∀ s, w'.signal s = w.signal s
  initial : w'.client.initial = w.client.initial
  holds : ∀ name, P name = true → HoldsAt m name w w'

/-- The same, if the listener is listening. -/
def Follows (m : Nat) (l : σ) (P : String → Bool) (w w' : Ensemble σ (Mirror τ)) : Prop :=
  Listening m l w → Followed m l P w w'

theorem SameAt.told {name : String} (same : SameAt m name w w') :
    w'.Told m name ↔ w.Told m name := by
  rw [Told, Told, same.1, same.2]

theorem SameAt.holdsAt {name : String} (same : SameAt m name w w') : HoldsAt m name w w' :=
  ⟨same.told.mpr, fun _ => same⟩

theorem HoldsAt.trans {name : String} (first : HoldsAt m name w w₁)
    (second : HoldsAt m name w₁ w') : HoldsAt m name w w' := by
  refine ⟨fun told => second.1 (first.1 told), fun untold => ?_⟩
  have same := first.2 untold
  have same' := second.2 (mt same.told.mp untold)
  exact ⟨same'.1.trans same.1, same'.2.trans same.2⟩

theorem Followed.trans (first : Followed m l P w w₁) (second : Follows m l P w₁ w') :
    Followed m l P w w' := by
  have behind := second first.listening
  refine ⟨behind.listening, ?_, ?_, ?_⟩
  · intro s
    exact (behind.signals s).trans (first.signals s)
  · exact behind.initial.trans first.initial
  · intro name chosen
    exact (first.holds name chosen).trans (behind.holds name chosen)

theorem follows_composes : Composes (Follows (σ := σ) (τ := τ) m l P) where
  refl _ listening := ⟨listening, fun _ => rfl, rfl, fun _ _ => SameAt.holdsAt ⟨rfl, rfl⟩⟩
  trans first second listening := (first listening).trans second

theorem ends_of_listening {α : Type} {p : Proc (Ensemble σ (Mirror τ)) α}
    (ends : Listening m l w → Ends p w fun _ w' => Follows m l P w w') :
    Ends p w fun _ w' => Follows m l P w w' := by
  intro r w' h listening
  exact ends listening r w' h listening

/-- Signals and queues decide who listens. -/
theorem Listening.of_same (listening : Listening m l w) (signals : ∀ s, w'.signal s = w.signal s)
    (queues : ∀ d, ∀ task ∈ (w'.dispatcher d).queue,
      task ∈ (w.dispatcher d).queue ∨ task.IsOther l) : Listening m l w' := by
  refine ⟨?_, ?_, ?_, ?_⟩
  · rw [signals]
    exact listening.unblocked
  · rw [signals]
    exact listening.line
  · rw [signals]
    exact listening.data
  · intro d task member
    rcases queues d task member with old | new
    · exact listening.queued d task old
    · exact new

/-- Neither the copy nor the store is touched. -/
theorem follows_of_same (signals : ∀ s, w'.signal s = w.signal s)
    (models : ∀ n, w'.model n = w.model n) (initial : w'.client.initial = w.client.initial)
    (heard : w'.client.heard = w.client.heard)
    (queues : ∀ d, ∀ task ∈ (w'.dispatcher d).queue,
      task ∈ (w.dispatcher d).queue ∨ task.IsOther l) : Follows m l P w w' := by
  intro listening
  refine ⟨listening.of_same signals queues, signals, initial, ?_⟩
  intro name chosen
  apply SameAt.holdsAt
  rw [SameAt, Mirror.copy_of_same initial heard, models]
  simp

theorem follows_setThread (thread : Thread) : Follows m l P w { w with thread } :=
  follows_of_same (signal_setThread w thread) (fun _ => rfl) rfl rfl fun _ _ => .inl

/-- The queue of a dispatcher is changed. -/
theorem follows_queue (d : Nat) {f : Dispatcher (Task σ) → Dispatcher (Task σ)}
    (queue : ∀ task ∈ (f (w.dispatcher d)).queue,
      task ∈ (w.dispatcher d).queue ∨ task.IsOther l) :
    Follows m l P w (updateDispatcher d f w) := by
  refine follows_of_same (by simp) (by simp) rfl rfl ?_
  intro e task member
  rw [dispatcher_updateDispatcher] at member
  split at member
  · next same => exact same ▸ queue task member
  · exact .inl member

/-! ## Hooks that are asked first -/

/-- Only what is the client's own changes, and not the book. -/
def Unmoved (w w' : Ensemble σ (Mirror τ)) : Prop :=
  ∃ c, c.initial = w.client.initial ∧ c.heard = w.client.heard ∧ w' = { w with client := c }

theorem unmoved_composes : Composes (Unmoved (σ := σ) (τ := τ)) where
  refl w := ⟨w.client, rfl, rfl, rfl⟩
  trans := by
    rintro a b c ⟨k, initial, heard, rfl⟩ ⟨k', initial', heard', rfl⟩
    exact ⟨k', initial'.trans initial, heard'.trans heard, rfl⟩

theorem Unmoved.follows (aside : Unmoved w w') : Follows m l P w w' := by
  obtain ⟨c, initial, heard, rfl⟩ := aside
  exact follows_of_same (signal_setClient w c) (fun _ => rfl) initial heard fun _ _ => .inl

theorem Unmoved.sameAt (aside : Unmoved w w') (name : String) : SameAt m name w w' := by
  obtain ⟨c, initial, heard, rfl⟩ := aside
  exact ⟨congrArg (Store.value? · name) (Mirror.copy_of_same initial heard), rfl⟩

/-! ## A change that is not told yet -/

/-- A change of a name has been made, and the listener has not been told. -/
structure Untold (m : Nat) (l : σ) (P : String → Bool) (name : String) (value : Value)
    (w w' : Ensemble σ (Mirror τ)) : Prop where
  listening : Listening m l w'
  signals : ∀ s, w'.signal s = w.signal s
  initial : w'.client.initial = w.client.initial
  apart : P name = true → ¬ w'.Told m name ∧ (w'.model m).store.value? name = Store.kept value
  others : ∀ n, n ≠ name → P n = true → HoldsAt m n w w'

variable {name : String} {value : Value}

theorem untold_write (listening : Listening m l w) (told : P name = true → w.Told m name)
    (other : (w.model m).store.get name ≠ value) :
    Untold m l P name value w (updateStore m (fun s => s.write name value) w) := by
  have signals := signal_updateModel w m (f := fun o => { o with store := o.store.write name value })
    fun _ => ⟨rfl, rfl, rfl⟩
  have store : ((updateStore m (fun s => s.write name value) w).model m).store =
      (w.model m).store.write name value := by simp [updateStore, model_updateModel]
  refine ⟨listening.of_same signals fun _ _ => .inl, signals, rfl, ?_, ?_⟩
  · intro chosen
    have kept : ((w.model m).store.write name value).value? name = Store.kept value := by
      rw [Store.value?_write, if_pos rfl]
    rw [Told, store, kept]
    refine ⟨fun same => other ?_, rfl⟩
    have before : w.client.copy.value? name = (w.model m).store.value? name := told chosen
    rw [Store.get_eq, ← before]
    exact (congrArg (·.getD .null) same).trans (Store.getD_kept value)
  · intro n different chosen
    apply SameAt.holdsAt
    rw [SameAt, store, Store.value?_write, if_neg different]
    exact ⟨rfl, rfl⟩

/-- What follows does not touch the name either. -/
theorem Untold.follows (untold : Untold m l P name value w w₁) (follows : Follows m l P w₁ w') :
    Untold m l P name value w w' := by
  have followed := follows untold.listening
  refine ⟨followed.listening, ?_, ?_, ?_, ?_⟩
  · intro s
    exact (followed.signals s).trans (untold.signals s)
  · exact followed.initial.trans untold.initial
  · intro chosen
    have same := (followed.holds name chosen).2 (untold.apart chosen).1
    exact ⟨mt same.told.mp (untold.apart chosen).1, same.2.trans (untold.apart chosen).2⟩
  · intro n different chosen
    exact (untold.others n different chosen).trans (followed.holds n chosen)

/-- Once the listener has been told, the copy agrees again. -/
theorem Untold.hear (untold : Untold m l P name value w w')
    (told : P name = true → w.Told m name) :
    Followed m l P w { w' with client := w'.client.hear name value } := by
  have signals := signal_setClient w' (w'.client.hear name value)
  refine ⟨untold.listening.of_same signals fun _ _ => .inl, ?_, untold.initial, ?_⟩
  · intro s
    exact (signals s).trans (untold.signals s)
  · intro n chosen
    by_cases here : n = name
    · subst here
      refine ⟨fun _ => ?_, fun apart => absurd (told chosen) apart⟩
      show (w'.client.hear n value).copy.value? n = (w'.model m).store.value? n
      rw [Mirror.copy_hear, Store.value?_write, if_pos rfl, (untold.apart chosen).2]
    · refine (untold.others n here chosen).trans (SameAt.holdsAt ⟨?_, rfl⟩)
      show (w'.client.hear name value).copy.value? n = w'.client.copy.value? n
      rw [Mirror.copy_hear, Store.value?_write, if_neg here]

/-! ## Emissions -/

/-- What a runner has to do with what others and the listener are asked for. -/
structure Serves (β : Behaviour σ (Mirror τ)) (m : Nat) (l : σ) (P : String → Bool)
    (run : Runner σ (Mirror τ)) : Prop where
  slot : ∀ slot notice, slot.IsOther l → Keeps (Follows m l P) (run (.slot slot notice))
  task : ∀ task, task.IsOther l → Keeps (Follows m l P) (run (.task task))
  action : ∀ a, a.WritesTo m → Keeps (Follows m l P) (run (.action a))
  aside : ∀ a, a.IsAside → Keeps Unmoved (run (.action a))
  hears : ∀ name value w, Ends (run (.slot (.client l) (.property name value))) w fun _ w' =>
    w' = { w with client := w.client.hear name value }

theorem deliver_inline {run : Runner σ (Mirror τ)} {s : SignalRef} {notice : Notice}
    {id : ConnectionId} {c : Connection (Slot σ)}
    (inline : ∀ thread, servesInline c.delivery thread = true) :
    deliver run s notice id c = run (.slot c.slot notice) := by
  obtain ⟨slot, delivery⟩ := c
  funext w
  cases delivery with
  | direct => rfl
  | dispatched mode d =>
      refine (get_bind _ w).trans ?_
      rw [if_pos (inline w.thread)]

namespace Serves

variable {β : Behaviour σ (Mirror τ)} {run : Runner σ (Mirror τ)} (serves : Serves β m l P run)
include serves

theorem deliver (s : SignalRef) (notice : Notice) (id : ConnectionId) {c : Connection (Slot σ)}
    (other : c.slot.IsOther l) : Keeps (Follows m l P) (deliver run s notice id c) := by
  have served := serves.slot c.slot notice other
  unfold Ensemble.deliver
  cases c.delivery with
  | direct => exact served
  | dispatched mode d =>
      intro w
      refine .get_bind ?_
      split
      · exact served w
      · refine (ends_modify _ _ _).mpr (follows_queue d ?_)
        intro task member
        rcases List.mem_append.mp member with old | new
        · exact .inl old
        · exact .inr ((List.mem_singleton.mp new) ▸ other)

theorem visit (s : SignalRef) (notice : Notice)
    {connections : List (ConnectionId × Connection (Slot σ))}
    (others : ∀ e ∈ connections, e.2.slot.IsOther l) :
    Keeps (Follows m l P) (visit run s notice connections) := by
  have order := follows_composes (σ := σ) (τ := τ) (m := m) (l := l) (P := P)
  induction connections with
  | nil => exact (Tracks.pure order ()).keeps
  | cons first rest ih =>
      have later := ih fun e member => others e (List.mem_cons_of_mem _ member)
      refine .bind order (Tracks.get order).keeps fun w => ?_
      split
      · refine .bind order ?_ fun _ => later
        exact serves.deliver s notice first.1 (others first List.mem_cons_self)
      · exact .bind order (Tracks.pure order ()).keeps fun _ => later

/-- While a change is announced, it is told. -/
theorem announce (untold : Untold m l P name value w w₁) (told : P name = true → w.Told m name) :
    Ends (emit run (.modelProperty m) (.property name value)) w₁ fun _ w' =>
      Followed m l P w w' := by
  obtain ⟨before, id, delivery, after, split, inline, others⟩ := untold.listening.line
  have connected : ((w₁.signal (.modelProperty m)).registry.get? id).isSome = true := by
    rw [mem_connections.mp (split ▸ List.mem_append_right _ List.mem_cons_self)]
    rfl
  refine .get_bind ?_
  simp only [untold.listening.unblocked, split, Bool.false_eq_true, if_false, visit_append]
  refine .bind ?_
  -- First come the slots before the listener, then the listener, then those behind it.
  refine (serves.visit _ _ (fun e member => others e (List.mem_append_left _ member)) w₁).mono ?_
  intro _ w₂ earlier
  have untold₂ := untold.follows earlier
  have connected₂ : (w₂.signal (.modelProperty m)).isConnected id = true := by
    rw [(earlier untold.listening).signals]
    exact connected
  refine .get_bind ?_
  rw [connected₂, if_pos rfl, deliver_inline inline]
  refine .bind ((serves.hears name value w₂).mono ?_)
  intro _ w₃ heard
  subst heard
  refine (serves.visit _ _ (fun e member => others e (List.mem_append_right _ member)) _).mono ?_
  intro _ w' later
  exact (untold₂.hear told).trans later

theorem data (notice : Notice) : Keeps (Follows m l P) (emit run (.modelData m) notice) := by
  intro w
  refine ends_of_listening fun listening => ?_
  refine .get_bind ?_
  dsimp only
  split
  · exact (ends_pure _ _ _).mpr (follows_composes.refl w)
  · exact serves.visit _ _ listening.data w

/-! ## Writing -/

theorem client {ρ : Type} {code : Client σ (Mirror τ) ρ} (allowed : code.All (Action.WritesTo m)) :
    Keeps (Follows m l P) (run.client code) :=
  .program follows_composes serves.action allowed

/-- What is left of a write once the value has been accepted. -/
theorem revise {react : Value → Proc (Ensemble σ (Mirror τ)) Unit}
    (reacts : ∀ old, Keeps (Follows m l P) (react old)) (listening : Listening m l w)
    (timely : P name = true → w.Told m name ∨ (w.model m).store.get name = value) :
    Ends (do
        let old := ((← get).model m).store.get name
        if old == value then return SetOutcome.unchanged
        modify (updateStore m fun s => s.write name value)
        react old
        emit run (.modelProperty m) (.property name value)
        emit run (.modelData m) .dataChanged
        return SetOutcome.changed) w fun _ w' => Followed m l P w w' := by
  refine .get_bind ?_
  dsimp only
  split
  · exact (ends_pure _ _ _).mpr (follows_composes.refl w listening)
  · next differs =>
      have other : (w.model m).store.get name ≠ value := by simpa using differs
      have told : P name = true → w.Told m name := fun chosen =>
        (timely chosen).resolve_right other
      have untold := untold_write listening told other
      refine .modify_bind ?_
      refine .bind ((reacts _ _).mono fun _ w₁ reaction => ?_)
      refine .bind ((serves.announce (untold.follows reaction) told).mono fun _ w₂ announced => ?_)
      refine .bind ((serves.data .dataChanged w₂).mono fun _ w' later => ?_)
      exact (ends_pure _ _ _).mpr (announced.trans later)

/-- A write in time: the copy agrees about the name, or the value is the stored one. -/
theorem write (mirrors : β.Mirrors m l) (hooked : Bool)
    (timely : P name = true → w.Told m name ∨ (w.model m).store.get name = value) :
    Ends (write run β m hooked name value) w fun _ w' => Follows m l P w w' := by
  refine ends_of_listening fun listening => ?_
  unfold Ensemble.write
  cases hooked with
  | false =>
      have idle : ∀ _ : Value,
          Keeps (Follows m l P) (pure () : Proc (Ensemble σ (Mirror τ)) Unit) :=
        fun _ => (Tracks.pure follows_composes ()).keeps
      have revised := serves.revise idle listening timely
      simp only [pure_bind] at revised
      exact revised.mono fun _ _ followed _ => followed
  | true =>
      have asked : Keeps Unmoved (run.client (β.accepts m name value)) :=
        .program unmoved_composes serves.aside (mirrors.accepts name value)
      refine .bind ((asked w).mono fun accepted w₁ aside => ?_)
      have followed := aside.follows (m := m) (l := l) (P := P) listening
      cases accepted with
      | false => exact (ends_pure _ _ _).mpr fun _ => followed
      | true =>
          -- The hook that was asked has changed neither the copy nor the store.
          have same := aside.sameAt (m := m) name
          have revised := serves.revise (fun old => serves.client (mirrors.afterSet name old value))
            followed.listening fun chosen => (timely chosen).imp same.told.mpr (by
              rw [Store.get_eq, Store.get_eq, same.2]
              exact id)
          exact revised.mono fun _ _ later _ => followed.trans fun _ => later

/-! ## Threads and queues -/

omit serves in
theorem inBackground {α : Type} {p : Proc (Ensemble σ (Mirror τ)) α}
    (keeps : Keeps (Follows m l P) p) : Keeps (Follows m l P) (inBackground p) := by
  have order := follows_composes (σ := σ) (τ := τ) (m := m) (l := l) (P := P)
  refine .bind order (Tracks.get order).keeps fun w => ?_
  refine .bind order (Tracks.modify fun w => follows_setThread _).keeps fun _ => ?_
  refine .bind order keeps fun r => ?_
  exact .bind order (Tracks.modify fun w => follows_setThread _).keeps fun _ =>
    (Tracks.pure order r).keeps

theorem drain (d fuel : Nat) : Keeps (Follows m l P) (drain run d fuel) := by
  have order := follows_composes (σ := σ) (τ := τ) (m := m) (l := l) (P := P)
  induction fuel with
  | zero =>
      intro w r w' h
      cases h
  | succ fuel ih =>
      intro w
      refine ends_of_listening fun listening => ?_
      refine .get_bind ?_
      cases waiting : (w.dispatcher d).queue with
      | nil =>
          simp only [Dispatcher.next?, waiting]
          exact (ends_pure _ _ _).mpr (order.refl w)
      | cons task rest =>
          simp only [Dispatcher.next?, waiting]
          have other := listening.queued d task (waiting ▸ List.mem_cons_self)
          have taken : Follows m l P w
              (updateDispatcher d (fun _ => { w.dispatcher d with queue := rest }) w) :=
            follows_queue d fun t member => .inl (waiting ▸ List.mem_cons_of_mem _ member)
          refine .modify_bind ?_
          refine .bind ((serves.task task other _).mono fun _ w₁ run => ?_)
          refine .modify_bind ?_
          have finished : Follows m l P w₁ (updateDispatcher d Dispatcher.finish w₁) :=
            follows_queue d fun _ => .inl
          refine .bind ((ih _).mono fun n w' later => ?_)
          exact (ends_pure _ _ _).mpr
            (order.trans taken (order.trans run (order.trans finished later)))

end Serves

/-! ## Runs -/

variable {β : Behaviour σ (Mirror τ)}

theorem serves_runUnder (mirrors : β.Mirrors m l) (depth : Nat) :
    Serves β m l P (runUnder β depth (timely m P)) := by
  have order := follows_composes (σ := σ) (τ := τ) (m := m) (l := l) (P := P)
  induction depth with
  | zero =>
      have never : ∀ (call : Call σ (Mirror τ)) (R : Ensemble σ (Mirror τ) → _ → Prop),
          Keeps R (runUnder β 0 (timely m P) call) := by
        intro call R w r w' h
        cases h
      exact ⟨fun _ _ _ => never _ _, fun _ _ => never _ _, fun _ _ => never _ _,
        fun _ _ => never _ _, fun _ _ w => never _ (fun w w' => w' = _) w⟩
  | succ depth ih =>
      refine ⟨?_, ?_, ?_, ?_, ?_⟩
      · rintro slot notice ⟨code, rfl, other⟩
        exact ih.client (mirrors.slot code notice other)
      · intro task other
        cases task with
        | client code => exact other.elim
        | delivery s id slot notice =>
            refine .bind order (Tracks.get order).keeps fun w => ?_
            split
            · exact ih.slot slot notice other
            · exact (Tracks.pure order ()).keeps
      · intro a writes w r w' h
        simp only [runUnder] at h
        split at h
        case isFalse => cases h
        case isTrue admitted =>
          cases a with
          | write n hooked name value =>
              obtain rfl : n = m := writes
              refine ih.write mirrors hooked ?_ r w' h
              intro chosen
              simpa [Discipline.admits, timely, chosen] using admitted
          | drain d => exact ih.drain d depth w r w' h
          | inBackground a => exact Serves.inBackground (ih.action a writes) w r w' h
          | change f =>
              cases h
              exact Unmoved.follows ⟨f w.client, (writes w.client).1, (writes w.client).2, rfl⟩
          | _ => exact writes.elim
      · intro a aside w r w' h
        cases a with
        | change f =>
            cases h
            exact ⟨f w.client, (aside w.client).1, (aside w.client).2, rfl⟩
        | _ => exact aside.elim
      · intro name value w
        show Ends ((runUnder β depth (timely m P)).client (β.slot l (.property name value))) w _
        rw [mirrors.listens]
        refine .bind ?_
        intro r w' h
        cases depth with
        | zero => cases h
        | succ depth =>
            cases h
            exact (ends_pure _ _ _).mpr rfl

/-- Writes from outside, and what else is done between them, under the discipline. -/
inductive Fed (β : Behaviour σ (Mirror τ)) (m : Nat) (P : String → Bool)
    (start : Ensemble σ (Mirror τ)) : Ensemble σ (Mirror τ) → Prop where
  | start : Fed β m P start start
  | step {w w' : Ensemble σ (Mirror τ)} (depth : Nat) {a : Action σ (Mirror τ)} {r : a.Result} :
      Fed β m P start w → a.WritesTo m →
      runUnder β depth (timely m P) (.action a) w = some (r, w') → Fed β m P start w'

theorem Fed.followed (mirrors : β.Mirrors m l) (listening : Listening m l w)
    (fed : Fed β m P w w') : Followed m l P w w' := by
  induction fed with
  | start => exact follows_composes.refl w listening
  | step depth _ writes same ih =>
      exact ih.trans ((serves_runUnder mirrors depth).action _ writes _ _ _ same)

/-- About a name that nobody changes before the listener has been told of its last change,
    the copy agrees with the store after every write from outside, and the last value told is
    the value stored. If this holds of all names, the copy is what the store holds. -/
theorem copy_follows (mirrors : β.Mirrors m l) (listening : Listening m l w)
    (initial : w.client.initial = (w.model m).store) (unheard : w.client.heard = [])
    (fed : Fed β m P w w') :
    w'.client.initial = (w.model m).store ∧
      (∀ name, P name = true → w'.client.copy.value? name = (w'.model m).store.value? name ∧
        ∀ value, w'.client.last? name = some value → (w'.model m).store.get name = value) ∧
      ((∀ name, P name = true) → w'.client.copy = (w'.model m).store) := by
  have followed := fed.followed mirrors listening
  have begins : w.client.copy = (w.model m).store := by
    rw [Mirror.copy, unheard, initial]
    rfl
  have told : ∀ name, P name = true →
      w'.client.copy.value? name = (w'.model m).store.value? name := by
    intro name chosen
    exact (followed.holds name chosen).1 (congrArg (Store.value? · name) begins)
  refine ⟨followed.initial.trans initial, ?_, ?_⟩
  · intro name chosen
    refine ⟨told name chosen, fun value last => ?_⟩
    rw [Store.get_eq, ← told name chosen, Mirror.value?_copy, last]
    exact Store.getD_kept value
  · intro all
    exact Store.ext_value? fun name => told name (all name)

/-- A width of two is halved at once: by the model's hook, or else by a slot. Another slot is
    the listener's. -/
def halving (hook : Bool) : Behaviour Nat (Mirror Unit) :=
  let halve (name : String) (value : Value) : Client Nat (Mirror Unit) Unit :=
    if name = "width" && value == .integer 2 then do
      let _ ← Program.perform (Action.write 0 true "width" (.integer 1))
    else pure ()
  { Behaviour.plain with
    slot := fun code notice =>
      match code, notice with
      | 0, .property name value => .perform (Action.change (Mirror.hear name value))
      | _, .property name value => if hook then pure () else halve name value
      | _, _ => pure ()
    afterSet := fun _ name _ new => if hook then halve name new else pure () }

/-- An empty store with two slots at its property signal, the listener's first. -/
def halvingStart : Ensemble Nat (Mirror Unit) :=
  setSignal (.modelProperty 0)
    (((Signal.new.connect (.client 0) .direct).2.connect (.client 1) .direct).2)
    (.new ⟨.empty, [], ()⟩)

theorem mirrors_halving (hook : Bool) : (halving hook).Mirrors 0 0 := by
  have halve : ∀ (name : String) (value : Value),
      Program.All (Action.WritesTo 0) (if name = "width" && value == .integer 2 then do
        let _ ← Program.perform (Action.write 0 true "width" (.integer 1))
      else pure () : Client Nat (Mirror Unit) Unit) := by
    intro name value
    split
    · exact ⟨rfl, fun _ => trivial⟩
    · trivial
  refine ⟨fun _ _ => rfl, ?_, fun _ _ => trivial, ?_⟩
  · intro code notice other
    cases code with
    | zero => exact absurd rfl other
    | succ code =>
        cases notice with
        | property name value =>
            cases hook with
            | true => trivial
            | false => exact halve name value
        | _ => trivial
  · intro name old new
    cases hook with
    | true => exact halve name new
    | false => trivial

theorem listening_halvingStart : Listening 0 0 halvingStart := by
  refine ⟨rfl, ⟨[], ⟨0, 1⟩, .direct, [(⟨1, 1⟩, ⟨.client 1, .direct⟩)], rfl, fun _ => rfl, ?_⟩,
    ?_, ?_⟩
  · intro e member
    rw [List.mem_singleton.mp member]
    exact ⟨1, rfl, by decide⟩
  · intro e member
    cases member
  · intro d task member
    cases member

/-- The slot behind the listener halves the width after the listener has been told of it. -/
theorem copy_follows_halving :
    ∃ w', Fed (halving false) 0 (fun _ => true) halvingStart w' ∧
      w'.client.heard = [("width", .integer 2), ("width", .integer 1)] ∧
      w'.client.copy = (w'.model 0).store := by
  have ends : (runUnder (halving false) 12 (timely 0 fun _ => true)
      (.action (.write 0 true "width" (.integer 2))) halvingStart).isSome = true := by
    decide +kernel
  obtain ⟨⟨r, w'⟩, same⟩ := Option.isSome_iff_exists.mp ends
  have fed : Fed (halving false) 0 (fun _ => true) halvingStart w' :=
    .step 12 .start (by rfl) same
  refine ⟨w', fed, ?_, ?_⟩
  · have heard : (runUnder (halving false) 12 (timely 0 fun _ => true)
        (.action (.write 0 true "width" (.integer 2))) halvingStart).map (·.2.client.heard) =
          some [("width", .integer 2), ("width", .integer 1)] := by
      decide +kernel
    rw [same] at heard
    exact Option.some.inj heard
  · exact (copy_follows (mirrors_halving false) listening_halvingStart rfl rfl fed).2.2
      fun _ => rfl

/-- The model's hook halves the width before anyone has been told of it. The last value told
    is two, and the store holds one. -/
theorem copy_of_rewritten_name :
    (halving true).Mirrors 0 0 ∧ Listening 0 0 halvingStart ∧
    (run (halving true) 12 (.action (.write 0 true "width" (.integer 2))) halvingStart).map
        (fun x => (x.2.client.heard, x.2.client.copy.get "width", (x.2.model 0).store.get "width")) =
      some ([("width", .integer 1), ("width", .integer 2)], .integer 2, .integer 1) :=
  ⟨mirrors_halving true, listening_halvingStart, by decide +kernel⟩

end Ensemble

end Mvc
