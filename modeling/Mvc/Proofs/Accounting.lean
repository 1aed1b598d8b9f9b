import Mvc.Proofs.Diary

/-! # Accounts of what is shown

An account tells of a controller which model and view are bound, how many changes of the
model wait to be shown, and which views were shown anew so far. It knows nothing of signals,
connections and queues: a change of the bound model is shown at once, or it waits until the
dispatcher is drained, and binding another model drops all that wait. The diary of every run
agrees with these accounts, entry by entry.
-/

namespace Mvc

variable {σ τ : Type}

/-- The account of a controller. -/
structure Account where
  model : Option Nat
  view : Option Nat
  /-- How many changes of the model wait to be shown. -/
  pending : Nat
  /-- The views that were shown anew, the latest last. -/
  shown : List Nat
  deriving DecidableEq, Repr

namespace Account

/-- Nothing is bound and nothing was shown. -/
def new : Account := ⟨none, none, 0, []⟩

/-- Another model is bound, and what waits for the old one is dropped. -/
def bindModel (m : Option Nat) (o : Account) : Account :=
  if o.model = m then o else { o with model := m, pending := 0 }

/-- A view is bound. -/
def bindView (v : Option Nat) (o : Account) : Account := { o with view := v }

/-- A model changed. If it is bound, its change is shown at once, or it waits. -/
def change (m : Nat) (atOnce : Bool) (o : Account) : Account :=
  if o.model = some m then
    if atOnce then { o with shown := o.shown ++ o.view.toList }
    else { o with pending := o.pending + 1 }
  else o

/-- All that waits is shown. -/
def drain (o : Account) : Account :=
  { o with pending := 0, shown := o.shown ++ o.view.toList.flatMap (List.replicate o.pending) }

end Account

namespace Ensemble

/-- The model that an action has changed, as its result tells: a property has a new value, or
    the model was filled with its defaults. -/
def changedBy (w : Ensemble σ (Diary τ)) : (a : Action σ (Diary τ)) → a.Result → Option Nat
  | .write m .., r | .setProperty m .., r => if r.isChanged then some m else none
  | .initializeModel m, r => if r.isOk && !(w.model m).initialized then some m else none
  | .resetModel m, r => if r.isOk then some m else none
  | _, _ => none

/-- Whether changes made by the running thread reach a controller at once. -/
def reachesAtOnce (w : Ensemble σ (Diary τ)) (c : Nat) : Bool :=
  (w.controller c).dispatcher.isNone || w.thread = .presentation

/-- What an action does to the account of a controller. -/
def accountAfter (w : Ensemble σ (Diary τ)) (c : Nat) :
    (a : Action σ (Diary τ)) → a.Result → Account → Account
  | .setModel b m, _, o => if b = c then o.bindModel m else o
  | .setView b v, _, o => if b = c then o.bindView v else o
  | .drain d, _, o => if (w.controller c).dispatcher = some d then o.drain else o
  | .inBackground a, r, o => accountAfter { w with thread := .background } c a r o
  | a, r, o =>
    match w.changedBy a r with
    | some m => o.change m (w.reachesAtOnce c)
    | none => o

end Ensemble

/-- Binding, setup, closing, and changes of models, on any thread. -/
def Action.isDaily : Action σ (Diary τ) → Bool
  | .setModel .. | .setView .. | .initializeController .. => true
  | .announceClosing .. | .handleClosing .. => true
  | .write .. | .setProperty .. | .initializeModel .. | .resetModel .. => true
  | .inBackground a => a.isDaily
  | _ => false

/-- And draining on the thread that runs outside. -/
def Action.isKept : Action σ (Diary τ) → Bool
  | .drain _ => true
  | a => a.isDaily

namespace Ensemble

open Proc

/-- Runs from new objects on, with an account of each controller. -/
inductive Books (β : Behaviour σ (Diary τ)) : (Nat → Account) → Ensemble σ (Diary τ) → Prop where
  | blank {w} (fresh : Fresh w) (views : ∀ v, (w.view v).held = true)
      (empty : w.client.showings = []) : Books β (fun _ => .new) w
  | entry {accounts w w'} {a : Action σ (Diary τ)} {r : a.Result} (depth : Nat)
      (books : Books β accounts w) (kept : a.isKept = true)
      (done : run β depth (.action a) w = some (r, w')) :
      Books β (fun c => w.accountAfter c a r (accounts c)) w'

/-- The views that were shown anew through a controller, the latest last. -/
def shownThrough (w : Ensemble σ (Diary τ)) (c : Nat) : List Nat :=
  (w.client.showings.filter (·.controller = c)).map (·.view)

/-! ## Accounts of a state -/

/-- Whether a task waits to tell a controller that its model changed. -/
def awaits (w : Ensemble σ (Diary τ)) (c : Nat) : Task σ → Bool
  | .delivery s id _ _ =>
    match w.slotAt s id with
    | some (.controllerData b) => b = c
    | _ => false
  | .client _ => false

/-- How many tasks do. -/
def waiting (w : Ensemble σ (Diary τ)) (c : Nat) : Nat :=
  match (w.controller c).dispatcher with
  | some d => (w.dispatcher d).queue.countP (w.awaits c)
  | none => 0

/-- The account of a controller, as the state has it. -/
def accountOf (w : Ensemble σ (Diary τ)) (c : Nat) : Account where
  model := (w.controller c).model
  view := (w.controller c).view
  pending := w.waiting c
  shown := w.shownThrough c

variable {w w' w₁ : Ensemble σ (Diary τ)} {c : Nat}

theorem awaits_delivery {s : SignalRef} {id : ConnectionId} {k : Slot σ} {notice : Notice} :
    w.awaits c (.delivery s id k notice) = true ↔
      w.slotAt s id = some (.controllerData c) := by
  simp only [awaits]
  split
  · next b named => simp [named]
  · next other =>
      constructor
      · intro h
        cases h
      · exact fun named => absurd named (other c)

theorem awaits_eq (same : ∀ s id, w'.slotAt s id = some (.controllerData c) ↔
    w.slotAt s id = some (.controllerData c)) : w'.awaits c = w.awaits c := by
  funext t
  cases t with
  | client code => rfl
  | delivery s id k notice =>
      rw [Bool.eq_iff_iff, awaits_delivery, awaits_delivery]
      exact same s id

/-- What concerns an account is the same. -/
theorem accountOf_eq (model : (w'.controller c).model = (w.controller c).model)
    (view : (w'.controller c).view = (w.controller c).view)
    (dispatcher : (w'.controller c).dispatcher = (w.controller c).dispatcher)
    (queues : ∀ d, (w'.dispatcher d).queue = (w.dispatcher d).queue)
    (slots : ∀ s id, w'.slotAt s id = some (.controllerData c) ↔
      w.slotAt s id = some (.controllerData c))
    (showings : w'.client.showings = w.client.showings) : w'.accountOf c = w.accountOf c := by
  simp only [accountOf, model, view, waiting, dispatcher, queues, awaits_eq slots, shownThrough,
    showings]

/-! ## Orderly ensembles -/

/-- A task will tell a controller of the dispatcher that its model changed, by an id that
    names the controller's slot, or nothing any more. -/
def Queued (w : Ensemble σ (Diary τ)) (d : Nat) (t : Task σ) : Prop :=
  ∃ m id c, t = .delivery (.modelData m) id (.controllerData c) .dataChanged ∧
    (w.controller c).dispatcher = some d ∧
    (w.signal (.modelData m)).Settled (· = .controllerData c) id

/-- Tidy, with nothing in the queues but changes of models. -/
structure Orderly (w : Ensemble σ (Diary τ)) : Prop extends Tidy w where
  queued : ∀ d, ∀ t ∈ (w.dispatcher d).queue, w.Queued d t

/-- All stays orderly, and the accounts change as said. -/
structure Accounted (f : Nat → Account → Account) (w w' : Ensemble σ (Diary τ)) : Prop where
  orderly : Orderly w'
  thread : w'.thread = w.thread
  accounts : ∀ c, w'.accountOf c = f c (w.accountOf c)

theorem Accounted.trans {f g : Nat → Account → Account} (first : Accounted f w w₁)
    (second : Accounted g w₁ w') : Accounted (fun c => g c ∘ f c) w w' where
  orderly := second.orderly
  thread := second.thread.trans first.thread
  accounts c := by rw [second.accounts, first.accounts, Function.comp_apply]

theorem Queued.of_same {d : Nat} {t : Task σ} (queued : w.Queued d t)
    (dispatcher : ∀ c, (w'.controller c).dispatcher = (w.controller c).dispatcher)
    (settled : StaySettled w w') : w'.Queued d t := by
  obtain ⟨m, id, c, rfl, dispatched, own⟩ := queued
  exact ⟨m, id, c, rfl, (dispatcher c).trans dispatched, settled _ _ _ own⟩

theorem Queued.alike {d : Nat} {t : Task σ} (queued : w.Queued d t) (alike : Alike w w') :
    w'.Queued d t :=
  queued.of_same (alike.controller (·.dispatcher) fun _ => rfl)
    fun P s id own => by rwa [alike.signals s]

/-- A queued task that awaits a controller is queued by the controller's dispatcher. -/
theorem Queued.dispatcher {d : Nat} {t : Task σ} (queued : w.Queued d t) (tidy : Tidy w)
    (awaited : w.awaits c t = true) : (w.controller c).dispatcher = some d := by
  obtain ⟨m, id, b, rfl, dispatched, own⟩ := queued
  have same := own.property (tidy.wired.sound _) (awaits_delivery.mp awaited)
  cases same
  exact dispatched

/-! ## What an emission or a drain adds to an account -/

/-- What a list adds to one account comes from the members that concern it. -/
theorem filter_flatMap_of_iff {α β : Type} {l : List α} {f : α → List β} {p : β → Bool}
    {q : α → Bool} (concern : ∀ e ∈ l, ∀ x ∈ f e, p x = q e) :
    (l.flatMap f).filter p = (l.filter q).flatMap f := by
  induction l with
  | nil => rfl
  | cons e rest ih =>
      have later := ih fun e' member => concern e' (List.mem_cons_of_mem _ member)
      have here := concern e List.mem_cons_self
      rw [List.flatMap_cons, List.filter_append, later, List.filter_cons]
      cases holds : q e with
      | true =>
          rw [List.filter_eq_self.mpr fun x member => (here x member).trans holds]
          simp
      | false =>
          rw [List.filter_eq_nil_iff.mpr fun x member => by simp [here x member, holds]]
          simp

theorem mem_shows {k : Slot σ} {notice : Notice} {x : Showing} (member : x ∈ w.shows k notice) :
    k = .controllerData x.controller := by
  unfold shows at member
  split at member
  · obtain ⟨v, -, rfl⟩ := List.mem_map.mp member
    rfl
  · cases member

theorem map_view_shows (w : Ensemble σ (Diary τ)) (c : Nat) :
    (w.shows (.controllerData c) .dataChanged).map (·.view) = (w.controller c).view.toList := by
  cases bound : (w.controller c).view <;> simp [shows, bound]

/-- The connections of a model that concern a controller: one if it is bound, and none if
    it is not. -/
theorem Tidy.connections (tidy : Tidy w) (c m : Nat) :
    ((w.controller c).model = some m → ∃ e,
      (w.signal (.modelData m)).connections.filter
        (fun e => e.2.slot.controller? = some c) = [e] ∧
      e.2 = ⟨.controllerData c, modelDelivery w c⟩ ∧
      w.slotAt (.modelData m) e.1 = some (.controllerData c)) ∧
    ((w.controller c).model ≠ some m →
      (w.signal (.modelData m)).connections.filter
        (fun e => e.2.slot.controller? = some c) = []) := by
  have slots := models_of_intact tidy.intact c m
  rw [controllerSlots, List.filter_map] at slots
  constructor
  · intro bound
    rw [if_pos ⟨tidy.alive c, bound⟩] at slots
    obtain ⟨e, selected, slot⟩ := List.map_eq_singleton_iff.mp slots
    have listed : e ∈ (w.signal (.modelData m)).connections := by
      have member : e ∈ [e] := List.mem_cons_self
      rw [← selected] at member
      exact (List.mem_filter.mp member).1
    obtain ⟨-, route⟩ := (tidy.signals _).routed e.1 e.2 (mem_connections.mp listed)
    refine ⟨e, selected, ?_, (slotAt_of_mem listed).trans (congrArg some slot)⟩
    rw [slot] at route
    obtain ⟨id, k, d⟩ := e
    simp only at slot route
    rw [slot, route]
    rfl
  · intro unbound
    rw [if_neg fun h => unbound h.2] at slots
    exact List.map_eq_nil_iff.mp slots

section Passed

variable {shown : List Showing} {posted : List (Nat × Task σ)}

theorem Passed.shownThrough (passed : Passed shown posted w w') (c : Nat) : w'.shownThrough c =
    w.shownThrough c ++ (shown.filter (·.controller = c)).map (·.view) := by
  simp only [Ensemble.shownThrough, passed.showings, List.filter_append, List.map_append]

theorem Passed.awaits (passed : Passed shown posted w w') (c : Nat) :
    w'.awaits c = w.awaits c :=
  awaits_eq fun s id => by rw [slotAt, passed.signals]; exact Iff.rfl

theorem Passed.waiting (passed : Passed shown posted w w') (c : Nat) : w'.waiting c =
    w.waiting c + ((w.controller c).dispatcher.elim 0 fun d =>
      (posted.filter fun x => x.1 = d && w.awaits c x.2).length) := by
  have dispatcher := passed.controller (·.dispatcher) (fun _ => rfl) c
  simp only [Ensemble.waiting, dispatcher]
  cases (w.controller c).dispatcher with
  | none => rfl
  | some d =>
      simp only [passed.queues, passed.awaits, List.countP_append, List.countP_map,
        List.countP_filter, Function.comp_def, Option.elim]
      rw [← List.countP_eq_length_filter]
      simp only [Bool.and_comm]

theorem Passed.accountOf (passed : Passed shown posted w w') {pending : Nat} {views : List Nat}
    (showing : (shown.filter (·.controller = c)).map (·.view) = views)
    (posting : w'.waiting c = w.waiting c + pending) : w'.accountOf c =
      { w.accountOf c with
        pending := (w.accountOf c).pending + pending
        shown := (w.accountOf c).shown ++ views } := by
  simp only [Ensemble.accountOf, posting, passed.shownThrough, showing,
    passed.controller (·.model) (fun _ => rfl), passed.controller (·.view) (fun _ => rfl)]

end Passed

/-- What an emission shows and posts for a controller comes by its own connection. -/
theorem filter_shownBy (w : Ensemble σ (Diary τ)) (c : Nat) (notice : Notice)
    (l : List (ConnectionId × Connection (Slot σ))) :
    (l.flatMap (w.shownBy notice)).filter (·.controller = c) =
      (l.filter fun e => e.2.slot.controller? = some c).flatMap (w.shownBy notice) := by
  refine filter_flatMap_of_iff fun e _ x member => ?_
  unfold shownBy at member
  split at member
  · simp [mem_shows member, Slot.controller?]
  · cases member

/-- What an emission at a model posts is for a controller that is bound to it, by its
    dispatcher. -/
theorem mem_postedBy (tidy : Tidy w) {m : Nat} {n : Notice}
    {e : ConnectionId × Connection (Slot σ)} (listed : e ∈ (w.signal (.modelData m)).connections)
    {x : Nat × Task σ} (posted : x ∈ w.postedBy (.modelData m) n e) :
    ∃ b, e.2.slot = .controllerData b ∧ (w.controller b).dispatcher = some x.1 ∧
      x.2 = .delivery (.modelData m) e.1 (.controllerData b) n ∧
      w.slotAt (.modelData m) e.1 = some (.controllerData b) := by
  have named := slotAt_of_mem listed
  have fits := tidy.fits named
  obtain ⟨-, route⟩ := (tidy.signals _).routed e.1 e.2 (mem_connections.mp listed)
  obtain ⟨id, k, delivery⟩ := e
  cases k with
  | controllerData b =>
      simp only [Ensemble.route, modelDelivery] at route
      unfold postedBy at posted
      cases own : (w.controller b).dispatcher with
      | none => simp [route, own] at posted
      | some d =>
          simp only [route, own] at posted
          split at posted
          · cases posted
          · rw [List.mem_singleton.mp posted]
            exact ⟨b, rfl, own, rfl, named⟩
  | _ => simp [Slot.fits] at fits

theorem filter_postedBy (tidy : Tidy w) {m d : Nat} {n : Notice}
    (dispatched : (w.controller c).dispatcher = some d) :
    ((w.signal (.modelData m)).connections.flatMap (w.postedBy (.modelData m) n)).filter
        (fun x => x.1 = d && w.awaits c x.2) =
      ((w.signal (.modelData m)).connections.filter fun e =>
        e.2.slot.controller? = some c).flatMap (w.postedBy (.modelData m) n) := by
  refine filter_flatMap_of_iff fun e listed x posted => ?_
  obtain ⟨b, slot, own, task, named⟩ := mem_postedBy tidy listed posted
  rw [Bool.eq_iff_iff, task, slot]
  simp only [Bool.and_eq_true, decide_eq_true_eq, awaits_delivery, named, Slot.controller?,
    Option.some.injEq, Slot.controllerData.injEq]
  constructor
  · exact And.right
  · rintro rfl
    exact ⟨Option.some.inj (own.symm.trans dispatched), rfl⟩

/-- A change of a model is an entry in the accounts of the controllers that are bound to it. -/
theorem accountOf_change (tidy : Tidy w) {m : Nat}
    (passed : Passed ((w.signal (.modelData m)).connections.flatMap (w.shownBy .dataChanged))
      ((w.signal (.modelData m)).connections.flatMap (w.postedBy (.modelData m) .dataChanged))
      w w') (c : Nat) : w'.accountOf c = (w.accountOf c).change m (w.reachesAtOnce c) := by
  have shown := filter_shownBy w c .dataChanged (w.signal (.modelData m)).connections
  have posted := fun {d} => filter_postedBy (d := d) (m := m) (n := .dataChanged) (c := c) tidy
  have waiting := passed.waiting c
  obtain ⟨own, others⟩ := tidy.connections c m
  by_cases bound : (w.controller c).model = some m
  · obtain ⟨⟨id, e⟩, selected, rfl, named⟩ := own bound
    simp only [selected, List.flatMap_singleton] at shown posted
    simp only [Account.change, if_pos (show (w.accountOf c).model = some m from bound)]
    cases dispatched : (w.controller c).dispatcher with
    | none =>
        simp only [shownBy, modelDelivery, dispatched, servesInline, if_true] at shown
        simp only [dispatched, Option.elim] at waiting
        have views := (congrArg (List.map (·.view)) shown).trans (map_view_shows w c)
        refine (passed.accountOf views waiting).trans ?_
        simp [reachesAtOnce, dispatched, accountOf]
    | some d =>
        replace posted := posted dispatched
        simp only [dispatched, Option.elim, posted] at waiting
        by_cases here : w.thread = .presentation
        · simp only [shownBy, modelDelivery, dispatched, servesInline, here, decide_true,
            if_true] at shown
          simp only [postedBy, modelDelivery, dispatched, servesInline, here, decide_true,
            if_true] at waiting
          have views := (congrArg (List.map (·.view)) shown).trans (map_view_shows w c)
          refine (passed.accountOf views waiting).trans ?_
          simp [reachesAtOnce, here, accountOf]
        · simp only [shownBy, modelDelivery, dispatched, servesInline, here, decide_false] at shown
          simp only [postedBy, modelDelivery, dispatched, servesInline, here,
            decide_false] at waiting
          refine (passed.accountOf (congrArg (List.map (·.view)) shown) waiting).trans ?_
          simp [reachesAtOnce, dispatched, here, accountOf]
  · have none : (w.accountOf c).model ≠ some m := bound
    rw [Account.change, if_neg none]
    simp only [others bound, List.flatMap_nil] at shown posted
    have kept : w'.waiting c = w.waiting c + 0 := by
      rw [waiting]
      cases dispatched : (w.controller c).dispatcher with
      | none => rfl
      | some d => simp only [Option.elim, posted dispatched, List.length_nil]
    refine (passed.accountOf (congrArg _ shown) kept).trans ?_
    simp

/-! ## What quiet calls and emissions keep -/

theorem Passed.orderly {shown : List Showing} {posted : List (Nat × Task σ)}
    (passed : Passed shown posted w w') (orderly : Orderly w)
    (queued : ∀ x ∈ posted, w.Queued x.1 x.2) : Orderly w' where
  toTidy := passed.tidy orderly.toTidy
  queued d t waits := by
    refine Queued.alike ?_ passed.toAlike
    rw [passed.queues] at waits
    rcases List.mem_append.mp waits with before | new
    · exact orderly.queued d t before
    · obtain ⟨x, member, rfl⟩ := List.mem_map.mp new
      obtain ⟨member, same⟩ := List.mem_filter.mp member
      exact of_decide_eq_true same ▸ queued x member

/-- Nothing was shown or posted, so the accounts are the same. -/
theorem Passed.accounted (passed : Passed [] [] w w') (orderly : Orderly w) :
    Accounted (fun _ => id) w w' where
  orderly := passed.orderly orderly (by simp)
  thread := passed.thread
  accounts c := by
    refine accountOf_eq ?_ ?_ ?_ (by simp [passed.queues]) ?_ (by simp [passed.showings])
    · exact passed.controller (·.model) (fun _ => rfl) c
    · exact passed.controller (·.view) (fun _ => rfl) c
    · exact passed.controller (·.dispatcher) (fun _ => rfl) c
    · exact fun s id => by rw [slotAt, passed.signals]; exact Iff.rfl

section Emission

variable {β : Behaviour σ (Diary τ)} {n : Nat} (diarist : β.Diarist)
include diarist

/-- Announcing that a model changed is an entry in the accounts. -/
theorem emitChange_accounted (orderly : Orderly w) (m : Nat) :
    Reaches (emit (run β (n + 4)) (.modelData m) .dataChanged) w fun _ w' =>
      Accounted (fun c => (·.change m (w.reachesAtOnce c))) w w' := by
  have tidy := orderly.toTidy
  refine (emit_passes tidy fun k fits w₁ alike => ?_).mono fun _ w' passed => ⟨?_, ?_, ?_⟩
  · cases k with
    | controllerData c => exact change_passes diarist (alike.tidy tidy) c
    | _ => simp [Slot.fits] at fits
  · refine passed.orderly orderly fun x member => ?_
    obtain ⟨e, listed, posted⟩ := List.mem_flatMap.mp member
    obtain ⟨b, -, own, task, named⟩ := mem_postedBy tidy listed posted
    exact ⟨m, e.1, b, task, own, .inr (.inr ⟨_, named, rfl⟩)⟩
  · exact passed.thread
  · exact accountOf_change tidy passed

end Emission

/-! ## Draining -/

/-- What a task shows. -/
def shownIn (w : Ensemble σ (Diary τ)) : Task σ → List Showing
  | .delivery s id k notice => if (w.signal s).isConnected id then w.shows k notice else []
  | .client _ => []

theorem Alike.shownIn (alike : Alike w w') : w'.shownIn = w.shownIn := by
  funext t
  cases t with
  | delivery s id k notice => simp only [Ensemble.shownIn, alike.signals, alike.shows]
  | client code => rfl

/-- Only these views were shown, and one queue was emptied. -/
structure Emptied (d : Nat) (shown : List Showing) (w w' : Ensemble σ (Diary τ)) : Prop
    extends Alike w w' where
  showings : w'.client.showings = w.client.showings ++ shown
  empty : (w'.dispatcher d).queue = []
  others : ∀ e, e ≠ d → (w'.dispatcher e).queue = (w.dispatcher e).queue

section Draining

variable {β : Behaviour σ (Diary τ)} {n : Nat} (diarist : β.Diarist)
include diarist

theorem task_passes (tidy : Tidy w) {d : Nat} {t : Task σ} (queued : w.Queued d t) :
    Reaches (run β (n + 5) (.task t)) w fun _ w' => Passed (w.shownIn t) [] w w' := by
  obtain ⟨m, id, c, rfl, -⟩ := queued
  refine reaches_get ?_
  simp only [shownIn]
  split
  · exact change_passes diarist tidy c
  · exact reaches_pure (.refl w)

/-- Draining shows what the tasks show. -/
theorem drain_empties (tidy : Tidy w) {d : Nat} (tasks : List (Task σ))
    (queue : (w.dispatcher d).queue = tasks) (queued : ∀ t ∈ tasks, w.Queued d t) :
    Reaches (drain (run β (n + 5)) d (tasks.length + 1)) w fun _ w' =>
      Emptied d (tasks.flatMap w.shownIn) w w' := by
  induction tasks generalizing w with
  | nil =>
      refine reaches_get ?_
      simp only [Dispatcher.next?, queue]
      exact reaches_pure ⟨.refl w, (List.append_nil _).symm, queue, fun _ _ => rfl⟩
  | cons t rest ih =>
      refine reaches_get ?_
      simp only [Dispatcher.next?, queue]
      refine reaches_modify ?_
      have taken : Alike w
          (updateDispatcher d (fun _ => { w.dispatcher d with queue := rest }) w) :=
        .of_queues w d _
      have first := (queued t List.mem_cons_self).alike taken
      refine (task_passes diarist (taken.tidy tidy) first).bind fun _ w₂ passed => ?_
      refine reaches_modify ?_
      have onward := (taken.trans passed.toAlike).trans (.of_queues w₂ d Dispatcher.finish)
      have queue' : ((updateDispatcher d Dispatcher.finish w₂).dispatcher d).queue = rest := by
        rw [dispatcher_updateDispatcher, if_pos rfl]
        show (w₂.dispatcher d).queue = rest
        rw [passed.queues, dispatcher_updateDispatcher, if_pos rfl]
        exact List.append_nil rest
      have later := ih (onward.tidy tidy) queue' fun t member =>
        (queued t (List.mem_cons_of_mem _ member)).alike onward
      refine later.bind fun count w' emptied => reaches_pure ⟨onward.trans emptied.toAlike, ?_,
        emptied.empty, fun e other => ?_⟩
      · rw [emptied.showings, onward.shownIn, List.flatMap_cons, ← List.append_assoc]
        exact congrArg (· ++ _) (passed.showings.trans (by rw [taken.shownIn]; rfl))
      · rw [emptied.others e other, dispatcher_updateDispatcher, if_neg other, passed.queues,
          dispatcher_updateDispatcher, if_neg other]
        exact List.append_nil _

end Draining

/-- A queued task that shows something awaits the controller that it is for. -/
theorem Queued.concerns {d : Nat} {t : Task σ} (queued : w.Queued d t) (tidy : Tidy w) {x : Showing}
    (member : x ∈ w.shownIn t) (c : Nat) : decide (x.controller = c) = w.awaits c t := by
  obtain ⟨m, id, b, rfl, -, own⟩ := queued
  simp only [shownIn] at member
  split at member
  · next connected =>
      obtain ⟨e, entry⟩ := Option.isSome_iff_exists.mp connected
      have named : w.slotAt (.modelData m) id = some e.slot := by
        simp [slotAt, Signal.slot?, entry]
      have mine := mem_shows member
      cases mine
      rw [Bool.eq_iff_iff, awaits_delivery, named, own.property (tidy.wired.sound _) named]
      simp
  · cases member

theorem shownIn_of_awaits {d : Nat} {t : Task σ} (queued : w.Queued d t)
    (tidy : Tidy w) (awaited : w.awaits c t = true) :
    (w.shownIn t).map (·.view) = (w.controller c).view.toList := by
  obtain ⟨m, id, b, rfl, -, own⟩ := queued
  have named := awaits_delivery.mp awaited
  have same := own.property (tidy.wired.sound _) named
  cases same
  simp only [shownIn, if_pos (show (w.signal (.modelData m)).isConnected id = true from
    Signal.contains_of_slot? named)]
  exact map_view_shows w c

/-- What a drain shows for a controller are the tasks that await it. -/
theorem views_of_drain (tidy : Tidy w) {d : Nat} {tasks : List (Task σ)}
    (queued : ∀ t ∈ tasks, w.Queued d t) (c : Nat) :
    ((tasks.flatMap w.shownIn).filter (·.controller = c)).map (·.view) =
      (w.controller c).view.toList.flatMap (List.replicate (tasks.countP (w.awaits c))) := by
  rw [filter_flatMap_of_iff fun t member x shown => (queued t member).concerns tidy shown c,
    List.map_flatMap, List.countP_eq_length_filter]
  have each : ∀ t ∈ tasks.filter (w.awaits c),
      (w.shownIn t).map (·.view) = (w.controller c).view.toList := by
    intro t member
    obtain ⟨member, awaited⟩ := List.mem_filter.mp member
    exact shownIn_of_awaits (queued t member) tidy awaited
  rw [List.flatMap_congr each]
  cases (w.controller c).view with
  | none => simp
  | some v => simp [List.eq_replicate_iff]

/-- A drain is an entry in the accounts of the dispatcher's controllers. -/
theorem Emptied.accounted {d : Nat} (orderly : Orderly w)
    (emptied : Emptied d ((w.dispatcher d).queue.flatMap w.shownIn) w w') :
    Accounted (fun c o => if (w.controller c).dispatcher = some d then o.drain else o) w w' where
  orderly := by
    refine ⟨emptied.tidy orderly.toTidy, fun e t waits => ?_⟩
    by_cases here : e = d
    · rw [here, emptied.empty] at waits
      cases waits
    · rw [emptied.others e here] at waits
      exact (orderly.queued e t waits).alike emptied.toAlike
  thread := emptied.thread
  accounts c := by
    have model := emptied.controller (·.model) (fun _ => rfl) c
    have view := emptied.controller (·.view) (fun _ => rfl) c
    have dispatcher := emptied.controller (·.dispatcher) (fun _ => rfl) c
    have awaits : w'.awaits c = w.awaits c :=
      awaits_eq fun s id => by rw [slotAt, emptied.signals]; exact Iff.rfl
    have views := views_of_drain orderly.toTidy (orderly.queued d) c
    simp only [accountOf, model, view, waiting, dispatcher, shownThrough, emptied.showings,
      List.filter_append, List.map_append, views, awaits]
    by_cases own : (w.controller c).dispatcher = some d
    · simp [Account.drain, own, emptied.empty]
    · have none : (w.dispatcher d).queue.countP (w.awaits c) = 0 :=
        List.countP_eq_zero.mpr fun t member awaited =>
          own ((orderly.queued d t member).dispatcher orderly.toTidy awaited)
      rw [if_neg own]
      cases other : (w.controller c).dispatcher with
      | none => simp [none]
      | some e =>
          have elsewhere : e ≠ d := fun same => own (other.trans (congrArg some same))
          simp [none, emptied.others e elsewhere]

/-! ## Binding -/

section Holding

variable {run : Runner σ (Diary τ)} {α : Type} {p : Proc (Ensemble σ (Diary τ)) α}
  {f : Nat → Account → Account}

theorem holdingController_accounted (orderly : Orderly w) (c : Nat)
    (inner : ∀ w₁, Orderly w₁ → Reaches p w₁ fun _ w₂ => Accounted f w₁ w₂) :
    Reaches (holdingController run c p) w fun _ w' => Accounted f w w' := by
  have pinned := (passed_holders w c (·.pins + 1)).accounted orderly
  refine holdingController_reaches ((inner _ pinned.orderly).mono fun _ w₂ done => ?_)
  have unpinned := (passed_holders w₂ c (·.pins - 1)).accounted done.orderly
  exact ⟨(done.orderly.controllers c).1, (pinned.trans done).trans unpinned⟩

theorem holdingView?_accounted (orderly : Orderly w) (v : Option Nat)
    (inner : ∀ w₁, Orderly w₁ → Reaches p w₁ fun _ w₂ => Accounted f w₁ w₂) :
    Reaches (holdingView? run v p) w fun _ w' => Accounted f w w' := by
  cases v with
  | none => exact inner w orderly
  | some v =>
      have pinned := (passed_viewPins w v (·.pins + 1)).accounted orderly
      refine holdingView_reaches ((inner _ pinned.orderly).mono fun _ w₂ done => ?_)
      have unpinned := (passed_viewPins w₂ v (·.pins - 1)).accounted done.orderly
      exact ⟨done.orderly.views v, (pinned.trans done).trans unpinned⟩

end Holding

/-- Binding another model is an entry in the account of the controller. -/
theorem bindModel_accounted (orderly : Orderly w) {m : Option Nat}
    (other : (w.controller c).model ≠ m) :
    Accounted (fun b o => if c = b then o.bindModel m else o) w (bindModel c m w) := by
  have tidy := orderly.toTidy
  have aside := Aside.bindModel (w := w) c m
  have settled := settled_bindModel tidy c m
  have parts := parts_bindModel (w := w) c m
  refine ⟨⟨tidy.bindModel c m, fun d t waits => ?_⟩, aside.thread, fun b => ?_⟩
  · rw [aside.queues] at waits
    exact (orderly.queued d t waits).of_same (fun b => (parts b).1) settled
  · obtain ⟨dispatcher, view, model⟩ := parts b
    by_cases here : c = b
    · subst here
      -- Whatever is queued for the controller is for its old connection, which is gone.
      have dropped : (bindModel c m w).waiting c = 0 := by
        simp only [waiting, dispatcher]
        cases (w.controller c).dispatcher with
        | none => rfl
        | some d =>
            simp only [aside.queues]
            refine List.countP_eq_zero.mpr fun t waits awaited => ?_
            obtain ⟨i, id, b, rfl, -, own⟩ := orderly.queued d t waits
            have named := awaits_delivery.mp awaited
            have mine := (settled _ _ _ own).property ((tidy.bindModel c m).wired.sound _) named
            cases mine
            exact gone_of_bindModel tidy m own named
      have entry : (w.accountOf c).bindModel m =
          { w.accountOf c with model := m, pending := 0 } := if_neg other
      rw [if_pos rfl, entry]
      simp only [accountOf, model, view, dropped, shownThrough, aside.client, if_true]
    · rw [if_neg here]
      rw [if_neg (Ne.symm here)] at model
      exact accountOf_eq model view dispatcher (fun d => by rw [aside.queues])
        (fun s id => slotAt_bindModel tidy (Ne.symm here) m) (by rw [aside.client])

/-- Binding a view is an entry in the account of the controller. -/
theorem bindView_accounted (orderly : Orderly w) (c : Nat) (v : Option Nat) :
    Accounted (fun b o => if c = b then o.bindView v else o) w (bindView c v w) := by
  have tidy := orderly.toTidy
  have aside := Aside.bindView tidy.toPlain c v
  have parts := parts_bindView (w := w) c v
  refine ⟨⟨tidy.bindView c v, fun d t waits => ?_⟩, aside.thread, fun b => ?_⟩
  · rw [aside.queues] at waits
    exact (orderly.queued d t waits).of_same (fun b => (parts b).1) (settled_bindView tidy c v)
  · obtain ⟨dispatcher, model, view⟩ := parts b
    have awaits : (bindView c v w).awaits b = w.awaits b :=
      awaits_eq fun s id => slotAt_bindView tidy c v
    have waiting : (bindView c v w).waiting b = w.waiting b := by
      simp only [Ensemble.waiting, dispatcher, awaits, aside.queues]
    simp only [accountOf, model, view, waiting, shownThrough, aside.client]
    by_cases here : c = b
    · simp [here, Account.bindView]
    · simp [here, Ne.symm here]

section Binding

variable {β : Behaviour σ (Diary τ)} {n : Nat} (diarist : β.Diarist)
include diarist

theorem setModel_accounted (orderly : Orderly w) (c : Nat) (m : Option Nat) :
    Reaches (setModel (run β (n + 3)) β c m) w fun _ w' =>
      Accounted (fun b o => if c = b then o.bindModel m else o) w w' := by
  by_cases same : (w.controller c).model = m
  · have unchanged : setModel (run β (n + 3)) β c m w = some ((), w) := by
      unfold setModel
      rw [get_bind]
      exact congrFun (if_pos same) w
    refine reaches_of_eq unchanged ⟨orderly, rfl, fun b => ?_⟩
    split
    · next here =>
        subst here
        exact (if_pos same).symm
    · rfl
  · have bound := bindModel_accounted orderly same
    obtain ⟨r, w', done, passed⟩ := announce_passes (n := n) diarist bound.orderly.toTidy c
    refine ⟨r, w', (setModel_eq orderly.toTidy same).trans done, ?_⟩
    exact bound.trans (passed.accounted bound.orderly)

theorem setView_accounted (orderly : Orderly w) (c : Nat) (v : Option Nat) :
    Reaches (setView (run β (n + 3)) β c v) w fun _ w' =>
      Accounted (fun b o => if c = b then o.bindView v else o) w w' := by
  by_cases same : (w.controller c).view = v
  · have unchanged : setView (run β (n + 3)) β c v w = some ((), w) := by
      unfold setView
      rw [get_bind]
      exact congrFun (if_pos same) w
    refine reaches_of_eq unchanged ⟨orderly, rfl, fun b => ?_⟩
    split
    · next here =>
        subst here
        subst same
        rfl
    · rfl
  · have bound := bindView_accounted orderly c v
    obtain ⟨r, w', done, passed⟩ := announce_passes (n := n) diarist bound.orderly.toTidy c
    refine ⟨r, w', (setView_eq orderly.toTidy same).trans done, ?_⟩
    exact bound.trans (passed.accounted bound.orderly)

end Binding

/-! ## Changes of models -/

theorem Alike.reachesAtOnce (alike : Alike w w') (c : Nat) :
    w'.reachesAtOnce c = w.reachesAtOnce c := by
  simp only [Ensemble.reachesAtOnce, alike.thread, alike.controller (·.dispatcher) fun _ => rfl]

theorem passed_updateStore (w : Ensemble σ (Diary τ)) (m : Nat) (f : Store → Store) :
    Passed [] [] w (updateStore m f w) where
  thread := rfl
  signals := signal_updateModel w m (by exact fun _ => ⟨rfl, rfl, rfl⟩)
  controllers _ := rfl
  attachments _ := rfl
  views _ := rfl
  models i := by
    rw [updateStore, model_updateModel]
    split
    · next same => rw [same]
    · rfl
  showings := (List.append_nil _).symm
  queues _ := (List.append_nil _).symm

section Changes

variable {β : Behaviour σ (Diary τ)} {n m : Nat} (diarist : β.Diarist)

/-- Nobody listens to single properties of a model or to its validity. -/
theorem emit_unheard {run : Runner σ (Diary τ)} {s : SignalRef} {notice : Notice} (tidy : Tidy w)
    (unheard : ∀ k : Slot σ, k.fits s = false) :
    Reaches (emit run s notice) w fun _ w' => Passed [] [] w w' := by
  refine emit_quietly tidy (fun i same => ?_) fun k fits => ?_
  · have heard := unheard (.controllerData 0)
    rw [same] at heard
    cases heard
  · rw [unheard k] at fits
    cases fits

theorem unheard_property (k : Slot σ) : k.fits (.modelProperty m) = false := by
  cases k <;> rfl

theorem unheard_validity (k : Slot σ) : k.fits (.modelValidity m) = false := by
  cases k <;> rfl

/-- A model changes, but not its signals. -/
theorem updateModel_accounted (orderly : Orderly w) (m : Nat) {f : Model σ → Model σ}
    (signals : ∀ o, (f o).propertyChanged = o.propertyChanged ∧ (f o).dataChanged = o.dataChanged ∧
      (f o).validityChanged = o.validityChanged) :
    Accounted (fun _ => id) w (updateModel m f w) := by
  have same := signal_updateModel w m signals
  refine ⟨⟨⟨?_, ?_⟩, fun d t waits => ?_⟩, rfl, fun c => ?_⟩
  · exact orderly.toPlain.of_same same (fun _ => ⟨rfl, rfl, rfl⟩) fun _ => rfl
  · exact orderly.wired.of_same same fun l => SameBonds.sameLink (fun _ _ => ⟨rfl, rfl, rfl, rfl⟩)
      fun _ _ => rfl
  · exact (orderly.queued d t waits).of_same (fun _ => rfl) fun P s id own => by rwa [same s]
  · refine accountOf_eq rfl rfl rfl (fun _ => rfl) (fun s id => ?_) rfl
    rw [slotAt, same]
    exact Iff.rfl

theorem emitValidity_accounted {run : Runner σ (Diary τ)} (orderly : Orderly w) :
    Reaches (emitValidity run β m) w fun _ w' => Accounted (fun _ => id) w w' :=
  reaches_get ((emit_unheard orderly.toTidy unheard_validity).mono fun _ _ passed =>
    passed.accounted orderly)

include diarist

/-- A property has a new value. -/
theorem announceWrite_accounted (orderly : Orderly w) (ready : Passed [] [] w w₁) (name : String)
    (value : Value) :
    Reaches (do
        emit (run β (n + 4)) (.modelProperty m) (.property name value)
        emit (run β (n + 4)) (.modelData m) .dataChanged
        return SetOutcome.changed) w₁ fun r w' =>
      Accounted (fun c o => if r.isChanged then o.change m (w.reachesAtOnce c) else o) w w' := by
  have tidy₁ := ready.tidy orderly.toTidy
  refine (emit_unheard tidy₁ unheard_property).bind fun _ w₂ told => ?_
  have through := ready.after told
  have before := through.accounted orderly
  refine (emitChange_accounted diarist before.orderly m).bind fun _ w₃ changed => ?_
  simp only [through.reachesAtOnce] at changed
  exact reaches_pure (before.trans changed)

theorem write_accounted (orderly : Orderly w) (hooked : Bool) (name : String) (value : Value) :
    Reaches (write (run β (n + 4)) β m hooked name value) w fun r w' =>
      Accounted (fun c o => if r.isChanged then o.change m (w.reachesAtOnce c) else o) w w' := by
  have tidy := orderly.toTidy
  unfold write
  cases hooked with
  | false =>
      refine reaches_get (reaches_get ?_)
      simp only [Bool.false_eq_true, if_false]
      split
      · exact reaches_pure ((Passed.refl w).accounted orderly)
      · refine reaches_modify ?_
        have stored := passed_updateStore w m fun s => s.write name value
        exact announceWrite_accounted diarist orderly stored name value
  | true =>
      refine (quiet_passes diarist (diarist.accepts m name value) tidy).bind
        fun accepted w₁ asked => ?_
      cases accepted with
      | false => exact reaches_pure (asked.accounted orderly)
      | true =>
          refine reaches_get ?_
          dsimp only
          split
          · exact reaches_pure (asked.accounted orderly)
          · refine reaches_modify ?_
            have stored := asked.after (passed_updateStore w₁ m fun s => s.write name value)
            refine (quiet_passes diarist (diarist.afterSet m name _ value)
              (stored.tidy tidy)).bind fun _ w₂ reacted => ?_
            exact announceWrite_accounted diarist orderly (stored.after reacted) name value

theorem emitReloaded_accounted (orderly : Orderly w) :
    Reaches (emitReloaded (run β (n + 4)) β m) w fun _ w' =>
      Accounted (fun c => (·.change m (w.reachesAtOnce c))) w w' := by
  refine (emitChange_accounted diarist orderly m).bind fun _ w₁ changed => ?_
  exact (emitValidity_accounted changed.orderly).mono fun _ _ told => changed.trans told

theorem setProperty_accounted (orderly : Orderly w) (name : String) (value : Value) :
    Reaches (setProperty (run β (n + 4)) β m name value) w fun r w' =>
      Accounted (fun c o => if r.isChanged then o.change m (w.reachesAtOnce c) else o) w w' := by
  refine (write_accounted diarist orderly true name value).bind fun outcome w₁ written => ?_
  cases outcome with
  | changed =>
      refine (emitValidity_accounted written.orderly).bind fun _ w₂ told => ?_
      exact reaches_pure (written.trans told)
  | unchanged | rejected => exact reaches_pure written

/-- A model that is not initialized yet is filled with its defaults, if there are any. -/
theorem initializeModel_accounted (orderly : Orderly w) :
    Reaches (initializeModel (run β (n + 4)) β m) w fun r w' =>
      Accounted (fun c o => if r.isOk && !(w.model m).initialized then
        o.change m (w.reachesAtOnce c) else o) w w' := by
  refine reaches_get ?_
  by_cases already : (w.model m).initialized = true
  · rw [if_pos already]
    refine reaches_pure ?_
    simp only [already, Bool.not_true, Bool.and_false]
    exact (Passed.refl w).accounted orderly
  · rw [if_neg already]
    refine (quiet_passes diarist (diarist.populate m) orderly.toTidy).bind
      fun populated w₁ asked => ?_
    have quiet := asked.accounted orderly
    cases populated with
    | error e => exact reaches_pure quiet
    | ok defaults =>
        have still : ¬(w₁.model m).initialized = true := by rwa [asked.models m]
        refine reaches_get ?_
        rw [if_neg still]
        refine reaches_modify ?_
        have filled := quiet.trans (updateModel_accounted quiet.orderly m
          (f := fun o => { o with store := .ofPairs defaults, initialized := true })
          fun _ => ⟨rfl, rfl, rfl⟩)
        refine (emitReloaded_accounted diarist filled.orderly).bind fun _ w₂ told => ?_
        refine reaches_pure ?_
        have once : ∀ c, (updateModel m (fun o =>
            { o with store := .ofPairs defaults, initialized := true }) w₁).reachesAtOnce c =
            w.reachesAtOnce c := asked.reachesAtOnce
        simp only [once] at told
        simp only [already, Except.isOk, Except.toBool, Bool.not_false, Bool.and_true, if_true]
        exact filled.trans told

/-- A model is filled with its defaults again, if there are any. -/
theorem resetModel_accounted (orderly : Orderly w) :
    Reaches (resetModel (run β (n + 4)) β m) w fun r w' =>
      Accounted (fun c o => if r.isOk then o.change m (w.reachesAtOnce c) else o) w w' := by
  refine (quiet_passes diarist (diarist.populate m) orderly.toTidy).bind
    fun populated w₁ asked => ?_
  cases populated with
  | error e => exact reaches_pure (asked.accounted orderly)
  | ok defaults =>
      refine reaches_modify ?_
      have filled := asked.after (passed_updateStore w₁ m fun _ => .ofPairs defaults)
      have before := filled.accounted orderly
      refine (emitReloaded_accounted diarist before.orderly).bind fun _ w₂ told => ?_
      simp only [filled.reachesAtOnce] at told
      exact reaches_pure (before.trans told)

end Changes

/-! ## Actions -/

theorem signal_thread (w : Ensemble σ (Diary τ)) (thread : Thread) (s : SignalRef) :
    signal { w with thread } s = w.signal s := by
  cases s <;> rfl

/-- Another thread runs. -/
theorem Orderly.thread (orderly : Orderly w) (thread : Thread) : Orderly { w with thread } := by
  have same := signal_thread w thread
  refine ⟨⟨?_, ?_⟩, fun d t waits => ?_⟩
  · exact orderly.toPlain.of_same same (fun _ => ⟨rfl, rfl, rfl⟩) fun _ => rfl
  · exact orderly.wired.of_same same fun l => SameBonds.sameLink (fun _ _ => ⟨rfl, rfl, rfl, rfl⟩)
      fun _ _ => rfl
  · exact (orderly.queued d t waits).of_same (fun _ => rfl) fun P s id own => by rwa [same s]

theorem accountOf_thread (w : Ensemble σ (Diary τ)) (thread : Thread) (c : Nat) :
    accountOf { w with thread } c = w.accountOf c :=
  accountOf_eq rfl rfl rfl (fun _ => rfl)
    (fun s id => by rw [slotAt, signal_thread]; exact Iff.rfl) rfl

/-- If an action tells by its result whether it has changed a model, its entry is that. -/
theorem Accounted.changed {m : Nat} {told : Bool} (done : Accounted (fun c o =>
    if told then o.change m (w.reachesAtOnce c) else o) w w') :
    Accounted (fun c o =>
      match if told then some m else none with
      | some m => o.change m (w.reachesAtOnce c)
      | none => o) w w' := by
  cases told <;> exact done

theorem Fresh.orderly (fresh : Fresh w) (views : ∀ v, (w.view v).held = true) : Orderly w where
  controllers c := ⟨(fresh.controllers c).1, (fresh.controllers c).2.2.1⟩
  views := views
  signals s := by
    rw [fresh.signals]
    exact ⟨Signal.sound_new, rfl, rfl, fun id k named => by cases named⟩
  wired := fresh.intact.wired
  queued d t waits := by
    rw [fresh.queues] at waits
    cases waits

theorem Fresh.accountOf (fresh : Fresh w) (empty : w.client.showings = []) (c : Nat) :
    w.accountOf c = .new := by
  obtain ⟨-, -, -, model, view, -, -⟩ := fresh.controllers c
  have waits : w.waiting c = 0 := by
    unfold waiting
    split
    · next d _ => rw [fresh.queues d, List.countP_nil]
    · rfl
  simp only [Ensemble.accountOf, model, view, waits, shownThrough, empty]
  rfl

section Actions

variable {β : Behaviour σ (Diary τ)} (diarist : β.Diarist)
include diarist

/-- What is done from outside comes to an end and is an entry in the accounts. -/
theorem daily_accounted (orderly : Orderly w) {a : Action σ (Diary τ)} (daily : a.isDaily = true) :
    ∃ depth, Reaches (run β depth (.action a)) w fun r w' =>
      Accounted (fun c => w.accountAfter c a r) w w' := by
  induction a generalizing w with
  | setModel c m =>
      exact ⟨4, holdingController_accounted orderly c fun _ orderly =>
        setModel_accounted (n := 0) diarist orderly c m⟩
  | setView c v =>
      exact ⟨4, holdingController_accounted orderly c fun _ orderly =>
        holdingView?_accounted orderly v fun _ orderly =>
          setView_accounted (n := 0) diarist orderly c v⟩
  | initializeController c =>
      exact ⟨4, holdingController_accounted orderly c fun _ orderly =>
        (initializeController_passes (n := 0) diarist orderly.toTidy c).mono fun _ _ passed =>
          passed.accounted orderly⟩
  | handleClosing c =>
      exact ⟨4, holdingController_accounted orderly c fun _ orderly =>
        (handleClosing_passes (n := 0) diarist orderly.toTidy c).mono fun _ _ passed =>
          passed.accounted orderly⟩
  | announceClosing v =>
      exact ⟨5, holdingView?_accounted orderly (some v) fun _ orderly =>
        (announceClosing_passes (n := 0) diarist orderly.toTidy v).mono fun _ _ passed =>
          passed.accounted orderly⟩
  | write m hooked name value =>
      exact ⟨5, (write_accounted (n := 0) diarist orderly hooked name value).mono
        fun _ _ done => done.changed⟩
  | setProperty m name value =>
      exact ⟨5, (setProperty_accounted (n := 0) diarist orderly name value).mono
        fun _ _ done => done.changed⟩
  | initializeModel m =>
      exact ⟨5, (initializeModel_accounted (n := 0) diarist orderly).mono
        fun _ _ done => done.changed⟩
  | resetModel m =>
      exact ⟨5, (resetModel_accounted (n := 0) diarist orderly).mono fun _ _ done => done.changed⟩
  | inBackground a ih =>
      obtain ⟨depth, r, w₂, done, there⟩ := ih (orderly.thread .background) daily
      refine ⟨depth + 1, r, { w₂ with thread := w.thread }, ?_, there.orderly.thread _, rfl,
        fun c => ?_⟩
      · refine (get_bind _ w).trans ((modify_bind _ _ _).trans ?_)
        exact bind_eq_of_eq done
      · rw [accountOf_thread, there.accounts, accountOf_thread]
        rfl
  | _ => cases daily

/-- And so is a drain. -/
theorem drain_accounted (orderly : Orderly w) (d : Nat) :
    ∃ depth, Reaches (run β depth (.action (.drain d))) w fun r w' =>
      Accounted (fun c => w.accountAfter c (.drain d) r) w w' := by
  obtain ⟨count, w', done, emptied⟩ :=
    drain_empties (n := (w.dispatcher d).queue.length) diarist orderly.toTidy _ rfl
      (orderly.queued d)
  have deep : (w.dispatcher d).queue.length + 1 ≤ (w.dispatcher d).queue.length + 5 := by omega
  have more := drain_more (covers_self _) d deep w count w' done
  exact ⟨(w.dispatcher d).queue.length + 6, count, w', more.1, emptied.accounted orderly⟩

theorem kept_accounted (orderly : Orderly w) {a : Action σ (Diary τ)} (kept : a.isKept = true) :
    ∃ depth, Reaches (run β depth (.action a)) w fun r w' =>
      Accounted (fun c => w.accountAfter c a r) w w' := by
  cases a with
  | drain d => exact drain_accounted diarist orderly d
  | _ => exact daily_accounted diarist orderly kept

/-! ## Whole runs -/

/-- The state agrees with the accounts all along. -/
theorem Books.agree {accounts : Nat → Account} (books : Books β accounts w) :
    Orderly w ∧ ∀ c, w.accountOf c = accounts c := by
  induction books with
  | blank fresh views empty => exact ⟨fresh.orderly views, fresh.accountOf empty⟩
  | @entry accounts w w' a r depth _ kept done ih =>
      obtain ⟨orderly, agree⟩ := ih
      obtain ⟨deep, r', w'', ends, accounted⟩ := kept_accounted diarist orderly kept
      cases run_unique done ends
      exact ⟨accounted.orderly, fun c => by rw [accounted.accounts, agree]⟩

end Actions

/-! ## A run with a rebound model -/

/-- A controller is made for a dispatcher. -/
def dispatchedBy (d : Nat) (o : Controller σ) : Controller σ := { o with dispatcher := some d }

/-- Models and views that do nothing by themselves, and controllers that keep a diary. -/
def plainDiary : Behaviour σ (Diary τ) := { Behaviour.plain with derive := note }

theorem diarist_plainDiary : (plainDiary : Behaviour σ (Diary τ)).Diarist where
  setup _ := rfl
  connect _ := rfl
  derive _ := rfl
  dataChanged _ := rfl
  updateRequested _ := rfl
  closing _ := rfl
  accepts _ _ _ := trivial
  afterSet _ _ _ _ := trivial
  populate _ := trivial
  display _ := trivial

theorem Books.next {β : Behaviour σ (Diary τ)} {accounts : Nat → Account}
    (books : Books β accounts w) (depth : Nat) (a : Action σ (Diary τ)) (kept : a.isKept = true)
    (ends : (run β depth (.action a) w).isSome = true) :
    Books β (fun c => w.accountAfter c a ((run β depth (.action a) w).get ends).1 (accounts c))
      ((run β depth (.action a) w).get ends).2 :=
  books.entry depth kept (Option.some_get ends).symm

end Ensemble

end Mvc
