import Mvc.Proofs.Slots
import Mvc.Proofs.Tidy

/-! # Keeping a diary

To tell which view was shown anew through which controller, and when, the client keeps a
diary in its own state: what a controller derives before its view is shown is an entry for
this view. Apart from that the hooks of controllers are the default ones, and models and
views are quiet: they look at everything, change what is the client's but not the diary, and
announce finished updates.

Then all that an emission, a binding or a queued task sets off comes to an end, and changes
nothing but the diary and the queues.
-/

namespace Mvc

variable {σ τ : Type}

/-- A view was shown anew through a controller. -/
structure Showing where
  controller : Nat
  view : Nat
  deriving DecidableEq, Repr

/-- The client's own state, with a diary. -/
structure Diary (τ : Type) where
  showings : List Showing
  rest : τ

/-- Write an entry. -/
def Diary.enter {τ : Type} (showing : Showing) (e : Diary τ) : Diary τ :=
  { e with showings := e.showings ++ [showing] }

/-- What quiet code may do. -/
def Action.IsQuiet : Action σ (Diary τ) → Prop
  | .change f => ∀ e, (f e).showings = e.showings
  | .finishUpdate _ => True
  | _ => False

/-- An entry for the view that a controller is about to show anew. -/
def note (c : Nat) : Client σ (Diary τ) Unit :=
  .look fun w =>
    match (w.controller c).view with
    | some v => .perform (Action.change (Diary.enter ⟨c, v⟩))
    | none => .done ()

/-- Controllers that keep a diary and do nothing else by themselves, among quiet models and
    views. -/
structure Behaviour.Diarist (β : Behaviour σ (Diary τ)) : Prop where
  setup : ∀ c, β.setup c = pure (.ok ())
  connect : ∀ c, β.connect c = pure []
  derive : ∀ c, β.derive c = note c
  dataChanged : ∀ c, β.dataChanged c = .perform (Action.refresh c)
  updateRequested : ∀ c, β.updateRequested c = pure ()
  closing : ∀ c, β.closing c = pure ()
  accepts : ∀ m name value, (β.accepts m name value).All Action.IsQuiet
  afterSet : ∀ m name old new, (β.afterSet m name old new).All Action.IsQuiet
  populate : ∀ m, (β.populate m).All Action.IsQuiet
  display : ∀ v, (β.display v).All Action.IsQuiet

namespace Ensemble

open Proc

/-- A controller apart from its signals, its lifecycle and who holds it for a while. -/
def outline (o : Controller σ) : Controller σ := { o.bonds with pins := 0 }

variable {w w' w₁ : Ensemble σ (Diary τ)}

/-- What quiet code leaves as it is. -/
structure Alike (w w' : Ensemble σ (Diary τ)) : Prop where
  thread : w'.thread = w.thread
  signals : ∀ s, w'.signal s = w.signal s
  controllers : ∀ c, outline (w'.controller c) = outline (w.controller c)
  attachments : ∀ v, (w'.view v).attachment = (w.view v).attachment
  views : ∀ v, (w'.view v).held = (w.view v).held
  models : ∀ m, (w'.model m).initialized = (w.model m).initialized

/-- Some views were shown anew, and some tasks were posted. -/
structure Passed (shown : List Showing) (posted : List (Nat × Task σ))
    (w w' : Ensemble σ (Diary τ)) : Prop extends Alike w w' where
  showings : w'.client.showings = w.client.showings ++ shown
  queues : ∀ d, (w'.dispatcher d).queue =
    (w.dispatcher d).queue ++ (posted.filter (·.1 = d)).map (·.2)

namespace Alike

theorem refl (w : Ensemble σ (Diary τ)) : Alike w w :=
  ⟨rfl, fun _ => rfl, fun _ => rfl, fun _ => rfl, fun _ => rfl, fun _ => rfl⟩

theorem of_queues (w : Ensemble σ (Diary τ)) (d : Nat)
    (f : Dispatcher (Task σ) → Dispatcher (Task σ)) : Alike w (updateDispatcher d f w) :=
  ⟨rfl, signal_updateDispatcher w d f, fun _ => rfl, fun _ => rfl, fun _ => rfl, fun _ => rfl⟩

theorem trans (first : Alike w w₁) (second : Alike w₁ w') : Alike w w' where
  thread := second.thread.trans first.thread
  signals s := (second.signals s).trans (first.signals s)
  controllers c := (second.controllers c).trans (first.controllers c)
  attachments v := (second.attachments v).trans (first.attachments v)
  views v := (second.views v).trans (first.views v)
  models m := (second.models m).trans (first.models m)

/-- What does not look at signals, the lifecycle and who holds it for a while is the same. -/
theorem controller (alike : Alike w w') {α : Type} (f : Controller σ → α)
    (blind : ∀ o, f (outline o) = f o) (c : Nat) : f (w'.controller c) = f (w.controller c) := by
  rw [← blind, alike.controllers, blind]

theorem tidy (alike : Alike w w') (tidy : Tidy w) : Tidy w' where
  toPlain := by
    refine tidy.toPlain.of_same alike.signals (fun c => ⟨?_, ?_, ?_⟩) alike.views
    · exact alike.controller (·.held) (fun _ => rfl) c
    · exact alike.controller (·.bindings) (fun _ => rfl) c
    · exact alike.controller (·.dispatcher) (fun _ => rfl) c
  wired := by
    refine tidy.wired.of_same alike.signals fun l => SameBonds.sameLink (fun c _ => ?_) fun v _ =>
      alike.attachments v
    refine ⟨?_, ?_, ?_, ?_⟩
    · exact alike.controller (·.model) (fun _ => rfl) c
    · exact alike.controller (·.view) (fun _ => rfl) c
    · exact alike.controller (·.modelSubscriptions) (fun _ => rfl) c
    · exact alike.controller (·.viewSubscriptions) (fun _ => rfl) c

end Alike

namespace Passed

theorem refl (w : Ensemble σ (Diary τ)) : Passed [] [] w w :=
  ⟨.refl w, by simp, by simp⟩

theorem trans {shown shown' : List Showing} {posted posted' : List (Nat × Task σ)}
    (first : Passed shown posted w w₁) (second : Passed shown' posted' w₁ w') :
    Passed (shown ++ shown') (posted ++ posted') w w' where
  toAlike := first.toAlike.trans second.toAlike
  showings := by rw [second.showings, first.showings, List.append_assoc]
  queues d := by
    rw [second.queues, first.queues, List.filter_append, List.map_append, List.append_assoc]

/-- Before something, nothing was shown and nothing posted. -/
theorem after {shown : List Showing} {posted : List (Nat × Task σ)}
    (first : Passed [] [] w w₁) (second : Passed shown posted w₁ w') :
    Passed shown posted w w' := first.trans second

/-- After something, nothing was shown and nothing posted. -/
theorem before {shown : List Showing} {posted : List (Nat × Task σ)}
    (first : Passed shown posted w w₁) (second : Passed [] [] w₁ w') :
    Passed shown posted w w' := by
  simpa using first.trans second

theorem updateView (w : Ensemble σ (Diary τ)) (v : Nat) {f : View σ → View σ}
    (signals : ∀ o, (f o).userAction = o.userAction ∧ (f o).viewClosing = o.viewClosing ∧
      (f o).viewUpdate = o.viewUpdate) (attachment : ∀ o, (f o).attachment = o.attachment)
    (held : ∀ o, (f o).held = o.held) : Passed [] [] w (updateView v f w) where
  thread := rfl
  signals := signal_updateView w v signals
  controllers _ := rfl
  attachments := blind_updateView w v f (·.attachment) attachment
  views := blind_updateView w v f (·.held) held
  models _ := rfl
  showings := (List.append_nil _).symm
  queues _ := (List.append_nil _).symm

theorem updateController (w : Ensemble σ (Diary τ)) (c : Nat) {f : Controller σ → Controller σ}
    (signals : ∀ o, (f o).phaseChanged = o.phaseChanged ∧ (f o).errorOccurred = o.errorOccurred ∧
      (f o).operationCompleted = o.operationCompleted)
    (outlines : outline (f (w.controller c)) = outline (w.controller c)) :
    Passed [] [] w (updateController c f w) where
  thread := rfl
  signals := signal_updateController w c signals
  controllers b := by
    rw [controller_updateController]
    split
    · next same => rw [same, outlines]
    · rfl
  attachments _ := rfl
  views _ := rfl
  models _ := rfl
  showings := (List.append_nil _).symm
  queues _ := (List.append_nil _).symm

end Passed

/-! ## Holding -/

section Holding

variable {run : Runner σ (Diary τ)} {α : Type} {p : Proc (Ensemble σ (Diary τ)) α}
  {shown : List Showing} {posted : List (Nat × Task σ)}

theorem passed_holders (w : Ensemble σ (Diary τ)) (c : Nat) (pins : Controller σ → Nat) :
    Passed [] [] w (holders c (·.held) pins w) :=
  .updateController w c (by exact fun _ => ⟨rfl, rfl, rfl⟩) rfl

theorem passed_viewPins (w : Ensemble σ (Diary τ)) (v : Nat) (pins : View σ → Nat) :
    Passed [] [] w (updateView v (fun o => { o with pins := pins o }) w) :=
  .updateView w v (by exact fun _ => ⟨rfl, rfl, rfl⟩) (by exact fun _ => rfl)
    (by exact fun _ => rfl)

theorem holdingController_passes (tidy : Tidy w) (c : Nat)
    (inner : ∀ w₁, Alike w w₁ → Reaches p w₁ fun _ w₂ => Passed shown posted w₁ w₂) :
    Reaches (holdingController run c p) w fun _ w' => Passed shown posted w w' := by
  have pinned := passed_holders w c (·.pins + 1)
  refine holdingController_reaches ((inner _ pinned.toAlike).mono fun _ w₂ passed => ?_)
  have through := pinned.after passed
  exact ⟨((through.tidy tidy).controllers c).1, through.before (passed_holders w₂ c (·.pins - 1))⟩

theorem holdingView_passes (tidy : Tidy w) (v : Nat)
    (inner : ∀ w₁, Alike w w₁ → Reaches p w₁ fun _ w₂ => Passed shown posted w₁ w₂) :
    Reaches (holdingView run v p) w fun _ w' => Passed shown posted w w' := by
  have pinned := passed_viewPins w v (·.pins + 1)
  refine holdingView_reaches ((inner _ pinned.toAlike).mono fun _ w₂ passed => ?_)
  have through := pinned.after passed
  exact ⟨(through.tidy tidy).views v, through.before (passed_viewPins w₂ v (·.pins - 1))⟩

end Holding

/-! ## Emission -/

/-- What a slot shows, when it is given a notice. -/
def shows (w : Ensemble σ (Diary τ)) : Slot σ → Notice → List Showing
  | .controllerData c, .dataChanged => (w.controller c).view.toList.map fun v => ⟨c, v⟩
  | _, _ => []

/-- What an emission shows by way of a connection. -/
def shownBy (w : Ensemble σ (Diary τ)) (notice : Notice)
    (e : ConnectionId × Connection (Slot σ)) : List Showing :=
  if servesInline e.2.delivery w.thread then w.shows e.2.slot notice else []

/-- What an emission posts by way of a connection. -/
def postedBy (w : Ensemble σ (Diary τ)) (s : SignalRef) (notice : Notice)
    (e : ConnectionId × Connection (Slot σ)) : List (Nat × Task σ) :=
  match e.2.delivery with
  | .direct => []
  | .dispatched mode d =>
    if servesInline (.dispatched mode d) w.thread then []
    else [(d, .delivery s e.1 e.2.slot notice)]

theorem Alike.shows (alike : Alike w w') (k : Slot σ) (notice : Notice) :
    w'.shows k notice = w.shows k notice := by
  unfold Ensemble.shows
  split
  · rw [alike.controller (·.view) fun _ => rfl]
  · rfl

theorem Alike.shownBy (alike : Alike w w') (notice : Notice) :
    w'.shownBy notice = w.shownBy notice := by
  funext e
  simp only [Ensemble.shownBy, alike.thread, alike.shows]

theorem Alike.postedBy (alike : Alike w w') (s : SignalRef) (notice : Notice) :
    w'.postedBy s notice = w.postedBy s notice := by
  funext e
  simp only [Ensemble.postedBy, alike.thread]

section Emission

variable {run : Runner σ (Diary τ)} {s : SignalRef} {notice : Notice}

theorem deliver_passes (e : ConnectionId × Connection (Slot σ))
    (served : Reaches (run (.slot e.2.slot notice)) w fun _ w' =>
      Passed (w.shows e.2.slot notice) [] w w') :
    Reaches (deliver run s notice e.1 e.2) w fun _ w' =>
      Passed (w.shownBy notice e) (w.postedBy s notice e) w w' := by
  obtain ⟨id, slot, delivery⟩ := e
  unfold deliver shownBy postedBy
  cases delivery with
  | direct => exact served
  | dispatched mode d =>
      refine reaches_get ?_
      by_cases here : servesInline (.dispatched mode d) w.thread = true
      · simp only [here, if_true]
        exact served
      · simp only [here]
        refine reaches_of_eq rfl ⟨.of_queues w d _, by simp, fun e => ?_⟩
        rw [dispatcher_updateDispatcher]
        by_cases same : e = d
        · simp [same, Dispatcher.post]
        · simp [same, Ne.symm same]

theorem visit_passes {connections : List (ConnectionId × Connection (Slot σ))}
    (connected : ∀ e ∈ connections, (w.signal s).isConnected e.1 = true)
    (served : ∀ e ∈ connections, ∀ w₁, Alike w w₁ → Reaches (run (.slot e.2.slot notice)) w₁
      fun _ w₂ => Passed (w₁.shows e.2.slot notice) [] w₁ w₂) :
    Reaches (visit run s notice connections) w fun _ w' =>
      Passed (connections.flatMap (w.shownBy notice)) (connections.flatMap (w.postedBy s notice))
        w w' := by
  induction connections generalizing w with
  | nil => exact reaches_pure (.refl w)
  | cons e rest ih =>
      refine reaches_get ?_
      simp only [connected e List.mem_cons_self, if_true]
      have here := deliver_passes (s := s) e (served e List.mem_cons_self w (.refl w))
      refine here.bind fun _ w₁ passed => ?_
      have later := ih (w := w₁) (fun e member => ?_) fun e member w₂ alike => ?_
      · refine later.mono fun _ w' rest => ?_
        have both := passed.trans rest
        simp only [passed.shownBy, passed.postedBy] at both
        exact both
      · rw [passed.signals]
        exact connected e (List.mem_cons_of_mem _ member)
      · exact served e (List.mem_cons_of_mem _ member) w₂ (passed.toAlike.trans alike)

theorem emit_passes (tidy : Tidy w)
    (served : ∀ k : Slot σ, k.fits s = true → ∀ w₁, Alike w w₁ → Reaches (run (.slot k notice)) w₁
      fun _ w₂ => Passed (w₁.shows k notice) [] w₁ w₂) :
    Reaches (emit run s notice) w fun _ w' =>
      Passed ((w.signal s).connections.flatMap (w.shownBy notice))
        ((w.signal s).connections.flatMap (w.postedBy s notice)) w w' := by
  refine reaches_get ?_
  dsimp only
  rw [(tidy.signals s).blocked]
  refine visit_passes (fun e member => ?_) fun e member => ?_
  · exact Signal.contains_of_slot? (slotAt_of_mem member)
  · exact served _ (tidy.fits (slotAt_of_mem member))

/-- At a signal that no controller hears a change of its model from, nothing is shown and
    nothing is posted. -/
theorem emit_quietly (tidy : Tidy w) (elsewhere : ∀ m, s ≠ .modelData m)
    (served : ∀ k : Slot σ, k.fits s = true → ∀ w₁, Alike w w₁ → Reaches (run (.slot k notice)) w₁
      fun _ w₂ => Passed [] [] w₁ w₂) :
    Reaches (emit run s notice) w fun _ w' => Passed [] [] w w' := by
  have deaf : ∀ k : Slot σ, k.fits s = true →
      (∀ w : Ensemble σ (Diary τ), w.shows k notice = []) ∧ w.route k = .direct := by
    intro k fits
    cases k with
    | controllerData c => cases s <;> simp [Slot.fits] at fits elsewhere
    | _ => exact ⟨fun _ => rfl, rfl⟩
  have direct : ∀ e ∈ (w.signal s).connections,
      e.2.slot.fits s = true ∧ e.2.delivery = .direct := by
    intro e member
    have fits := tidy.fits (slotAt_of_mem member)
    obtain ⟨-, route⟩ := (tidy.signals s).routed e.1 e.2 (mem_connections.mp member)
    exact ⟨fits, route.trans (deaf _ fits).2⟩
  have emitted : Reaches (emit run s notice) w _ := emit_passes tidy fun k fits w₁ alike => by
    rw [(deaf k fits).1]
    exact served k fits w₁ alike
  refine emitted.mono fun _ w' passed => ?_
  rw [List.flatMap_eq_nil_iff.mpr, List.flatMap_eq_nil_iff.mpr] at passed
  · exact passed
  · intro e member
    simp only [postedBy, (direct e member).2]
  · intro e member
    simp only [shownBy, (deaf _ (direct e member).1).1, ite_self]

end Emission

/-! ## Calls -/

section Calls

variable {β : Behaviour σ (Diary τ)} {n : Nat}

theorem reaches_clientPure {ρ α : Type} {run : Runner σ (Diary τ)} {a : ρ}
    {f : ρ → Proc (Ensemble σ (Diary τ)) α} {post : α → Ensemble σ (Diary τ) → Prop}
    (rest : Reaches (f a) w post) : Reaches (run.client (pure a) >>= f) w post := rest

theorem ifControllerAlive_passes {run : Runner σ (Diary τ)} {p : Proc (Ensemble σ (Diary τ)) Unit}
    {shown : List Showing} {posted : List (Nat × Task σ)} (tidy : Tidy w) (c : Nat)
    (inner : ∀ w₁, Alike w w₁ → Reaches p w₁ fun _ w₂ => Passed shown posted w₁ w₂) :
    Reaches (ifControllerAlive run c p) w fun _ w' => Passed shown posted w w' := by
  refine reaches_get ?_
  rw [if_pos (tidy.alive c)]
  exact holdingController_passes tidy c inner

theorem ifViewAlive_passes {run : Runner σ (Diary τ)} {p : Proc (Ensemble σ (Diary τ)) Unit}
    {shown : List Showing} {posted : List (Nat × Task σ)} (tidy : Tidy w) (v : Nat)
    (inner : ∀ w₁, Alike w w₁ → Reaches p w₁ fun _ w₂ => Passed shown posted w₁ w₂) :
    Reaches (ifViewAlive run v p) w fun _ w' => Passed shown posted w w' := by
  refine reaches_get ?_
  rw [if_pos (tidy.viewAlive v)]
  exact holdingView_passes tidy v inner

theorem note_passes (c : Nat) {v : Nat} (bound : (w.controller c).view = some v) :
    Reaches ((run β (n + 1)).client (note c)) w fun _ w' => Passed [⟨c, v⟩] [] w w' := by
  refine reaches_get ?_
  simp only [bound]
  refine reaches_of_eq rfl ⟨⟨rfl, fun s => ?_, fun _ => rfl, fun _ => rfl, fun _ => rfl,
    fun _ => rfl⟩, rfl, fun _ => (List.append_nil _).symm⟩
  cases s <;> rfl

variable (diarist : β.Diarist)
include diarist

/-- Controllers do nothing when an update is finished. -/
theorem update_passes (tidy : Tidy w) (c : Nat) :
    Reaches (run β (n + 1) (.slot (.controllerUpdate c) .updateRequested)) w fun _ w' =>
      Passed [] [] w w' := by
  refine ifControllerAlive_passes tidy c fun w₁ _ => ?_
  rw [diarist.updateRequested]
  exact reaches_pure (.refl w₁)

theorem quiet_passes {ρ : Type} {code : Client σ (Diary τ) ρ} (quiet : code.All Action.IsQuiet)
    (tidy : Tidy w) : Reaches ((run β (n + 2)).client code) w fun _ w' => Passed [] [] w w' := by
  induction code generalizing w with
  | done r => exact reaches_pure (.refl w)
  | look next ih => exact reaches_get (ih w (quiet w) tidy)
  | act a next ih =>
      obtain ⟨allowed, rest⟩ := quiet
      have first : Reaches (run β (n + 2) (.action a)) w fun _ w' => Passed [] [] w w' := by
        cases a with
        | change f =>
            refine reaches_of_eq rfl ⟨⟨rfl, fun s => ?_, fun _ => rfl, fun _ => rfl, fun _ => rfl,
              fun _ => rfl⟩, ?_, fun _ => (List.append_nil _).symm⟩
            · cases s <;> rfl
            · exact (allowed w.client).trans (List.append_nil _).symm
        | finishUpdate v =>
            refine emit_quietly tidy (by simp) fun k fits w₁ alike => ?_
            cases k with
            | controllerUpdate c => exact update_passes diarist (alike.tidy tidy) c
            | _ => simp [Slot.fits] at fits
        | _ => exact allowed.elim
      refine first.bind fun r w₁ passed => ?_
      refine (ih r (rest r) (passed.tidy tidy)).mono fun _ w' later => passed.after later

/-- Views show themselves anew on most changes of a phase. -/
theorem phase_passes (tidy : Tidy w) (v : Nat) (phase : Phase) :
    Reaches (run β (n + 3) (.slot (.viewPhase v) (.phase phase))) w fun _ w' =>
      Passed [] [] w w' := by
  show Reaches (if phase = .viewClosing then _ else _) w _
  split
  · exact reaches_pure (.refl w)
  · exact ifViewAlive_passes tidy v fun w₁ alike =>
      quiet_passes diarist (diarist.display v) (alike.tidy tidy)

theorem emitPhase_passes (tidy : Tidy w) (c : Nat) :
    Reaches (emitPhase (run β (n + 3)) c) w fun _ w' => Passed [] [] w w' := by
  refine reaches_get (emit_quietly tidy (by simp) fun k fits w₁ alike => ?_)
  cases k with
  | viewPhase v => exact phase_passes diarist (alike.tidy tidy) v _
  | _ => simp [Slot.fits] at fits

/-- There are no bindings to make or to end. -/
theorem rebindIfReady_passes (tidy : Tidy w) (c : Nat) :
    Reaches (rebindIfReady (run β n) β c) w fun _ w' => Passed [] [] w w' := by
  refine reaches_get ?_
  split
  · have none := (tidy.controllers c).2
    unfold establishBindings
    rw [diarist.connect]
    refine reaches_clientPure (reaches_get ?_)
    dsimp only
    rw [none]
    refine reaches_modify (reaches_pure ?_)
    refine .updateController w c (fun _ => ⟨rfl, rfl, rfl⟩) ?_
    simp only [outline, Controller.bonds, Controller.silent, none]
  · exact reaches_pure (.refl w)

theorem announce_passes (tidy : Tidy w) (c : Nat) :
    Reaches (announce (run β (n + 3)) β c) w fun _ w' => Passed [] [] w w' := by
  refine (rebindIfReady_passes diarist tidy c).bind fun _ w₁ first => ?_
  exact (emitPhase_passes diarist (first.tidy tidy) c).mono fun _ _ rest => first.after rest

/-- A controller shows its view anew, if it has one. -/
theorem refresh_passes (tidy : Tidy w) (c : Nat) :
    Reaches (refresh (run β (n + 2)) β c) w fun _ w' =>
      Passed (w.shows (.controllerData c) .dataChanged) [] w w' := by
  refine reaches_get ?_
  simp only [shows]
  cases bound : (w.controller c).view with
  | none => exact reaches_pure (.refl w)
  | some v =>
      refine holdingView_passes tidy v fun w₁ alike => ?_
      rw [diarist.derive]
      have bound₁ := (alike.controller (·.view) (fun _ => rfl) c).trans bound
      refine (note_passes c bound₁).bind fun _ w₂ noted => ?_
      refine (quiet_passes diarist (diarist.display v) ?_).mono fun _ w₃ rest => noted.before rest
      exact noted.tidy (alike.tidy tidy)

/-- And so it does when its model changed. -/
theorem change_passes (tidy : Tidy w) (c : Nat) :
    Reaches (run β (n + 4) (.slot (.controllerData c) .dataChanged)) w fun _ w' =>
      Passed (w.shows (.controllerData c) .dataChanged) [] w w' := by
  refine ifControllerAlive_passes tidy c fun w₁ alike => ?_
  rw [diarist.dataChanged]
  have called : Reaches (run β (n + 3) (.action (.refresh c))) w₁ fun _ w₂ =>
      Passed (w.shows (.controllerData c) .dataChanged) [] w₁ w₂ := by
    refine holdingController_passes (alike.tidy tidy) c fun w₂ alike' => ?_
    rw [← (alike.trans alike').shows]
    exact refresh_passes diarist (alike'.tidy (alike.tidy tidy)) c
  exact called.bind fun r w₂ passed => reaches_pure passed

/-- A controller closes, once. -/
theorem handleClosing_passes (tidy : Tidy w) (c : Nat) :
    Reaches (handleClosing (run β (n + 3)) β c) w fun _ w' => Passed [] [] w w' := by
  refine reaches_get ?_
  split
  · exact reaches_pure (.refl w)
  · rw [diarist.closing]
    refine reaches_clientPure (reaches_modify ?_)
    have closed : Passed [] [] w (updateController c (fun o => { o with closing := true }) w) :=
      .updateController w c (by exact fun _ => ⟨rfl, rfl, rfl⟩) rfl
    exact (emitPhase_passes diarist (closed.tidy tidy) c).mono fun _ _ rest => closed.after rest

/-- A view announces that it closes, and its controllers close. -/
theorem announceClosing_passes (tidy : Tidy w) (v : Nat) :
    Reaches (announceClosing (run β (n + 4)) v) w fun _ w' => Passed [] [] w w' := by
  refine reaches_get ?_
  split
  · exact reaches_pure (.refl w)
  · refine reaches_modify ?_
    have closed : Passed [] [] w (updateView v (fun o => { o with closing := true }) w) :=
      .updateView w v (by exact fun _ => ⟨rfl, rfl, rfl⟩) (by exact fun _ => rfl)
        (by exact fun _ => rfl)
    refine (emit_quietly (closed.tidy tidy) (by simp) fun k fits w₁ alike => ?_).mono
      fun _ _ rest => closed.after rest
    cases k with
    | controllerClosing c =>
        have tidy₁ := alike.tidy (closed.tidy tidy)
        exact ifControllerAlive_passes tidy₁ c fun w₂ alike =>
          handleClosing_passes diarist (alike.tidy tidy₁) c
    | _ => simp [Slot.fits] at fits

theorem initializeController_passes (tidy : Tidy w) (c : Nat) :
    Reaches (initializeController (run β (n + 3)) β c) w fun _ w' => Passed [] [] w w' := by
  refine reaches_get ?_
  split
  · exact reaches_pure (.refl w)
  · rw [diarist.setup]
    refine reaches_clientPure (reaches_modify ?_)
    have ready : Passed [] [] w (updateController c (fun o => { o with initialized := true }) w) :=
      .updateController w c (by exact fun _ => ⟨rfl, rfl, rfl⟩) rfl
    refine (rebindIfReady_passes diarist (ready.tidy tidy) c).bind fun _ w₂ made => ?_
    have both := ready.after made
    refine (emitPhase_passes diarist (both.tidy tidy) c).bind fun _ w₃ rest => ?_
    exact reaches_pure (both.after rest)

end Calls

end Ensemble

end Mvc
