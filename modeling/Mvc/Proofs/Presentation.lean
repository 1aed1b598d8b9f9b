import Mvc.App.Behaviour
import Mvc.Proofs.Announcing
import Mvc.Proofs.Touches

/-! # Views belong to the presentation thread

Whoever writes to the model sets off what is connected to the model and to the application's
channels, on the thread that writes. With a dispatcher each of these connections is safe: it waits
for the presentation thread, or it touches no view (`Guarded`). So as long as other threads only
write to the model and post tasks, every view is touched on the presentation thread.

A run is given by one client program, which says in which order the threads take turns.
-/

namespace Mvc.App

open Ensemble Proc

variable {ε : Type}

/-! ## What threads may do -/

/-- A slot of the application's own code that touches no view. -/
def IsInert : Slot Code → Prop
  | .client (.followBusy _) => False
  | .client _ => True
  | _ => False

/-- A connection that waits for the presentation thread, or that touches no view. -/
def IsSafe (k : Connection (Slot Code)) : Prop :=
  (∃ d, k.delivery = .dispatched .auto d) ∨ (k.delivery = .direct ∧ IsInert k.slot)

/-- What other threads may do: write to models, tell of it on channels, and post tasks. The worker
    also does its part of operations. -/
def IsRemote : Action Code ε → Prop
  | .write .. | .setProperty .. | .setSilently .. | .replaceAll .. | .clear .. => True
  | .initializeModel .. | .resetModel .. | .post .. | .change .. => True
  | .perform code => ∃ operation, code = .work operation
  | .emit s _ => s.isMutual = false
  | .inBackground a => IsRemote a
  | _ => False

/-- What the presentation thread may do: whatever it likes, but it lets only safe connections hear
    of models and channels, binds models only to the controller that has a dispatcher, and lets
    others do only what they may. -/
def IsProper : Action Code ε → Prop
  | .connect s slot delivery => s.isMutual = false → IsSafe ⟨slot, delivery⟩
  | .setModel c _ => c = controller
  | .inBackground a => IsRemote a
  | _ => True

theorem isRemote_beside {ν : Type} {a : Action Code ε} (remote : IsRemote a) :
    IsRemote (a.beside ν) := by
  induction a with
  | inBackground a ih => exact ih remote
  | _ => exact remote

theorem isProper_beside {ν : Type} {a : Action Code ε} (proper : IsProper a) :
    IsProper (a.beside ν) := by
  cases a with
  | inBackground a => exact isRemote_beside (a := a) proper
  | _ => exact proper

/-- The controller has a dispatcher. -/
def Routed (w : Ensemble Code ε) : Prop := (w.controller controller).dispatcher.isSome = true

/-- And only safe connections hear of models and channels. -/
structure Guarded (w : Ensemble Code ε) : Prop where
  routed : Routed w
  safe : ∀ s k, s.isMutual = false → (w.signal s).Has k → IsSafe k

namespace Guarded

variable {w w' : Ensemble Code ε}

theorem mute (guarded : Guarded w) (mute : Mute w w') : Guarded w' where
  routed := by
    rw [Routed, mute.routed]
    exact guarded.routed
  safe s k own has := guarded.safe s k own (mute.fewer s k has)

/-- Nothing changes but models, the thread and what is the client's. -/
theorem of_signals (guarded : Guarded w) (signals : ∀ s, w'.signal s = w.signal s)
    (controllers : ∀ c, w'.controller c = w.controller c) : Guarded w' where
  routed := by
    rw [Routed, controllers]
    exact guarded.routed
  safe s k own has := guarded.safe s k own (signals s ▸ has)

theorem connect (guarded : Guarded w) {s : SignalRef} {slot : Slot Code} {d : Delivery}
    (safe : s.isMutual = false → IsSafe ⟨slot, d⟩) :
    Guarded (setSignal s ((w.signal s).connect slot d).2 w) where
  routed := by
    have same := (OnlySignals.setSignal w s ((w.signal s).connect slot d).2).of_controller
      (·.dispatcher) (fun _ => rfl) controller
    rw [Routed, same]
    exact guarded.routed
  safe t k own has := by
    rw [signal_setSignal] at has
    split at has
    · next same =>
        subst same
        rcases Signal.has_connect has with old | rfl
        · exact guarded.safe t k own old
        · exact safe own
    · exact guarded.safe t k own has

end Guarded

/-! ## Other threads -/

/-- On a background thread no view is touched. -/
def Unseen (w w' : Touched Code ε) : Prop :=
  Guarded w → w.thread = .background →
    Guarded w' ∧ w'.thread = .background ∧ w'.client.notes = w.client.notes

variable {w w' : Touched Code ε}

theorem unseen_composes : Composes (Unseen (ε := ε)) where
  refl _ guarded background := ⟨guarded, background, rfl⟩
  trans := by
    intro a b c first second guarded background
    obtain ⟨guarded, background, notes⟩ := first guarded background
    obtain ⟨guarded, background, notes'⟩ := second guarded background
    exact ⟨guarded, background, notes'.trans notes⟩

theorem unseen_of_mute (mute : Mute w w') : Unseen w w' := fun guarded background =>
  ⟨guarded.mute mute, mute.thread.trans background, congrArg _ mute.client⟩

theorem unseen_updateModel (m : Nat) {f : Model Code → Model Code}
    (signals : ∀ o, (f o).propertyChanged = o.propertyChanged ∧
      (f o).dataChanged = o.dataChanged ∧ (f o).validityChanged = o.validityChanged) :
    Unseen w (updateModel m f w) := fun guarded background =>
  ⟨guarded.of_signals (signal_updateModel w m signals) fun _ => rfl, background, rfl⟩

section Background

variable {run : Runner Code (Noted (List Touch) ε)}
  (inert : ∀ slot notice, IsInert slot → Keeps Unseen (run (.slot slot notice)))
include inert

theorem deliver_unseen (s : SignalRef) (notice : Notice) (id : ConnectionId)
    {k : Connection (Slot Code)} (safe : IsSafe k) :
    Keeps Unseen (deliver run s notice id k) := by
  obtain ⟨slot, delivery⟩ := k
  rcases safe with ⟨d, rfl⟩ | ⟨rfl, quiet⟩
  · intro w
    refine .get_bind ?_
    split
    · next presentation =>
        -- The slot is run on the presentation thread only.
        intro r w' _ _ background
        simp [servesInline, background] at presentation
    · exact Keeps.modify (fun w => unseen_of_mute (.updateDispatcher w d _)) w
  · exact inert slot notice quiet

theorem emit_unseen (s : SignalRef) (notice : Notice) (own : s.isMutual = false) :
    Keeps Unseen (Ensemble.emit run s notice) := by
  have visited : ∀ connections : List (ConnectionId × Connection (Slot Code)),
      (∀ e ∈ connections, IsSafe e.2) → Keeps Unseen (visit run s notice connections) := by
    intro connections safe
    induction connections with
    | nil => exact .pure unseen_composes ()
    | cons first rest ih =>
        have later := ih fun e member => safe e (List.mem_cons_of_mem _ member)
        have here := deliver_unseen inert s notice first.1 (safe first List.mem_cons_self)
        refine .look fun w => ?_
        split
        · exact .bind unseen_composes here fun _ => later
        · exact .bind unseen_composes (.pure unseen_composes ()) fun _ => later
  intro w
  refine .get_bind ?_
  dsimp only
  split
  · exact Keeps.pure unseen_composes () w
  · intro r w' ran guarded
    exact visited _ (fun e member => guarded.safe s e.2 own (Signal.has_of_mem member)) w r w' ran
      guarded

end Background

/-- What is done in the background leaves the thread as it is. -/
theorem inBackground_ends {α : Type} {p : Proc (Touched Code ε) α} (inner : Keeps Unseen p)
    (guarded : Guarded w) : Ends (inBackground p) w fun _ w' =>
      Guarded w' ∧ w'.thread = w.thread ∧ w'.client.notes = w.client.notes := by
  have there : Guarded { w with thread := Thread.background } :=
    guarded.of_signals (signal_setThread w _) fun _ => rfl
  refine .get_bind (.modify_bind (.bind ((inner _).mono fun r w₁ kept => ?_)))
  obtain ⟨guarded₁, -, notes⟩ := kept there rfl
  refine .modify_bind ((ends_pure r _ _).mpr ⟨?_, rfl, notes⟩)
  exact guarded₁.of_signals (signal_setThread w₁ _) fun _ => rfl

/-! ## What the application's programs perform -/

theorem IsRemote.proper {a : Action Code ε} (remote : IsRemote a) : IsProper a := by
  cases a with
  | inBackground a => exact remote
  | _ => trivial

theorem all_proper {ρ : Type} {code : Program ρ} (all : code.All IsRemote) : code.All IsProper :=
  all.mono fun _ => IsRemote.proper

section Remote

theorem see_all {P : Action Code State → Prop} {ρ : Type} (f : Whole → ρ) : (see f).All P :=
  fun _ => trivial

theorem change_remote (f : State → State) : (change f).All IsRemote := ⟨trivial, fun _ => trivial⟩

theorem emit_remote {s : SignalRef} (own : s.isMutual = false) (notice : Notice) :
    (emit s notice).All IsRemote := ⟨own, fun _ => trivial⟩

theorem set_remote (name : String) (value : Value) : (set name value).All IsRemote :=
  ⟨trivial, fun _ => trivial⟩

theorem readClock_remote : readClock.All IsRemote :=
  .bind (see_all _) fun _ => .bind (change_remote _) fun _ => trivial

theorem updateStatus_remote (message : String) : (updateStatus message).All IsRemote := by
  refine .bind (set_remote _ _) fun _ => .bind readClock_remote fun _ => ?_
  exact .bind (set_remote _ _) fun _ => trivial

theorem setBusy_remote (busy : Bool) : (setBusy busy).All IsRemote :=
  .bind (set_remote _ _) fun _ => trivial

theorem afterSet_remote (name : String) (value : Value) : (afterSet name value).All IsRemote := by
  unfold afterSet
  split
  · exact emit_remote rfl _
  · split
    · exact emit_remote rfl _
    · split
      · exact emit_remote rfl _
      · trivial

theorem populate_remote : populate.All IsRemote :=
  .bind (see_all _) fun _ => .bind readClock_remote fun _ => trivial

theorem populated_remote (m : Nat) : (behaviour.populate m).All IsRemote :=
  .bind populate_remote fun _ => trivial

theorem inert_remote {code : Code} (inert : IsInert (.client code)) (notice : Notice) :
    (behaviour.slot code notice).All IsRemote := by
  cases code with
  | listen s => exact change_remote _
  | followTheme =>
      cases notice with
      | text theme => exact updateStatus_remote _
      | _ => trivial
  | followBusy view => exact inert.elim
  | _ => trivial

/-- With a dispatcher the worker posts the end of an operation. -/
theorem work_remote (operation : Operation) : (work operation).AllWhere Routed IsRemote := by
  refine .bind (setBusy_remote _).allWhere fun _ => .bind (setBusy_remote _).allWhere fun _ => ?_
  refine .bind (updateStatus_remote _).allWhere fun _ => .see fun w routed => ?_
  obtain ⟨d, has⟩ := Option.isSome_iff_exists.mp routed
  rw [has]
  exact ⟨trivial, fun _ => trivial⟩

end Remote

section Proper

theorem change_proper (f : State → State) : (change f).All IsProper := ⟨trivial, fun _ => trivial⟩

theorem updateStatus_proper (message : String) : (updateStatus message).All IsProper :=
  all_proper (updateStatus_remote message)

theorem reportError_proper (message : String) : (reportError message).All IsProper :=
  ⟨trivial, fun _ => trivial⟩

theorem complete_proper (message : String) : (complete message).All IsProper :=
  .bind (change_proper _) fun _ => ⟨trivial, fun _ => trivial⟩

theorem run_proper (operation : Operation) : (App.run operation).All IsProper := by
  refine .bind (see_all _) fun busy => ?_
  split
  · exact reportError_proper _
  · refine .bind (change_proper _) fun _ => .bind (updateStatus_proper _) fun _ => ?_
    refine .bind (see_all _) fun accepts => ?_
    split
    · exact change_proper _
    · exact .bind (change_proper _) fun _ => reportError_proper _

theorem changeTheme_proper (data : Value) : (changeTheme data).All IsProper := by
  refine .bind (all_proper (set_remote _ _)) fun outcome => ?_
  cases outcome with
  | rejected => exact reportError_proper _
  | changed | unchanged => trivial

theorem handles_proper (name : String) (data : Value) : (handles name data).All IsProper := by
  refine .bind (see_all _) fun config => ?_
  split
  · exact .bind (run_proper _) fun _ => trivial
  · split
    · exact .bind (changeTheme_proper _) fun _ => trivial
    · trivial

theorem keep_proper (key name : String) : (keep key name).All IsProper :=
  .bind (see_all _) fun _ => change_proper _

theorem stop_proper : stop.All IsProper := by
  refine .bind (see_all _) fun started => ?_
  split
  · refine .bind (change_proper _) fun _ => .bind (updateStatus_proper _) fun _ => ?_
    refine .bind (.bind (keep_proper _ _) fun _ => .bind (keep_proper _ _) fun _ => ?_) fun _ => ?_
    · exact ⟨trivial, fun _ => trivial⟩
    · exact .bind (updateStatus_proper _) fun _ => updateStatus_proper _
  · trivial

theorem display_proper (v : Nat) : (display v).All IsProper := by
  refine .bind (see_all _) fun ready => ?_
  split
  · refine .bind (see_all _) fun panel => .bind (change_proper _) fun _ => ?_
    exact ⟨trivial, fun _ => trivial⟩
  · trivial

theorem workOff_proper (operations : List Operation) : (workOff operations).All IsProper := by
  induction operations with
  | nil => trivial
  | cons operation rest ih =>
      refine .bind ⟨⟨operation, rfl⟩, fun _ => trivial⟩ fun _ => ?_
      exact .bind (change_proper _) fun _ => ih

theorem triggerCurrent_proper (name payload : String) :
    (triggerCurrent name payload).All IsProper := by
  refine .bind (see_all _) fun current => ?_
  split
  · exact change_proper _
  · next view =>
      have triggered : (trigger view name payload).All IsProper := by
        refine .bind (see_all _) fun enabled => ?_
        split
        · exact .bind ⟨trivial, fun _ => trivial⟩ fun _ => trivial
        · exact .bind (change_proper _) fun _ => trivial
      refine .bind triggered fun _ => .bind (.bind (see_all _) workOff_proper) fun _ => ?_
      exact change_proper _

theorem help_proper : help.All IsProper := by
  refine .bind (see_all _) fun current => ?_
  split
  · trivial
  · exact change_proper _

/-- With a dispatcher the bound view hears of the busy flag on the presentation thread. -/
theorem bindings_proper : bindings.AllWhere Routed IsProper := by
  refine .see fun w routed => ?_
  obtain ⟨d, has⟩ := Option.isSome_iff_exists.mp routed
  split
  · trivial
  · refine .see fun w' _ => ⟨trivial, fun _ => ?_⟩
    rw [has]
    exact ⟨fun _ => .inl ⟨d, rfl⟩, fun _ => trivial⟩

theorem slot_proper (code : Code) (notice : Notice) : (behaviour.slot code notice).All IsProper := by
  cases code with
  | listen s => exact change_proper _
  | followBusy view =>
      cases notice with
      | flag busy =>
          refine .bind (see_all _) fun alive => ?_
          split
          · exact ⟨trivial, fun _ => trivial⟩
          · trivial
      | _ => trivial
  | followTheme =>
      have inert : IsInert (.client .followTheme) := trivial
      exact all_proper (inert_remote inert notice)
  | _ => trivial

theorem job_proper (code : Code) : (behaviour.job code).AllWhere Routed IsProper := by
  cases code with
  | work operation => exact (work_remote operation).mono fun _ => IsRemote.proper
  | complete message => exact (complete_proper message).allWhere
  | trigger name payload => exact (triggerCurrent_proper name payload).allWhere
  | help => exact help_proper.allWhere
  | _ => trivial

end Proper

/-! ## Runs in the background -/

/-- What a program performs beside notes it performs without them. -/
theorem allWhere_beside {ρ ν : Type} {P : Action Code State → Prop}
    {Q : Action Code (Noted ν State) → Prop} (imp : ∀ a, P a → Q (a.beside ν)) {code : Program ρ}
    (all : code.AllWhere Routed P) : (code.beside ν).AllWhere Routed Q := by
  induction code with
  | done r => trivial
  | look next ih => exact fun w routed => ih w.bare (all w.bare routed)
  | act a next ih => exact ⟨imp a all.1, fun r => ih (a.result r) (all.2 (a.result r))⟩

/-- The application with the touches of its views noted. -/
abbrev runsTouched (depth : Nat) : Runner Code (Noted (List Touch) State) := touched behaviour depth

section Background

variable {run : Runner Code (Noted (List Touch) State)}
  (remote : ∀ a, IsRemote a → Keeps Unseen (run (.action a)))
include remote

theorem client_unseen {ρ : Type} {code : Program ρ} (all : code.AllWhere Routed IsRemote) :
    Keeps Unseen (run.client (code.beside (List Touch))) :=
  (allWhere_beside (fun _ => isRemote_beside) all).keeps unseen_composes remote
    fun unrouted guarded => absurd guarded.routed unrouted

variable (inert : ∀ slot notice, IsInert slot → Keeps Unseen (run (.slot slot notice)))
include inert

theorem scribe_unseen (m : Nat) : Scribe Unseen (behaviour.beside (List Touch)) run m where
  order := unseen_composes
  accepts _ _ := .pure unseen_composes _
  afterSet name _ value := client_unseen remote (afterSet_remote name value).allWhere
  populate := client_unseen remote (populated_remote m).allWhere
  emit s notice own := emit_unseen inert s notice own
  stores _ _ := unseen_updateModel m fun _ => ⟨rfl, rfl, rfl⟩

theorem touchedBody_unseen (fuel : Nat) {a : Action Code (Noted (List Touch) State)}
    (allowed : IsRemote a) :
    Keeps Unseen (touchedBody run (behaviour.beside _) fuel (.action a)) := by
  have scribe := scribe_unseen remote inert
  have stored : ∀ m (f : Store → Store),
      Keeps Unseen (modify (updateStore m f) : Proc (Touched Code State) Unit) := fun m f =>
    .modify fun w => unseen_updateModel m fun _ => ⟨rfl, rfl, rfl⟩
  cases a with
  | write m hooked name value => exact (scribe m).write hooked name value
  | setProperty m name value => exact (scribe m).setProperty name value
  | setSilently | replaceAll | clear => exact stored _ _
  | initializeModel m =>
      exact (scribe m).initializeModel fun w store => unseen_updateModel m fun _ => ⟨rfl, rfl, rfl⟩
  | resetModel m => exact (scribe m).resetModel
  | post d code => exact .modify fun w => unseen_of_mute (.updateDispatcher w d _)
  | change f =>
      exact .modify fun w guarded background =>
        ⟨guarded.of_signals (signal_setClient w _) fun _ => rfl, background, rfl⟩
  | perform code =>
      obtain ⟨operation, rfl⟩ := allowed
      exact client_unseen remote (work_remote operation)
  | emit s notice => exact emit_unseen inert s notice allowed
  | inBackground a =>
      intro w r w' ran guarded background
      obtain ⟨guarded', thread, notes⟩ := inBackground_ends (remote a allowed) guarded r w' ran
      exact ⟨guarded', thread.trans background, notes⟩
  | _ => exact allowed.elim

end Background

/-- What other threads do, and what they set off at once, touches no view. -/
theorem touched_unseen (depth : Nat) :
    (∀ slot notice, IsInert slot → Keeps Unseen (runsTouched depth (.slot slot notice))) ∧
    (∀ a, IsRemote a → Keeps Unseen (runsTouched depth (.action a))) := by
  induction depth with
  | zero =>
      constructor
      · intro slot notice _ w r w' h
        cases h
      · intro a _ w r w' h
        cases h
  | succ depth ih =>
      obtain ⟨inert, remote⟩ := ih
      refine ⟨fun slot notice quiet => ?_, fun a => touchedBody_unseen remote inert depth⟩
      cases slot with
      | client code =>
          have served := client_unseen remote (inert_remote quiet notice).allWhere
          cases notice <;> exact served
      | _ => exact quiet.elim

/-! ## Runs on the presentation thread -/

/-- The presentation thread is running, only safe connections hear of models and channels, and
    views were touched on the presentation thread only. -/
structure Presented (w : Touched Code State) : Prop extends Guarded w where
  thread : w.thread = .presentation
  touches : ∀ t ∈ w.client.notes, t.thread = .presentation

/-- That stays so. -/
def Presents (w w' : Touched Code State) : Prop := Presented w → Presented w'

theorem presents_composes : Composes Presents where
  refl _ := id
  trans first second presented := second (first presented)

theorem presents_of_same {w w' : Touched Code State} (guarded : Guarded w → Guarded w')
    (thread : w'.thread = w.thread) (notes : w'.client.notes = w.client.notes) : Presents w w' :=
  fun presented => ⟨guarded presented.toGuarded, thread.trans presented.thread,
    fun t member => presented.touches t (notes ▸ member)⟩

theorem presents_touch {w : Touched Code State} (v : Nat) (g : Gesture) :
    Presents w (touch v g w) := by
  intro presented
  refine ⟨presented.of_signals (signal_setClient w _) fun _ => rfl, presented.thread, ?_⟩
  intro t member
  rcases List.mem_append.mp member with old | new
  · exact presented.touches t old
  · rw [List.mem_singleton.mp new]
    exact presented.thread

theorem presents_updateModel {w : Touched Code State} (m : Nat) {f : Model Code → Model Code}
    (signals : ∀ o, (f o).propertyChanged = o.propertyChanged ∧
      (f o).dataChanged = o.dataChanged ∧ (f o).validityChanged = o.validityChanged) :
    Presents w (updateModel m f w) :=
  presents_of_same (·.of_signals (signal_updateModel w m signals) fun _ => rfl) rfl rfl

theorem connect_presents {s : SignalRef} {slot : Slot Code} {d : Delivery}
    (safe : s.isMutual = false → IsSafe ⟨slot, d⟩) :
    Keeps Presents (Ensemble.connect (ε := Noted (List Touch) State) s slot d) := by
  intro w r w' h
  cases h
  exact presents_of_same (·.connect safe) (by simp) (by simp)

/-- What a controller with a dispatcher hears of a model waits for the presentation thread. -/
theorem subscribeToModel_presents (m : Nat) :
    Keeps Presents (subscribeToModel (ε := Noted (List Touch) State) controller m) := by
  intro w r w' ran presented
  obtain ⟨d, has⟩ := Option.isSome_iff_exists.mp presented.routed
  rw [subscribeToModel, get_bind, has] at ran
  obtain ⟨id, w₁, connected, rest⟩ := bind_eq_some.mp ran
  cases rest
  exact connect_presents (fun _ => .inl ⟨d, rfl⟩) _ _ _ connected presented

section Foreground

variable {run : Runner Code (Noted (List Touch) State)}
  (calls : ∀ call, (∀ a, call = .action a → IsProper a) → Keeps Presents (run call))
include calls

theorem presents_bystander : Bystander Presents IsProper run where
  order := presents_composes
  tacit still := presents_of_same (·.mute still.toMute) still.thread (congrArg _ still.client)
  giveUpController c w _ := by
    have still : Mute w (updateController c (fun o => { o with held := false }) w) :=
      .updateController w c (fun _ => rfl) fun _ => ⟨.refl _, .refl _, .refl _⟩
    exact presents_of_same (·.mute still) rfl rfl
  giveUpView v w _ := by
    have still : Mute w (updateView v (fun o => { o with held := false }) w) :=
      .updateView w v fun _ => ⟨.refl _, .refl _, .refl _⟩
    exact presents_of_same (·.mute still) rfl rfl
  action a proper := calls _ fun _ same => by
    cases same
    exact proper
  slot slot notice := calls _ nofun
  task t := calls _ nofun
  subscription code := calls _ nofun
  link s slot between := connect_presents fun own => by simp [between] at own
  subscribe c m bound := by
    obtain rfl : c = controller := bound
    exact subscribeToModel_presents m

theorem client_presents {ρ : Type} {code : Program ρ} (all : code.AllWhere Routed IsProper) :
    Keeps Presents (run.client (code.beside (List Touch))) :=
  (allWhere_beside (fun _ => isProper_beside) all).keeps presents_composes
    (presents_bystander calls).action fun unrouted presented => absurd presented.routed unrouted

theorem hooked_presents : Hooked Presents (behaviour.beside (List Touch)) run := by
  have keeps : ∀ {ρ : Type} {code : Program ρ}, code.All IsProper →
      Keeps Presents (run.client (code.beside (List Touch))) := fun all =>
    client_presents calls all.allWhere
  have idle : ∀ {ρ : Type} (r : ρ),
      Keeps Presents (run.client ((pure r : Program ρ).beside (List Touch))) := fun _ => keeps trivial
  refine ⟨⟨?_, ?_, ?_, ?_, ?_, ?_, ?_, ?_, ?_⟩, ?_, ?_, ?_, ?_, ?_, ?_, ?_⟩
  · exact fun _ c name data => keeps (handles_proper name data)
  · exact fun c => keeps (.bind (see_all _) fun _ => change_proper _)
  · exact fun c => keeps ⟨trivial, fun _ => trivial⟩
  · exact fun c => idle _
  · exact fun c => keeps stop_proper
  · exact fun v => keeps (display_proper v)
  · exact fun v message => keeps (change_proper _)
  · exact fun v message => keeps (change_proper _)
  · exact fun code notice => keeps (slot_proper code notice)
  · exact fun m name value => idle _
  · exact fun m name old value => keeps (all_proper (afterSet_remote name value))
  · exact fun m => keeps (all_proper (populated_remote m))
  · exact fun c => idle _
  · exact fun c => client_presents calls bindings_proper
  · exact fun v => keeps (see_all _)
  · exact fun code => client_presents calls (job_proper code)

theorem touchedBody_presents (fuel : Nat)
    (remote : ∀ a, IsRemote a → Keeps Unseen (run (.action a)))
    {call : Call Code (Noted (List Touch) State)}
    (allowed : ∀ a, call = .action a → IsProper a) :
    Keeps Presents (touchedBody run (behaviour.beside _) fuel call) := by
  have b := presents_bystander calls
  have hooks := hooked_presents calls
  have stored : ∀ m (f : Store → Store),
      Keeps Presents (modify (updateStore m f) : Proc (Touched Code State) Unit) := fun m f =>
    .modify fun w => presents_updateModel m fun _ => ⟨rfl, rfl, rfl⟩
  have scribe : ∀ m, Scribe Presents (behaviour.beside _) run m := fun m =>
    b.scribe hooks fun w f => presents_updateModel m fun _ => ⟨rfl, rfl, rfl⟩
  refine b.touchedBody hooks (fun v g w => presents_touch v g) fuel call allowed ?_
  intro a same noticed
  have proper := allowed a same
  cases a with
  | connect s slot d => exact connect_presents proper
  | inBackground a =>
      intro w r w' ran presented
      obtain ⟨guarded, thread, notes⟩ :=
        inBackground_ends (remote a proper) presented.toGuarded r w' ran
      exact presents_of_same (fun _ => guarded) thread notes presented
  | change f =>
      exact .modify fun w =>
        presents_of_same (·.of_signals (signal_setClient w _) fun _ => rfl) rfl rfl
  | write m hooked name value => exact (scribe m).write hooked name value
  | setProperty m name value => exact (scribe m).setProperty name value
  | setSilently | replaceAll | clear => exact stored _ _
  | initializeModel m =>
      refine (scribe m).initializeModel fun w store => ?_
      exact presents_updateModel m fun _ => ⟨rfl, rfl, rfl⟩
  | resetModel m => exact (scribe m).resetModel
  | _ => cases noticed

end Foreground

/-- Whatever the presentation thread may do touches views on the presentation thread only. -/
theorem touched_presents (depth : Nat) (call : Call Code (Noted (List Touch) State))
    (allowed : ∀ a, call = .action a → IsProper a) : Keeps Presents (runsTouched depth call) := by
  induction depth generalizing call with
  | zero =>
      intro w r w' h
      cases h
  | succ depth ih => exact touchedBody_presents ih depth (touched_unseen depth).2 allowed

theorem presented_parts (config : Config) (service : Service) (files : Files) (clock : Instant) :
    Presented ((parts config service files true clock).noted ([] : List Touch)) := by
  have silent : ∀ s, (parts config service files true clock).signal s = .new := by
    intro s
    refine (signal_updateController _ _ (by exact fun _ => ⟨rfl, rfl, rfl⟩) s).trans ?_
    cases s <;> rfl
  refine ⟨⟨?_, fun s k _ has => ?_⟩, rfl, nofun⟩
  · have made := controller_updateController_self
      (Ensemble.new (σ := Code) (parts config service files true clock).client) controller
      fun c => { c with dispatcher := some dispatcher }
    show ((parts config service files true clock).controller controller).dispatcher.isSome = true
    exact congrArg (fun c => c.dispatcher.isSome) made
  · rw [signal_noted, silent] at has
    obtain ⟨cell, member, -⟩ := has
    cases member

/-- Whatever an application with a dispatcher goes through while other threads only write to the
    model and post tasks: its views are touched on the presentation thread only. -/
theorem views_touched_on_presentation_thread {ρ : Type} {code : Program ρ}
    (proper : code.All IsProper) {config : Config} {service : Service} {files : Files}
    {clock : Instant} {depth : Nat} {r : ρ} {w' : Whole}
    (ran : (Ensemble.run behaviour depth).client code (parts config service files true clock) =
      some (r, w')) :
    ∃ touches, (runsTouched depth).client (code.beside _)
        ((parts config service files true clock).noted []) = some (r, w'.noted touches) ∧
      ∀ t ∈ touches, t.thread = .presentation := by
  obtain ⟨touches, noted⟩ := exists_beside (bare_touched behaviour depth) ran []
  have presents := client_presents (touched_presents depth) proper.allWhere _ _ _ noted
  exact ⟨touches, noted, (presents (presented_parts config service files clock)).touches⟩

/-- A view is bound and everything is set up. Then the worker and another thread write to the model
    and post a task, the user asks for something, and the dispatcher is drained. -/
def crossing : Program Nat := do
  assemble
  let view ← makeView true
  bind (some view)
  let _ ← Program.perform (Action.initializeModel (σ := Code) (ε := State) model)
  let _ ← Program.perform (Action.initializeView (σ := Code) (ε := State) view)
  let _ ← Program.perform (Action.initializeController (σ := Code) (ε := State) controller)
  Program.perform (Action.inBackground (.perform (.work ⟨"", 0, "saved", "Document saved"⟩)))
  let _ ← Program.perform
    (Action.inBackground (.setProperty model Property.theme (.string "dark")))
  Program.perform (Action.inBackground (.post dispatcher .help))
  Program.perform (Action.report view "theme" (.string "none"))
  Program.perform (Action.drain dispatcher)

theorem crossing_proper : crossing.All IsProper := by
  have assembled : assemble.All IsProper :=
    ⟨rfl, fun _ => ⟨fun _ => .inr ⟨rfl, trivial⟩, fun _ => trivial⟩⟩
  have made : (makeView true).All IsProper :=
    .bind (see_all _) fun _ => .bind (change_proper _) fun _ => trivial
  refine .bind assembled fun _ => .bind made fun view => ?_
  refine ⟨trivial, fun _ => ⟨trivial, fun _ => ⟨trivial, fun _ => ⟨trivial, fun _ => ?_⟩⟩⟩⟩
  refine ⟨⟨_, rfl⟩, fun _ => ⟨trivial, fun _ => ⟨trivial, fun _ => ?_⟩⟩⟩
  exact ⟨trivial, fun _ => ⟨trivial, fun _ => trivial⟩⟩

/-- Eleven tasks waited, and their touches came when the dispatcher was drained. -/
theorem touches_of_crossing :
    ∃ (w' : Whole) (touches : List Touch),
      (runsTouched 16).client (crossing.beside _)
        ((parts .standard (.new none) .empty true .epoch).noted []) = some (11, w'.noted touches) ∧
      (touches.map (·.gesture)) = [.display, .display, .enable, .display, .error, .enable,
        .display, .enable, .display, .display, .display, .info, .display, .display, .display] ∧
      ∀ t ∈ touches, t.thread = .presentation := by
  have ends : ((Ensemble.run behaviour 16).client crossing
      (parts .standard (.new none) .empty true .epoch)).map (·.1) = some 11 := by
    decide +kernel
  obtain ⟨⟨r, w'⟩, ran, rfl⟩ := Option.map_eq_some_iff.mp ends
  obtain ⟨touches, noted, presented⟩ := views_touched_on_presentation_thread crossing_proper ran
  have listed : ((runsTouched 16).client (crossing.beside _)
      ((parts .standard (.new none) .empty true .epoch).noted [])).map
        (fun x => x.2.client.notes.map (·.gesture)) =
      some [.display, .display, .enable, .display, .error, .enable, .display, .enable, .display,
        .display, .display, .info, .display, .display, .display] := by
    decide +kernel
  rw [noted] at listed
  exact ⟨w', touches, noted, Option.some.inj listed, presented⟩

end Mvc.App
