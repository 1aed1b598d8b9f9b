import Mvc.Proofs.Announcing
import Mvc.Proofs.Bystanders

/-! # The milestones of a model

A model is asked for its defaults, is filled with them for the first time or again, and tells of
what changed. These milestones are noted beside a run, which does what it does without the notes
(`bare_traced`).

A model is initialized exactly if it was filled for the first time, which happens once at most:
its hook may fail, and it may initialize the very model that it is asked for, since whoever comes
second looks again and leaves the model alone. Whether a filling succeeds is up to the hook; what
it comes to is not.
-/

namespace Mvc

variable {σ ε : Type}

deriving instance DecidableEq for Notice

/-- What happens in the life of a model. -/
inductive Milestone where
  /-- Its hook is asked for the defaults. -/
  | asked
  /-- The defaults take the place of what there was, for the first time or again. -/
  | filled (again : Bool)
  /-- A signal of it carries a notice. -/
  | told (signal : SignalRef) (notice : Notice)
  deriving DecidableEq

/-- An ensemble with the milestones of a model beside it. -/
abbrev Ensemble.Traced (σ ε : Type) := Ensemble σ (Noted (List Milestone) ε)

namespace Ensemble

/-! ## Tracing -/

/-- Note a milestone. -/
def mark (e : Milestone) (w : Traced σ ε) : Traced σ ε :=
  { w with client := { w.client with notes := w.client.notes ++ [e] } }

@[simp] theorem model_mark (e : Milestone) (w : Traced σ ε) (n : Nat) :
    (mark e w).model n = w.model n := rfl

@[simp] theorem signal_mark (e : Milestone) (w : Traced σ ε) (s : SignalRef) :
    (mark e w).signal s = w.signal s := signal_setClient w _ s

/-- Note that a signal carries a notice, unless it is blocked. -/
def markTold (s : SignalRef) (notice : Notice) (w : Traced σ ε) : Traced σ ε :=
  if (w.signal s).blocked then w else mark (.told s notice) w

/-- Put defaults in the place of what a model holds. -/
def refill (m : Nat) (defaults : List (String × Value)) (w : Traced σ ε) : Traced σ ε :=
  mark (.filled true) (updateStore m (fun _ => .ofPairs defaults) w)

/-- And make the model an initialized one. -/
def install (m : Nat) (defaults : List (String × Value)) (w : Traced σ ε) : Traced σ ε :=
  mark (.filled false)
    (updateModel m (fun o => { o with store := .ofPairs defaults, initialized := true }) w)

section Tracing

variable (run : Runner σ (Noted (List Milestone) ε)) (β : Behaviour σ (Noted (List Milestone) ε))
  (m : Nat)

/-- `emit`, traced. -/
def traceEmit (s : SignalRef) (notice : Notice) : Proc (Traced σ ε) Unit := do
  modify (markTold s notice)
  emit run s notice

/-- `write`, traced. -/
def traceWrite (hooked : Bool) (name : String) (value : Value) :
    Proc (Traced σ ε) SetOutcome := do
  let accepted ← if hooked then run.client (β.accepts m name value) else pure true
  if !accepted then return .rejected
  let old := ((← get).model m).store.get name
  if old == value then return .unchanged
  modify (updateStore m fun s => s.write name value)
  if hooked then run.client (β.afterSet m name old value)
  traceEmit run (.modelProperty m) (.property name value)
  traceEmit run (.modelData m) .dataChanged
  return .changed

/-- `emitValidity`, traced. -/
def traceValidity : Proc (Traced σ ε) Unit := do
  traceEmit run (.modelValidity m) (.validity (isModelValid β (← get) m))

/-- `setProperty`, traced. -/
def traceProperty (name : String) (value : Value) : Proc (Traced σ ε) SetOutcome := do
  let outcome ← traceWrite run β m true name value
  if outcome.isChanged then traceValidity run β m
  return outcome

/-- `emitReloaded`, traced. -/
def traceReloaded : Proc (Traced σ ε) Unit := do
  traceEmit run (.modelData m) .dataChanged
  traceValidity run β m

/-- The model's hook is asked for the defaults. -/
def tracePopulate : Proc (Traced σ ε) (Except ModelError (List (String × Value))) := do
  modify (mark .asked)
  run.client (β.populate m)

/-- `initializeModel`, traced. -/
def traceInitialize : Proc (Traced σ ε) (Except ModelError Unit) := do
  if ((← get).model m).initialized then return .ok ()
  match ← tracePopulate run β m with
  | .error e => return .error e
  | .ok defaults =>
    if ((← get).model m).initialized then return .ok ()
    modify (install m defaults)
    traceReloaded run β m
    return .ok ()

/-- `resetModel`, traced. -/
def traceReset : Proc (Traced σ ε) (Except ModelError Unit) := do
  match ← tracePopulate run β m with
  | .error e => return .error e
  | .ok defaults =>
    modify (refill m defaults)
    traceReloaded run β m
    return .ok ()

/-- `body`, one model being traced. Client code does not change the notes. -/
def tracedBody (fuel : Nat) : Runner σ (Noted (List Milestone) ε)
  | .action (.emit s notice) => if s.isOf m then traceEmit run s notice else emit run s notice
  | .action (.write n hooked name value) =>
    if n = m then traceWrite run β m hooked name value else write run β n hooked name value
  | .action (.setProperty n name value) =>
    if n = m then traceProperty run β m name value else setProperty run β n name value
  | .action (.initializeModel n) =>
    if n = m then traceInitialize run β m else initializeModel run β n
  | .action (.resetModel n) => if n = m then traceReset run β m else resetModel run β n
  | .action (.change f) =>
    modify fun w => { w with client := { f w.client with notes := w.client.notes } }
  | call => body run β fuel call

end Tracing

/-- Run a call and note the milestones of a model. -/
def traced (β : Behaviour σ ε) (m : Nat) : Nat → Runner σ (Noted (List Milestone) ε)
  | 0 => fun _ => Proc.tooDeep
  | depth + 1 => tracedBody (traced β m depth) (β.beside _) m depth

/-! ## A traced run is a run -/

open Proc

section Untraced

variable {run' : Runner σ (Noted (List Milestone) ε)} {run : Runner σ ε}
  (calls : BareRunner run' run) (β : Behaviour σ ε) (m : Nat)
include calls

theorem bares_traceEmit (s : SignalRef) (notice : Notice) :
    Bares id (traceEmit run' s notice) (emit run s notice) := by
  refine .note (funext fun w => ?_) (bares_emit calls s notice)
  unfold markTold
  split <;> rfl

theorem bares_traceWrite (hooked : Bool) (name : String) (value : Value) :
    Bares id (traceWrite run' (β.beside _) m hooked name value)
      (write run β m hooked name value) := by
  have announce : Bares id
      (do
        traceEmit run' (.modelProperty m) (.property name value)
        traceEmit run' (.modelData m) .dataChanged
        return SetOutcome.changed)
      (do
        emit run (.modelProperty m) (.property name value)
        emit run (.modelData m) .dataChanged
        return SetOutcome.changed) :=
    .bind (bares_traceEmit calls _ _) fun _ => .bind (bares_traceEmit calls _ _) fun _ => .pure _
  unfold traceWrite write
  cases hooked with
  | false =>
      refine .bind (.pure true) fun accepted => .ite (.pure _) (.look fun w => ?_)
      exact .ite (.pure _) (.bind (.modify fun w => rfl) fun _ => announce)
  | true =>
      refine .bind (f := id) (bares_client calls _) fun accepted => ?_
      refine .ite (.pure _) (.look fun w => ?_)
      refine .ite (.pure _) (.bind (.modify fun w => rfl) fun _ => ?_)
      exact .bind (bares_client calls _) fun _ => announce

theorem bares_traceValidity :
    Bares id (traceValidity run' (β.beside _) m) (emitValidity run β m) :=
  .look fun _ => bares_traceEmit calls _ _

theorem bares_traceProperty (name : String) (value : Value) :
    Bares id (traceProperty run' (β.beside _) m name value) (setProperty run β m name value) := by
  refine .bind (bares_traceWrite calls β m true name value) fun outcome => ?_
  cases outcome with
  | changed => exact .bind (bares_traceValidity calls β m) fun _ => .pure _
  | unchanged | rejected => exact .bind (.pure ()) fun _ => .pure _

theorem bares_traceReloaded :
    Bares id (traceReloaded run' (β.beside _) m) (emitReloaded run β m) :=
  .bind (bares_traceEmit calls _ _) fun _ => bares_traceValidity calls β m

theorem bares_tracePopulate :
    Bares id (tracePopulate run' (β.beside _) m) (run.client (β.populate m)) :=
  .note rfl (bares_client calls _)

theorem bares_traceInitialize :
    Bares id (traceInitialize run' (β.beside _) m) (initializeModel run β m) := by
  refine .look fun w => .ite (.pure _) (.bind (bares_tracePopulate calls β m) fun populated => ?_)
  cases populated with
  | error e => exact .pure _
  | ok defaults =>
      refine .look fun w => .ite (.pure _) (.bind (.modify fun w => rfl) fun _ => ?_)
      exact .bind (bares_traceReloaded calls β m) fun _ => .pure _

theorem bares_traceReset :
    Bares id (traceReset run' (β.beside _) m) (resetModel run β m) := by
  refine .bind (bares_tracePopulate calls β m) fun populated => ?_
  cases populated with
  | error e => exact .pure _
  | ok defaults =>
      refine .bind (.modify fun w => rfl) fun _ => ?_
      exact .bind (bares_traceReloaded calls β m) fun _ => .pure _

theorem bare_tracedBody (fuel : Nat) :
    BareRunner (tracedBody run' (β.beside _) m fuel) (body run β fuel) := by
  have plain := bares_body calls β fuel
  refine ⟨plain.slot, plain.task, plain.subscription, fun a => ?_⟩
  have untraced := plain.action a
  -- What happens to another model is not traced.
  have either : ∀ {α : Type} {n : Nat} {p' q' : Proc (Traced σ ε) α} {p : Proc (Ensemble σ ε) α},
      (n = m → Bares id p' p) → Bares id q' p → Bares id (if n = m then p' else q') p := by
    intro α n p' q' p here there
    split
    · next same => exact here same
    · exact there
  cases a with
  | emit s notice =>
      show Bares id (if s.isOf m then traceEmit run' s notice else emit run' s notice)
        (emit run s notice)
      split
      · exact bares_traceEmit calls s notice
      · exact untraced
  | write n hooked name value =>
      exact either (fun same => same ▸ bares_traceWrite calls β n hooked name value) untraced
  | setProperty n name value =>
      exact either (fun same => same ▸ bares_traceProperty calls β n name value) untraced
  | initializeModel n =>
      exact either (fun same => same ▸ bares_traceInitialize calls β n) untraced
  | resetModel n => exact either (fun same => same ▸ bares_traceReset calls β n) untraced
  | _ => exact untraced

end Untraced

/-- Without the notes, a traced run is a run. -/
theorem bare_traced (β : Behaviour σ ε) (m depth : Nat) :
    BareRunner (traced β m depth) (Ensemble.run β depth) := by
  induction depth with
  | zero => exact ⟨fun _ _ => .tooDeep, fun _ => .tooDeep, fun _ => .tooDeep, fun _ => .tooDeep⟩
  | succ depth ih => exact bare_tracedBody ih β m depth

/-! ## Growing older -/

/-- The first fillings that are noted. -/
def firsts (log : List Milestone) : Nat := log.count (.filled false)

variable {m : Nat} {β : Behaviour σ ε} {w w₁ w' : Traced σ ε}

/-- Milestones are added, with one first filling if the model became initialized and with none if
    it did not; it was not initialized before. -/
def Ages (m : Nat) (w w' : Traced σ ε) : Prop :=
  ∃ log, w'.client.notes = w.client.notes ++ log ∧
    firsts log + (w.model m).initialized.toNat = (w'.model m).initialized.toNat

theorem ages_composes : Composes (Ages (σ := σ) (ε := ε) m) where
  refl w := ⟨[], by simp, by simp [firsts]⟩
  trans := by
    rintro a b c ⟨log, noted, older⟩ ⟨log', noted', older'⟩
    refine ⟨log ++ log', by rw [noted', noted, List.append_assoc], ?_⟩
    simp only [firsts, List.count_append] at *
    omega

theorem ages_of_same (notes : w'.client.notes = w.client.notes)
    (initialized : (w'.model m).initialized = (w.model m).initialized) : Ages m w w' :=
  ⟨[], by simp [notes], by simp [firsts, initialized]⟩

theorem ages_mark {e : Milestone} (other : e ≠ .filled false) : Ages m w (mark e w) := by
  refine ⟨[e], rfl, ?_⟩
  have none : firsts [e] = 0 := List.count_eq_zero.mpr fun member =>
    other (List.mem_singleton.mp member).symm
  rw [none, Nat.zero_add]
  rfl

theorem ages_markTold (s : SignalRef) (notice : Notice) : Ages m w (markTold s notice w) := by
  unfold markTold
  split
  · exact ages_composes.refl w
  · exact ages_mark (by simp)

theorem ages_updateModel (n : Nat) {f : Model σ → Model σ}
    (initialized : n = m → ∀ o, (f o).initialized = o.initialized) :
    Ages m w (updateModel n f w) := by
  refine ages_of_same rfl ?_
  rw [model_updateModel]
  split
  · next same => rw [initialized same.symm, same]
  · rfl

theorem updateStore_ages (n : Nat) (f : Store → Store) :
    Keeps (Ages (σ := σ) (ε := ε) m) (modify (updateStore n f)) :=
  .modify fun _ => ages_updateModel n fun _ _ => rfl

theorem ages_setSignal (s : SignalRef) (x : Signal (Slot σ)) : Ages m w (setSignal s x w) := by
  refine ages_of_same (by simp) ?_
  have same := congrArg (·.initialized) (model_setSignal w s x m)
  exact same

theorem connect_ages (s : SignalRef) (slot : Slot σ) (d : Delivery) :
    Keeps (Ages m) (connect (ε := Noted (List Milestone) ε) s slot d) := by
  intro w r w' h
  cases h
  exact ages_setSignal s _

theorem ages_refill (defaults : List (String × Value)) : Ages m w (refill m defaults w) := by
  have stored : Ages m w (updateStore m (fun _ => .ofPairs defaults) w) :=
    ages_updateModel m fun _ _ => rfl
  exact ages_composes.trans stored (ages_mark (by simp))

theorem ages_install (new : (w.model m).initialized = false) (defaults : List (String × Value)) :
    Ages m w (install m defaults w) := by
  refine ⟨[.filled false], rfl, ?_⟩
  have done : ((install m defaults w).model m).initialized = true := by
    rw [install, model_mark, model_updateModel, if_pos rfl]
  rw [new, done]
  rfl

section Calls

variable {run : Runner σ (Noted (List Milestone) ε)} (calls : ∀ call, Keeps (Ages m) (run call))
include calls

/-- Whoever minds how old a model is is a bystander. -/
theorem ages_bystander : Bystander (Ages m) (fun _ => True) run where
  order := ages_composes
  tacit still := ages_of_same (congrArg _ still.client) (still.initialized m)
  giveUpController _ _ _ := ages_of_same rfl rfl
  giveUpView _ _ _ := ages_of_same rfl rfl
  action a _ := calls (.action a)
  slot slot notice := calls (.slot slot notice)
  task t := calls (.task t)
  subscription code := calls (.subscription code)
  link s slot _ := connect_ages s slot .direct
  subscribe _ _ _ :=
    .look fun _ => .bind ages_composes (connect_ages _ _ _) fun _ => .pure ages_composes _

theorem ages_client {ρ : Type} (code : Client σ (Noted (List Milestone) ε) ρ) :
    Keeps (Ages m) (run.client code) :=
  (tracks_self _).mp (.program ages_composes (fun a => (tracks_self _).mpr (calls (.action a))) code)

theorem traceEmit_ages (s : SignalRef) (notice : Notice) :
    Keeps (Ages m) (traceEmit run s notice) :=
  .bind ages_composes (.modify fun _ => ages_markTold s notice) fun _ =>
    (ages_bystander calls).emit s notice

variable (β : Behaviour σ (Noted (List Milestone) ε))

theorem traceWrite_ages (hooked : Bool) (name : String) (value : Value) :
    Keeps (Ages m) (traceWrite run β m hooked name value) := by
  have announce : Keeps (Ages m)
      (do
        traceEmit run (.modelProperty m) (.property name value)
        traceEmit run (.modelData m) .dataChanged
        return SetOutcome.changed) := by
    refine .bind ages_composes (traceEmit_ages calls _ _) fun _ => ?_
    exact .bind ages_composes (traceEmit_ages calls _ _) fun _ => .pure ages_composes _
  have stored := updateStore_ages (σ := σ) (ε := ε) (m := m) m fun s => s.write name value
  unfold traceWrite
  cases hooked with
  | false =>
      refine .bind ages_composes (.pure ages_composes true) fun _ => .ite (.pure ages_composes _) ?_
      refine .look fun w => .ite (.pure ages_composes _) ?_
      exact .bind ages_composes stored fun _ => announce
  | true =>
      refine .bind ages_composes (ages_client calls _) fun _ => .ite (.pure ages_composes _) ?_
      refine .look fun w => .ite (.pure ages_composes _) (.bind ages_composes stored fun _ => ?_)
      exact .bind ages_composes (ages_client calls _) fun _ => announce

theorem traceValidity_ages : Keeps (Ages m) (traceValidity run β m) :=
  .look fun _ => traceEmit_ages calls _ _

theorem traceProperty_ages (name : String) (value : Value) :
    Keeps (Ages m) (traceProperty run β m name value) := by
  refine .bind ages_composes (traceWrite_ages calls β true name value) fun outcome => ?_
  cases outcome with
  | changed => exact .bind ages_composes (traceValidity_ages calls β) fun _ => .pure ages_composes _
  | unchanged | rejected => exact .pure ages_composes _

theorem traceReloaded_ages : Keeps (Ages m) (traceReloaded run β m) :=
  .bind ages_composes (traceEmit_ages calls _ _) fun _ => traceValidity_ages calls β

theorem tracePopulate_ages : Keeps (Ages m) (tracePopulate run β m) :=
  .bind ages_composes (.modify fun _ => ages_mark (by simp)) fun _ => ages_client calls _

theorem traceReset_ages : Keeps (Ages m) (traceReset run β m) := by
  refine .bind ages_composes (tracePopulate_ages calls β) fun populated => ?_
  cases populated with
  | error e => exact .pure ages_composes _
  | ok defaults =>
      refine .bind ages_composes (.modify fun w => ages_refill defaults) fun _ => ?_
      exact .bind ages_composes (traceReloaded_ages calls β) fun _ => .pure ages_composes _

/-- Whoever asked the hook looks again before the model is filled. -/
theorem traceInitialize_ages : Keeps (Ages m) (traceInitialize run β m) := by
  refine .look fun w => .ite (.pure ages_composes _) ?_
  refine .bind ages_composes (tracePopulate_ages calls β) fun populated => ?_
  cases populated with
  | error e => exact .pure ages_composes _
  | ok defaults =>
      intro w
      refine .get_bind ?_
      split
      · exact Keeps.pure ages_composes _ w
      · next new =>
          have rest : Keeps (Ages m)
              (do traceReloaded run β m; return (.ok () : Except ModelError Unit)) :=
            .bind ages_composes (traceReloaded_ages calls β) fun _ => .pure ages_composes _
          have first := ages_install (eq_false_of_ne_true new) defaults
          exact .modify_bind ((rest _).mono fun _ _ later => ages_composes.trans first later)

theorem tracedBody_ages (fuel : Nat) (call : Call σ (Noted (List Milestone) ε)) :
    Keeps (Ages m) (tracedBody run β m fuel call) := by
  have b := ages_bystander calls
  have hooks : Hooked (Ages m) β run := .of_client (ages_client calls) β
  have scribe : ∀ n, Scribe (Ages m) β run n := fun n =>
    b.scribe hooks fun _ _ => ages_updateModel n fun _ _ => rfl
  have untraced : ∀ a, (a.isNoticed = true → Keeps (Ages m) (performAction run β fuel a)) →
      Keeps (Ages m) (performAction run β fuel a) := fun a =>
    b.performAction hooks fuel a trivial
  cases call with
  | slot slot notice => exact b.onlooker.serve hooks.toAnswers slot notice fun _ => trivial
  | task t => exact b.runTask hooks t
  | subscription code => exact hooks.job code
  | action a =>
      cases a with
      | emit s notice => exact .ite (traceEmit_ages calls s notice) (b.emit s notice)
      | write n hooked name value =>
          exact .ite (traceWrite_ages calls β hooked name value)
            ((scribe n).write hooked name value)
      | setProperty n name value =>
          exact .ite (traceProperty_ages calls β name value) ((scribe n).setProperty name value)
      | initializeModel n =>
          show Keeps (Ages m)
            (if n = m then traceInitialize run β m else initializeModel run β n)
          split
          · exact traceInitialize_ages calls β
          · next other =>
              exact (scribe n).initializeModel fun w store =>
                ages_updateModel n fun same => absurd same other
      | resetModel n => exact .ite (traceReset_ages calls β) (scribe n).resetModel
      | change f => exact .modify fun w => ages_of_same rfl rfl
      | connect s slot d => exact connect_ages s slot d
      | setSilently | replaceAll | clear => exact updateStore_ages _ _
      | inBackground a =>
          exact (inBackground_tracks ages_composes (fun _ _ => ages_of_same rfl rfl)
            ((tracks_self _).mpr (calls (.action a)))).keeps
      | _ => exact untraced _ nofun

end Calls

theorem traced_ages (β : Behaviour σ ε) (m depth : Nat) (call : Call σ (Noted (List Milestone) ε)) :
    Keeps (Ages m) (traced β m depth call) := by
  induction depth generalizing call with
  | zero =>
      intro w r w' h
      cases h
  | succ depth ih => exact tracedBody_ages ih _ depth call

end Ensemble

end Mvc
