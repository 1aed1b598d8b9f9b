import Mvc.Proofs.Bystanders
import Mvc.Proofs.Journeys
import Mvc.Proofs.Resuming

/-! # What the application keeps to itself

Only the changes that programs make touch the application's own state. So a relation that looks at
no more than this state, and at who has a handle, is kept by whatever happens in a period if these
changes keep it (`Ledger.keeps`). Three such relations are looked at: nobody loses a handle; the
service goes on running for its file, with keys in normal form; and as long as the application is
not started, its service stays what it is.
-/

namespace Mvc.App

open Ensemble Proc

variable {changes : (State → State) → Prop} {R : Whole → Whole → Prop} {run : Runner Code State}
  {w w' : Whole} {depth : Nat}

/-! ## Changes of the application's own state -/

/-- The state may be changed only so. -/
def keeping (changes : (State → State) → Prop) : Rules where
  writes _ := True
  changes := changes
  acts := True

/-- An action that changes the state only so, and by which nobody gives up a handle. -/
def IsKeeping (changes : (State → State) → Prop) : Action Code State → Prop
  | .change f => changes f
  | .inBackground a => IsKeeping changes a
  | .dropController _ | .dropView _ => False
  | _ => True

theorem isKeeping_of_allow {a : Action Code State} (allowed : (keeping changes).Allow a) :
    IsKeeping changes a := by
  induction a with
  | change f => exact allowed
  | inBackground a ih => exact ih allowed.2
  | dropController | dropView => exact allowed.elim
  | _ => trivial

theorem keeping_all {ρ : Type} {code : Program ρ} (all : code.All (keeping changes).Allow) :
    code.All (IsKeeping changes) :=
  all.mono fun _ => isKeeping_of_allow

/-- An action by which parts come to know each other or are set up. -/
def Arranges : Action Code State → Prop
  | .connect .. | .setModel .. | .setView .. => True
  | .initializeModel _ | .initializeView _ | .initializeController _ => True
  | _ => False

section Arranging

variable {rules : Rules} {P : Action Code State → Prop} (allowed : ∀ a, rules.Allow a → P a)
  (arranges : ∀ a, Arranges a → P a)
include allowed arranges

/-- Setting up reports errors, and else it only arranges. -/
theorem setUpParts_all : App.setUpParts.All P := by
  have gaveUp : ∀ message cause, (giveUp message cause).All P := fun message _ =>
    .bind ((reportError_allowed message).mono allowed) fun _ => trivial
  refine .bind (fun _ => trivial) fun c => ?_
  split
  · exact gaveUp _ _
  · exact gaveUp _ _
  · refine ⟨arranges _ trivial, fun r => ?_⟩
    cases r with
    | error e => exact gaveUp _ _
    | ok =>
        refine ⟨arranges _ trivial, fun r => ?_⟩
        cases r with
        | error e => exact gaveUp _ _
        | ok =>
            refine ⟨arranges _ trivial, fun r => ?_⟩
            cases r with
            | error e => exact gaveUp _ _
            | ok => trivial

variable (lax : rules.Lax) (writes : ∀ name, rules.writes name)
include lax writes

theorem setUp_all : App.setUp.All P := by
  rw [setUp_eq]
  refine .bind (setUpParts_all allowed arranges) fun r => ?_
  cases r with
  | error e => trivial
  | ok =>
      refine .bind ((loadSettings_allowed (writes _) (writes _)).mono allowed) fun _ => ?_
      exact .bind ((updateStatus_allowed lax _).mono allowed) fun _ => trivial

/-- What the owner does is allowed, or it only arranges. -/
theorem Arrangement.program_all (a : Arrangement)
    (screens : ∀ view screen, rules.changes fun s =>
      { s with screens := s.screens.set view screen, current := some view })
    (free : a = .start → rules.Free) : a.program.All P := by
  cases a with
  | listen s => exact ⟨arranges _ trivial, fun _ => trivial⟩
  | makeView hasModel =>
      refine .bind (.bind (fun _ => trivial) fun v => ?_) fun _ => trivial
      exact .bind ((change_allowed (screens _ _)).mono allowed) fun _ => trivial
  | bindView v => exact ⟨arranges _ trivial, fun _ => trivial⟩
  | bindModel bound => exact ⟨arranges _ trivial, fun _ => trivial⟩
  | assemble => exact ⟨arranges _ trivial, fun _ => ⟨arranges _ trivial, fun _ => trivial⟩⟩
  | setUp => exact .bind (setUp_all allowed arranges lax writes) fun _ => trivial
  | start => exact (start_allowed lax (free rfl)).mono allowed

end Arranging

/-- A relation that is kept as long as the application's own state changes only so. -/
structure Ledger (changes : (State → State) → Prop) (R : Whole → Whole → Prop) : Prop where
  order : Composes R
  /-- It looks at no more than the state and who has a handle. -/
  same : ∀ {w w' : Whole}, w'.client = w.client →
    (∀ c, (w'.controller c).held = (w.controller c).held) →
    (∀ v, (w'.view v).held = (w.view v).held) → R w w'
  change : ∀ {f : State → State}, changes f → ∀ w : Whole, R w { w with client := f w.client }
  /-- Only the service and whether the application is started matter of the state. -/
  other : ∀ {f : State → State},
    (∀ s, (f s).service = s.service ∧ (f s).started = s.started) → changes f
  stop : ∀ {run : Runner Code State}, (∀ a, IsKeeping changes a → Keeps R (run (.action a))) →
    Keeps R (run.client App.stop)

namespace Ledger

variable (ledger : Ledger changes R)
include ledger

theorem lax : (keeping changes).Lax :=
  ⟨fun _ _ => trivial, fun _ alike =>
    ledger.other fun s => ⟨(alike s).service, (alike s).started⟩⟩

/-! ## One call -/

section Calls

variable (calls : ∀ call, (∀ a, call = .action a → IsKeeping changes a) → Keeps R (run call))
include calls

omit calls in
theorem connect (s : SignalRef) (slot : Slot Code) (d : Delivery) :
    Keeps R (Ensemble.connect s slot d) := by
  intro w r w' ran
  cases ran
  have only : OnlySignals w (setSignal s ((w.signal s).connect slot d).2 w) := .setSignal w s _
  exact ledger.same only.client (only.of_controller (·.held) fun _ => rfl)
    (only.of_view (·.held) fun _ => rfl)

theorem bystander : Bystander R (IsKeeping changes) run where
  order := ledger.order
  tacit still := ledger.same still.client still.controllers still.views
  giveUpController _ _ allowed := allowed.elim
  giveUpView _ _ allowed := allowed.elim
  action a kept := calls _ fun _ same => by
    cases same
    exact kept
  slot slot notice := calls _ nofun
  task t := calls _ nofun
  subscription code := calls _ nofun
  link s slot _ := ledger.connect s slot .direct
  subscribe c m _ :=
    .look fun w => .bind ledger.order (ledger.connect _ _ _) fun _ => .pure ledger.order _

theorem hooked : Hooked R behaviour run := by
  have b := ledger.bystander calls
  have lax := ledger.lax
  have keeps : ∀ {ρ : Type} {code : Program ρ}, code.All (keeping changes).Allow →
      Keeps R (run.client code) := fun all => b.client (keeping_all all)
  have printed : ∀ v p, (keeping changes).changes fun s =>
      { s with screens := s.screens.set v ((s.screens.get v).print p) } :=
    fun _ _ => ledger.other fun _ => ⟨rfl, rfl⟩
  have bound : bindings.All (IsKeeping changes) := by
    refine .bind (fun _ => trivial) fun c => ?_
    split
    · trivial
    · exact .bind (fun _ => trivial) fun busy => ⟨trivial, fun _ => ⟨trivial, fun _ => trivial⟩⟩
  refine ⟨⟨?_, ?_, ?_, ?_, ?_, ?_, ?_, ?_, ?_⟩, ?_, ?_, ?_, ?_, ?_, ?_, ?_⟩
  · exact fun _ c name data => keeps (handles_allowed lax trivial name data)
  · exact fun c => keeps (deriveTitle_allowed lax)
  · exact fun c => keeps (dataChanged_allowed c)
  · exact fun c => .pure ledger.order _
  · exact fun c => ledger.stop b.action
  · exact fun v => keeps (display_allowed printed v)
  · exact fun v message => keeps (print_allowed lax v rfl)
  · exact fun v message => keeps (print_allowed lax v rfl)
  · exact fun code notice => keeps (slot_allowed lax code notice)
  · exact fun m name value => .pure ledger.order _
  · exact fun m name old value => keeps (afterSet_allowed name value)
  · exact fun m => keeps (populate_allowed lax m)
  · exact fun c => .pure ledger.order _
  · exact fun c => b.client bound
  · exact fun v => keeps (see_allowed _)
  · exact fun code => keeps (job_allowed lax trivial code)

theorem body (fuel : Nat) {call : Call Code State}
    (allowed : ∀ a, call = .action a → IsKeeping changes a) :
    Keeps R (Ensemble.body run behaviour fuel call) := by
  have b := ledger.bystander calls
  have hooks := ledger.hooked calls
  have stored : ∀ m (f : Store → Store),
      Keeps R (modify (updateStore m f) : Proc Whole Unit) := fun m f =>
    .modify fun w => ledger.same rfl (fun _ => rfl) fun _ => rfl
  have scribe : ∀ m, Scribe R behaviour run m := fun m =>
    b.scribe hooks fun w f => ledger.same rfl (fun _ => rfl) fun _ => rfl
  cases call with
  | slot slot notice => exact b.onlooker.serve hooks.toAnswers slot notice fun _ => trivial
  | task t => exact b.runTask hooks t
  | subscription code => exact hooks.job code
  | action a =>
      refine b.performAction hooks fuel a (allowed a rfl) fun noticed => ?_
      cases a with
      | connect s slot d => exact ledger.connect s slot d
      | inBackground a =>
          have inner := b.action a (allowed a.inBackground rfl)
          have thread : ∀ (w : Whole) thread, R w { w with thread } := fun _ _ =>
            ledger.same rfl (fun _ => rfl) fun _ => rfl
          exact (inBackground_tracks ledger.order thread ((tracks_self _).mpr inner)).keeps
      | change f => exact .modify (ledger.change (f := f) (allowed _ rfl))
      | write m hooked name value => exact (scribe m).write hooked name value
      | setProperty m name value => exact (scribe m).setProperty name value
      | setSilently | replaceAll | clear => exact stored _ _
      | initializeModel m =>
          exact (scribe m).initializeModel fun _ _ =>
            ledger.same rfl (fun _ => rfl) fun _ => rfl
      | resetModel m => exact (scribe m).resetModel
      | _ => cases noticed

end Calls

/-- Whatever is done to the application keeps the relation, if the changes that it makes do. -/
theorem calls (depth : Nat) (call : Call Code State)
    (allowed : ∀ a, call = .action a → IsKeeping changes a) : Keeps R (runs depth call) := by
  induction depth generalizing call with
  | zero =>
      intro w r w' ran
      cases ran
  | succ depth ih => exact ledger.body ih depth allowed

theorem client {ρ : Type} {code : Program ρ} (all : code.All (IsKeeping changes)) :
    Keeps R ((runs depth).client code) :=
  (ledger.bystander (ledger.calls depth)).client all

theorem deals (depth : Nat) : Deals (keeping changes) R (runs depth) where
  order := ledger.order
  program all := ledger.client (keeping_all all)
  stop := ledger.stop (ledger.bystander (ledger.calls depth)).action
  close v := ledger.calls depth _ (by rintro _ ⟨⟩; trivial)
  thread w thread := ledger.same rfl (fun _ => rfl) fun _ => rfl
  handle name data := ledger.calls depth _ (by rintro _ ⟨⟩; trivial)
  drain := ledger.calls depth _ (by rintro _ ⟨⟩; trivial)
  fill := ledger.calls depth _ (by rintro _ ⟨⟩; trivial)
  refill := ledger.calls depth _ (by rintro _ ⟨⟩; trivial)

/-! ## Steps -/

omit ledger in
/-- The application may start and stop, and the settings may be written. -/
structure Writable (changes : (State → State) → Prop) : Prop where
  free : (keeping changes).Free
  store : ∀ r : Service.Request,
    (changeService fun s => r.perform s).All (keeping changes).Allow

omit ledger in
theorem isKeeping_of_arranges {a : Action Code State} (arranges : Arranges a) :
    IsKeeping changes a := by
  cases a <;> trivial

omit ledger in
theorem setUpParts : App.setUpParts.All (IsKeeping changes) :=
  setUpParts_all (fun _ => isKeeping_of_allow) fun _ => isKeeping_of_arranges

theorem arrangement {a : Arrangement} (started : a = .start → Writable changes) :
    a.program.All (IsKeeping changes) :=
  a.program_all (fun _ => isKeeping_of_allow) (fun _ => isKeeping_of_arranges) ledger.lax
    (fun _ => trivial) (fun _ _ => ledger.other fun _ => ⟨rfl, rfl⟩) fun starts =>
      (started starts).free

end Ledger

/-- A step that neither writes the settings nor starts the application. -/
def Step.IsIdle : Step → Prop
  | deed (.ask _ .saveSettings) | deed (.arrange .start) | configure .. => False
  | _ => True

theorem Ledger.step (ledger : Ledger changes R) {s : Step}
    (idle : ¬s.IsIdle → Ledger.Writable changes) (left : Option (List Piece)) : Keeps R (s.perform depth left) := by
  have order := ledger.order
  have deals := ledger.deals depth
  have program : ∀ {code : Program Unit}, code.All (IsKeeping changes) →
      Keeps R (do (runs depth).client code; return left) := fun all =>
    .bind order (ledger.client all) fun _ => .pure order left
  cases s with
  | deed d =>
      cases d with
      | turn t => exact deals.turn ledger.lax trivial t left
      | ask thread r =>
          exact deals.ask ledger.lax (fun _ => trivial) thread r (fun saves =>
            saveSettings_allowed (idle (by subst saves; exact id)).free) left
      | arrange a => exact program (ledger.arrangement fun starts => idle (by subst starts; exact id))
  | prepare view =>
      have prepared := ledger.calls depth (.action (.initializeView view)) (by rintro _ ⟨⟩; trivial)
      exact .bind order (keeps_perform prepared) fun _ => .pure order left
  | trigger name payload => exact program ⟨trivial, fun _ => trivial⟩
  | configure key value => exact program (keeping_all ((idle id).store (.write (.set key value))))

/-! ## Sessions -/

/-- What happens in a period: a step is taken, or the settings are written. -/
inductive Act where
  | step (s : Step)
  | store (r : Service.Request)

/-- How it happens; it tells which pieces are left to the worker. -/
def Act.perform (depth : Nat) : Act → Option (List Piece) → Proc Whole (Option (List Piece))
  | step s, left => s.perform depth left
  | store r, left => do
    (runs depth).client (changeService fun s => r.perform s)
    return left

/-- Neither are the settings written nor is the application started. -/
def Act.IsIdle : Act → Prop
  | step s => s.IsIdle
  | store _ => False

/-- Some of this happened, one after another. -/
inductive Period (m : Moment) : List Act → Moment → Prop
  | begins : Period m [] m
  | act {acts : List Act} {m₁ m' : Moment} (a : Act) (before : Period m acts m₁)
      (performed : ∃ depth, a.perform depth m₁.left m₁.whole = some (m'.left, m'.whole)) :
      Period m (acts ++ [a]) m'

variable {m m' : Moment} {acts : List Act}

/-- A relation that each act keeps is kept by them all. -/
theorem Period.keeps (period : Period m acts m') (order : Composes R)
    (each : ∀ a ∈ acts, ∀ depth left, Keeps R (a.perform depth left)) : R m.whole m'.whole := by
  induction period with
  | begins => exact order.refl _
  | act a before performed ih =>
      obtain ⟨depth, ran⟩ := performed
      have sofar := ih fun b member => each b (List.mem_append_left _ member)
      exact order.trans sofar (each a (by simp) depth _ _ _ _ ran)

namespace Ledger

variable (ledger : Ledger changes R)
include ledger

theorem act {a : Act} (idle : ¬a.IsIdle → Writable changes) (depth : Nat)
    (left : Option (List Piece)) : Keeps R (a.perform depth left) := by
  have order := ledger.order
  cases a with
  | step s => exact ledger.step idle left
  | store r =>
      refine .bind order (ledger.client (keeping_all ((idle id).store r))) fun _ => ?_
      exact .pure order left

/-- Whatever happens, the relation is kept. -/
theorem keeps (writable : Writable changes) (period : Period m acts m') :
    R m.whole m'.whole :=
  period.keeps ledger.order fun _ _ depth left => ledger.act (fun _ => writable) depth left

/-- It is kept if the settings are not written and the application is not started. -/
theorem keeps_idly (period : Period m acts m') (idle : ∀ a ∈ acts, a.IsIdle) :
    R m.whole m'.whole :=
  period.keeps ledger.order fun a member depth left =>
    ledger.act (fun busy => absurd (idle a member) busy) depth left

end Ledger

/-- Stopping keeps what may go on while the settings are written. -/
theorem stop_of_writable (order : Composes R) (lax : (keeping changes).Lax)
    (writable : Ledger.Writable changes)
    (actions : ∀ a, IsKeeping changes a → Keeps R (run (.action a))) :
    Keeps R (run.client App.stop) :=
  .program order actions (keeping_all (stop_allowed lax writable.free))

/-! ### Handles -/

theorem held_composes : Composes fun w w' : Whole => Held w → Held w' where
  refl _ := id
  trans first second := second ∘ first

theorem held_writable : Ledger.Writable fun _ => True where
  free := ⟨trivial, trivial, fun _ _ => change_allowed trivial⟩
  store _ := change_allowed trivial

/-- Whatever happens, nobody loses a handle. -/
theorem held_ledger : Ledger (fun _ => True) fun w w' => Held w → Held w' where
  order := held_composes
  same _ controllers views all :=
    ⟨fun c => (controllers c).trans (all.controllers c), fun v => (views v).trans (all.views v)⟩
  change _ _ all := ⟨all.controllers, all.views⟩
  other _ := trivial
  stop := stop_of_writable held_composes ⟨fun _ _ => trivial, fun _ _ => trivial⟩ held_writable

/-! ### The service -/

/-- The service goes on, whatever is done to it. -/
def Serving (f : State → State) : Prop := ∀ s, Service.Continues s.service (f s).service

theorem continues_composes : Composes fun w w' : Whole =>
    Service.Continues w.client.service w'.client.service where
  refl w := .refl w.client.service
  trans first second := first.trans second

theorem serving_writable : Ledger.Writable Serving where
  free := ⟨fun s => .refl s.service, fun s => .refl s.service,
    fun key text => change_allowed fun s => .keep s.service key (.string text)⟩
  store r := change_allowed fun s => .request r s.service

/-- Whatever happens, the service goes on running for its file, with keys in normal form. -/
theorem serving_ledger : Ledger Serving fun w w' =>
    Service.Continues w.client.service w'.client.service where
  order := continues_composes
  same state _ _ := state ▸ .refl _
  change kept w := kept w.client
  other same s := (same s).1 ▸ .refl _
  stop := stop_of_writable continues_composes
    ⟨fun _ _ => trivial, fun _ alike s => (alike s).service ▸ .refl _⟩ serving_writable

/-! ### Before the start -/

/-- As long as the application is not started, its service stays what it is. -/
def Rests (s s' : State) : Prop :=
  s.started = false → s'.started = false ∧ s'.service = s.service

theorem rests_composes : Composes fun w w' : Whole => Rests w.client w'.client where
  refl _ resting := ⟨resting, rfl⟩
  trans := by
    intro a b c first second resting
    obtain ⟨resting, same⟩ := first resting
    obtain ⟨resting, same'⟩ := second resting
    exact ⟨resting, same'.trans same⟩

theorem rests_of_same {s s' : State} (service : s'.service = s.service)
    (started : s'.started = s.started) : Rests s s' :=
  fun resting => ⟨started.trans resting, service⟩

theorem resting_ledger : Ledger (fun f => ∀ s, Rests s (f s)) fun w w' =>
    Rests w.client w'.client where
  order := rests_composes
  same state _ _ := rests_of_same (congrArg _ state) (congrArg _ state)
  change kept w := kept w.client
  other same s := rests_of_same (same s).1 (same s).2
  stop _ w := by
    refine ends_see ?_
    split
    · next started =>
        intro _ _ _ resting
        rw [resting] at started
        cases started
    · exact (ends_pure _ _ _).mpr (rests_composes.refl w)

end Mvc.App
