import Mvc.Proofs.Obedience
import Mvc.Proofs.Returning

/-! # The hooks keep a theme

The hook of the application's model lets nothing but a theme be written to the theme, and the
defaults have one. So an initialized model goes on to have a theme as long as nobody writes past
the hook: there are actions that do, and the application performs none of them
(`behaviour_guarded`). So whatever code runs that does not either, however deep calls nest and
whoever listens, leaves a theme (`keepsTheme_client`).
-/

namespace Mvc.App

open Ensemble Proc

variable {w w' : Whole} {run : Runner Code State} {depth : Nat}

/-! ## Having a theme -/

/-- The theme is one of those that there are. -/
def HasTheme (s : Store) : Prop := (s.get Property.theme).asString?.any isTheme = true

theorem HasTheme.textOf {s : Store} (has : HasTheme s) : textOf s Property.theme ∈ themes := by
  unfold HasTheme at has
  unfold App.textOf
  cases stored : s.get Property.theme with
  | string text =>
      rw [stored] at has
      have listed : text ∈ themes := by simpa [Value.asString?, isTheme] using has
      exact listed
  | _ =>
      rw [stored] at has
      simp [Value.asString?] at has

/-- Once the model is initialized it has a theme. -/
def Themed (w : Whole) : Prop := (w.model model).initialized = true → HasTheme (properties w)

/-- An initialized model stays so, and it keeps a theme. -/
structure KeepsTheme (w w' : Whole) : Prop where
  initialized : (w.model model).initialized = true → (w'.model model).initialized = true
  themed : Themed w → Themed w'

/-! ## Actions that ask the hooks -/

/-- An action that does not write to the application's model past its hooks. -/
def IsGuarded : Action Code State → Prop
  | .write m hooked _ _ => m = model → hooked = true
  | .setSilently m _ _ | .replaceAll m _ | .clear m => m ≠ model
  | .inBackground a => IsGuarded a
  | _ => True

theorem isGuarded_of_allow {changes : (State → State) → Prop} {a : Action Code State}
    (allowed : (keeping changes).Allow a) : IsGuarded a := by
  induction a with
  | inBackground a ih => exact ih allowed.2
  | write | setSilently | replaceAll | clear => exact allowed.elim
  | _ => trivial

theorem behaviour_guarded : behaviour.Obeys IsGuarded := by
  have lax : (keeping fun _ => True).Lax := held_ledger.lax
  have guarded : ∀ {ρ : Type} {code : Program ρ}, code.All (keeping fun _ => True).Allow →
      code.All IsGuarded := fun all => all.mono fun _ => isGuarded_of_allow
  exact {
    accepts := fun _ _ _ => trivial
    afterSet := fun _ name _ value => guarded (afterSet_allowed name value)
    populate := fun m => guarded (populate_allowed lax m)
    setup := fun _ => trivial
    connect := fun _ => by
      refine .bind (fun _ => trivial) fun c => ?_
      split
      · trivial
      · exact .bind (fun _ => trivial) fun busy => ⟨trivial, fun _ => ⟨trivial, fun _ => trivial⟩⟩
    handles := fun _ name data => guarded (handles_allowed lax trivial name data)
    derive := fun _ => guarded (deriveTitle_allowed lax)
    dataChanged := fun c => guarded (dataChanged_allowed c)
    updateRequested := fun _ => trivial
    closing := fun _ => guarded (stop_allowed lax held_writable.free)
    viewSetup := fun _ => guarded (see_allowed _)
    display := fun v => guarded (display_allowed (fun _ _ => trivial) v)
    showError := fun v _ => guarded (print_allowed lax v rfl)
    showInfo := fun v _ => guarded (print_allowed lax v rfl)
    slot := fun code notice => guarded (slot_allowed lax code notice)
    job := fun code => guarded (job_allowed lax trivial code) }

/-! ## What keeps a theme -/

theorem keepsTheme_composes : Composes KeepsTheme where
  refl _ := ⟨id, id⟩
  trans first second :=
    ⟨second.initialized ∘ first.initialized, second.themed ∘ first.themed⟩

theorem keepsTheme_of_same (store : properties w' = properties w)
    (initialized : (w'.model model).initialized = (w.model model).initialized) :
    KeepsTheme w w' := by
  refine ⟨fun set => initialized.trans set, fun themed set => ?_⟩
  rw [store]
  exact themed (initialized ▸ set)

/-- What is put into the model has a theme if what was there before had one. -/
theorem keepsTheme_updateModel {f : Model Code → Model Code} (m : Nat)
    (set : ∀ o, o.initialized = true → (f o).initialized = true)
    (has : m = model → ∀ o, (o.initialized = true → HasTheme o.store) →
      (f o).initialized = true → HasTheme (f o).store)
    (w : Whole) : KeepsTheme w (updateModel m f w) := by
  constructor
  · intro initialized
    rw [model_updateModel]
    split
    · exact set _ (by simpa [*] using initialized)
    · exact initialized
  · intro themed
    unfold Themed properties
    rw [model_updateModel]
    split
    · next same =>
        subst same
        exact has rfl _ themed
    · exact themed

theorem keepsTheme_connect (s : SignalRef) (slot : Slot Code) (d : Delivery) :
    Keeps KeepsTheme (Ensemble.connect s slot d) := by
  intro w r w' ran
  cases ran
  have only : OnlySignals w (setSignal s ((w.signal s).connect slot d).2 w) := .setSignal w s _
  refine keepsTheme_of_same (congrArg (·.store) (only.model model)) ?_
  exact congrArg (·.initialized) (only.model model)

section Calls

variable (calls : ∀ call, (∀ a, call = .action a → IsGuarded a) → Keeps KeepsTheme (run call))
include calls

theorem keepsTheme_bystander : Bystander KeepsTheme IsGuarded run where
  order := keepsTheme_composes
  tacit still := keepsTheme_of_same (still.store model) (still.initialized model)
  giveUpController _ _ _ := keepsTheme_of_same rfl rfl
  giveUpView _ _ _ := keepsTheme_of_same rfl rfl
  action a guarded := calls _ fun _ same => by
    cases same
    exact guarded
  slot slot notice := calls _ nofun
  task t := calls _ nofun
  subscription code := calls _ nofun
  link s slot _ := keepsTheme_connect s slot .direct
  subscribe c m _ :=
    .look fun w => .bind keepsTheme_composes (keepsTheme_connect _ _ _) fun _ =>
      .pure keepsTheme_composes _

theorem keepsTheme_hooked : Hooked KeepsTheme behaviour run :=
  behaviour_guarded.hooked (keepsTheme_bystander calls).client

/-- What the hooks accept leaves a theme. -/
theorem keepsTheme_write (name : String) (value : Value) :
    Keeps KeepsTheme (write run behaviour model true name value) := by
  have b := keepsTheme_bystander calls
  have order := b.order
  have hooks := keepsTheme_hooked calls
  intro w
  refine .bind_of_eq (show _ = some (accepts name value, w) from rfl) ?_
  cases accepted : accepts name value with
  | false => exact (ends_pure _ _ _).mpr (order.refl w)
  | true =>
      have stored : Keeps KeepsTheme (modify (updateStore model (·.write name value))) := by
        refine .modify (keepsTheme_updateModel model (fun _ => id) fun _ o has set => ?_)
        have before := has set
        unfold HasTheme at before ⊢
        rw [Store.get_write]
        split
        · next theme => simpa [accepts, theme.symm] using accepted
        · exact before
      have announced : Keeps KeepsTheme (do
          run.client (behaviour.afterSet model name ((w.model model).store.get name) value)
          Ensemble.emit run (.modelProperty model) (.property name value)
          Ensemble.emit run (.modelData model) .dataChanged
          return SetOutcome.changed) := by
        refine .bind order (hooks.afterSet _ _ _ _) fun _ => ?_
        refine .bind order (b.emit _ _) fun _ => .bind order (b.emit _ _) fun _ => ?_
        exact .pure order _
      refine .get_bind ?_
      dsimp only
      split
      · exact (ends_pure _ _ _).mpr (order.refl w)
      · exact Keeps.bind order stored (fun _ => announced) w

omit calls in
/-- The defaults have a theme. -/
theorem hasTheme_defaults (config : Config) (now : Instant) :
    HasTheme (.ofPairs (defaults config now)) := by
  unfold HasTheme
  rw [Store.get_eq, Store.value?_ofPairs]
  rfl

omit calls in
theorem populate_ends (m : Nat) (w : Whole) : Ends (run.client (behaviour.populate m)) w
    fun r _ => ∃ defaults, r = .ok defaults ∧ HasTheme (.ofPairs defaults) := by
  have populated : Ends (run.client populate) w fun defaults _ => HasTheme (.ofPairs defaults) :=
    ends_see (ends_program fun _ _ _ => (ends_pure _ _ _).mpr (hasTheme_defaults _ _))
  exact ends_program (populated.mono fun defaults _ has => (ends_pure _ _ _).mpr ⟨_, rfl, has⟩)

theorem keepsTheme_emitReloaded (m : Nat) : Keeps KeepsTheme (do
    emitReloaded run behaviour m
    return (.ok () : Except ModelError Unit)) := by
  have b := keepsTheme_bystander calls
  refine .bind b.order (.bind b.order (b.emit _ _) fun _ => ?_) fun _ => .pure b.order _
  exact .look fun _ => b.emit _ _

theorem keepsTheme_initializeModel (m : Nat) :
    Keeps KeepsTheme (initializeModel run behaviour m) := by
  have order := keepsTheme_composes
  refine .look fun w => .ite (.pure order _) fun w₁ => ?_
  refine .bind ((populate_ends m w₁).and ((keepsTheme_hooked calls).populate m w₁) |>.mono ?_)
  rintro _ w₂ ⟨⟨defaults, rfl, has⟩, kept⟩
  have filled : Keeps KeepsTheme (modify
      (updateModel m fun o => { o with store := .ofPairs defaults, initialized := true })) :=
    .modify (keepsTheme_updateModel m (fun _ _ => rfl) fun _ _ _ _ => has)
  have rest : Keeps KeepsTheme (do
      if ((← get).model m).initialized then return .ok ()
      modify (updateModel m fun o => { o with store := .ofPairs defaults, initialized := true })
      emitReloaded run behaviour m
      return (.ok () : Except ModelError Unit)) :=
    .look fun w => .ite (.pure order _) (.bind order filled fun _ => keepsTheme_emitReloaded calls m)
  exact (rest w₂).mono fun _ _ kept' => order.trans kept kept'

theorem keepsTheme_resetModel (m : Nat) : Keeps KeepsTheme (resetModel run behaviour m) := by
  have order := keepsTheme_composes
  intro w
  refine .bind ((populate_ends m w).and ((keepsTheme_hooked calls).populate m w) |>.mono ?_)
  rintro _ w₁ ⟨⟨defaults, rfl, has⟩, kept⟩
  have filled : Keeps KeepsTheme (modify (updateStore m fun _ => .ofPairs defaults)) :=
    .modify (keepsTheme_updateModel m (fun _ => id) fun _ _ _ _ => has)
  have rest := Keeps.bind order filled fun _ => keepsTheme_emitReloaded calls m
  exact (rest w₁).mono fun _ _ kept' => order.trans kept kept'

theorem keepsTheme_body (fuel : Nat) {call : Call Code State}
    (allowed : ∀ a, call = .action a → IsGuarded a) :
    Keeps KeepsTheme (Ensemble.body run behaviour fuel call) := by
  have b := keepsTheme_bystander calls
  have order := b.order
  have hooks := keepsTheme_hooked calls
  have other : ∀ {m : Nat}, m ≠ model → ∀ (w : Whole) f, KeepsTheme w (updateStore m f w) :=
    fun other w f => keepsTheme_updateModel (f := fun o => { o with store := f o.store }) _
      (fun _ => id) (fun same => absurd same other) w
  cases call with
  | slot slot notice => exact b.onlooker.serve hooks.toAnswers slot notice fun _ => trivial
  | task t => exact b.runTask hooks t
  | subscription code => exact hooks.job code
  | action a =>
      have guarded := allowed a rfl
      refine b.performAction hooks fuel a guarded fun noticed => ?_
      cases a with
      | connect s slot d => exact keepsTheme_connect s slot d
      | inBackground a =>
          have thread : ∀ (w : Whole) thread, KeepsTheme w { w with thread } := fun _ _ =>
            keepsTheme_of_same rfl rfl
          exact (inBackground_tracks order thread ((tracks_self _).mpr (b.action a guarded))).keeps
      | change f => exact .modify fun w => keepsTheme_of_same rfl rfl
      | write m hooked name value =>
          by_cases same : m = model
          · obtain rfl := guarded same
            exact same ▸ keepsTheme_write calls name value
          · exact (b.scribe hooks (other same)).write hooked name value
      | setProperty m name value =>
          by_cases same : m = model
          · subst same
            refine .bind order (keepsTheme_write calls name value) fun outcome => ?_
            refine .ite (.bind order (.look fun _ => b.emit _ _) fun _ => .pure order _) ?_
            exact .pure order _
          · exact (b.scribe hooks (other same)).setProperty name value
      | setSilently | replaceAll | clear => exact .modify fun w => other guarded w _
      | initializeModel m => exact keepsTheme_initializeModel calls m
      | resetModel m => exact keepsTheme_resetModel calls m
      | _ => cases noticed

end Calls

/-- No call loses the theme that does not write past the hooks. -/
theorem keepsTheme_calls (depth : Nat) (call : Call Code State)
    (allowed : ∀ a, call = .action a → IsGuarded a) : Keeps KeepsTheme (runs depth call) := by
  induction depth generalizing call with
  | zero =>
      intro w r w' ran
      cases ran
  | succ depth ih => exact keepsTheme_body ih depth allowed

theorem keepsTheme_client {ρ : Type} {code : Program ρ} (guarded : code.All IsGuarded) :
    Keeps KeepsTheme ((runs depth).client code) :=
  (keepsTheme_bystander (keepsTheme_calls depth)).client guarded

theorem keepsTheme_deals (depth : Nat) :
    Deals (keeping fun _ => True) KeepsTheme (runs depth) where
  order := keepsTheme_composes
  program all := keepsTheme_client (all.mono fun _ => isGuarded_of_allow)
  stop := (keepsTheme_hooked (keepsTheme_calls depth)).closing controller
  close v := keepsTheme_calls depth _ (by rintro _ ⟨⟩; trivial)
  thread w thread := keepsTheme_of_same rfl rfl
  handle name data := keepsTheme_calls depth _ (by rintro _ ⟨⟩; trivial)
  drain := keepsTheme_calls depth _ (by rintro _ ⟨⟩; trivial)
  fill := keepsTheme_calls depth _ (by rintro _ ⟨⟩; trivial)
  refill := keepsTheme_calls depth _ (by rintro _ ⟨⟩; trivial)

end Mvc.App
