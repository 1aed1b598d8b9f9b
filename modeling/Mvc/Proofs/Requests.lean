import Mvc.Proofs.Retying

/-! # What is asked of the model, and the view that follows it

Any thread may write the model's properties, and fill it with its defaults for the first time
or again. The defaults come without word of the busy flag, so the view follows only if it
was not busy before. A write of the busy flag that tells the view at once overtakes the words that
wait, so the view follows only if none does, or if the flag stays (`Request.Fair`).

Setting the application up asks for the defaults, too, before the view and the controller.
-/

namespace Mvc.App

open Ensemble Proc

/-- What may be asked of the model. -/
inductive Request where
  | set (name : String) (value : Value)
  | updateStatus (message : String)
  | loadSettings
  | saveSettings
  /-- Fill the model with its defaults, unless it is initialized. -/
  | fill
  /-- Fill the model with its defaults again. -/
  | refill

/-- What is done when it is asked for. -/
def Request.program : Request → Program Unit
  | set name value => do let _ ← App.set name value
  | updateStatus message => App.updateStatus message
  | loadSettings => App.loadSettings
  | saveSettings => App.saveSettings
  | fill => do
    let _ ← Program.perform (Action.initializeModel (σ := Code) (ε := State) model)
  | refill => do
    let _ ← Program.perform (Action.resetModel (σ := Code) (ε := State) model)

/-- Whether a task tells a view of the busy flag, and the view is still connected for this. -/
def isWord (w : Whole) : Task Code → Bool
  | .delivery _ id (.client (.followBusy _)) _ => (w.signal Channel.busy).isConnected id
  | _ => false

/-- No word of the busy flag waits. -/
def Wordless (w : Whole) : Prop := ∀ t ∈ queue w, isWord w t = false

/-- Nothing overtakes a word that waits, and no busy flag is dropped without a word. -/
def Request.Fair (w : Whole) : Request → Prop
  | set name value =>
    name = Property.busy → servesInline (modelDelivery w controller) w.thread = true →
      isBusy (properties w) = value.asBool?.getD false ∨ Wordless w
  | fill =>
    (w.model model).initialized = false → isReady (w.controller controller) = true →
      isBusy (properties w) = false
  | refill => isReady (w.controller controller) = true → isBusy (properties w) = false
  | updateStatus _ | loadSettings | saveSettings => True

variable {n : Nat} {w w₁ w' : Whole}

/-! ## The defaults -/

theorem get_defaults (config : Config) (now : Instant) :
    (Store.ofPairs (defaults config now)).get Property.busy = .bool false ∧
      (Store.ofPairs (defaults config now)).get Property.status = .string config.status.ready := by
  rw [Store.get_eq, Store.get_eq, Store.value?_ofPairs, Store.value?_ofPairs]
  exact ⟨rfl, rfl⟩

/-- The flag is cleared and the status line is another one, and nobody is told. -/
def Gist.renew (status : Value) (g : Gist) : Gist := { g with busy := .bool false, status }

theorem Gist.renew_faithful {g : Gist} (status : Value)
    (calm : g.frame.followers ≠ [] → g.flag = false) : g.Faithful (g.renew status) := by
  refine ⟨rfl, fun _ _ _ => .inl, fun follows => ⟨follows.single, follows.linked, follows.known,
    follows.unrouted, fun f member => ?_⟩⟩
  exact (follows.agrees f member).trans (calm (List.ne_nil_of_mem member))

theorem gist_replaced {f : Model Code → Model Code} {config : Config} {now : Instant}
    (store : ∀ o, (f o).store = .ofPairs (defaults config now))
    (signals : ∀ o, (f o).propertyChanged = o.propertyChanged ∧
      (f o).dataChanged = o.dataChanged ∧ (f o).validityChanged = o.validityChanged) :
    Onward w (updateModel model f w) ∧
      gist (updateModel model f w) = (gist w).renew (.string config.status.ready) := by
  have onward : Onward w (updateModel model f w) :=
    ⟨⟨rfl, signal_updateModel w model signals, rfl, fun _ => rfl, fun _ => rfl, rfl, fun _ => .inl⟩,
      fun _ => rfl⟩
  refine ⟨onward, onward.gist.trans ?_⟩
  have filled : properties (updateModel model f w) = .ofPairs (defaults config now) := by
    rw [properties, model_updateModel, if_pos rfl, store]
  obtain ⟨busy, status⟩ := get_defaults config now
  simp only [gist, filled, busy, status]
  rfl

/-- The clock was read. -/
def ticked (w : Whole) : Whole := { w with client := { w.client with clock := w.client.clock.next } }

theorem populate_eq (w : Whole) : (runs (n + 1)).client (behaviour.populate model) w =
    some (.ok (defaults w.client.config w.client.clock), ticked w) :=
  rfl

theorem onward_ticked (w : Whole) : Onward w (ticked w) ∧ gist (ticked w) = gist w := by
  have onward : Onward w (ticked w) :=
    onward_change (fun s => { s with clock := s.clock.next }) rfl
  exact ⟨onward, onward.gist.trans rfl⟩

theorem emitReloaded_goes (mounted : Mounted w) :
    Goes (emitReloaded (runs (n + 5)) behaviour model) w fun _ g => g = gist w := by
  refine (emitData_goes mounted model).bind fun _ w₁ onward same => ?_
  refine goes_get ((emitPlain_goes (n := n + 3) (onward.mounted mounted) (.inr (.inl rfl))).mono ?_)
  exact fun _ g same' => same'.trans same

/-- The defaults replace what there was, and that is announced. -/
theorem fill_goes (mounted : Mounted w) {f : Model Code → Model Code} {config : Config}
    {now : Instant} (store : ∀ o, (f o).store = .ofPairs (defaults config now))
    (signals : ∀ o, (f o).propertyChanged = o.propertyChanged ∧
      (f o).dataChanged = o.dataChanged ∧ (f o).validityChanged = o.validityChanged) :
    Goes (do
      modify (updateModel model f)
      emitReloaded (runs (n + 5)) behaviour model
      return (.ok () : Except ModelError Unit)) w fun _ g => ∃ status, g = (gist w).renew status := by
  obtain ⟨onward, same⟩ := gist_replaced (w := w) store signals
  have filled : Goes (modify (updateModel model f)) w fun _ g =>
      g = (gist w).renew (.string config.status.ready) := goes_of_eq rfl onward same
  refine filled.bind fun _ w₁ onward same => ?_
  refine (emitReloaded_goes (onward.mounted mounted)).bind fun _ w₂ _ same' => ?_
  exact goes_pure ⟨_, same'.trans same⟩

theorem initializeModel_goes (mounted : Mounted w) :
    Goes (initializeModel (runs (n + 5)) behaviour model) w fun _ g =>
      if (w.model model).initialized then g = gist w
      else ∃ status, g = (gist w).renew status := by
  refine goes_get ?_
  obtain ⟨onward, same⟩ := onward_ticked w
  split
  · exact goes_pure rfl
  · next new =>
      refine goes_after (populate_eq w) onward (goes_get ?_)
      rw [if_neg (show ¬ ((ticked w).model model).initialized = true from new), ← same]
      exact fill_goes (onward.mounted mounted) (fun _ => rfl) fun _ => ⟨rfl, rfl, rfl⟩

theorem resetModel_goes (mounted : Mounted w) :
    Goes (resetModel (runs (n + 5)) behaviour model) w fun _ g =>
      ∃ status, g = (gist w).renew status := by
  obtain ⟨onward, same⟩ := onward_ticked w
  refine goes_after (populate_eq w) onward ?_
  rw [← same]
  exact fill_goes (onward.mounted mounted) (fun _ => rfl) fun _ => ⟨rfl, rfl, rfl⟩

/-! ## Settings -/

theorem loadSettings_goes (mounted : Mounted w) :
    Goes ((runs (n + 9)).client loadSettings) w fun _ g => ∃ texts, g = (gist w).setTexts texts := by
  refine goes_see ?_
  have other : Property.user ≠ Property.theme := by decide
  refine (set_goes (n := n + 3) mounted _ other).program ?_
  intro _ w₁ onward same
  have mounted₁ := onward.mounted mounted
  refine (setTheme_goes mounted₁ _).program fun _ w₂ onward themed => ?_
  refine goes_perform ((emitPlain_goes (n := n + 6) (onward.mounted mounted₁)
    (.inr (.inr (.inl rfl)))).mono fun _ g same' => ?_)
  have same : gist w₁ = gist w := same
  rw [same', ← same]
  rcases themed with ⟨-, refused⟩ | ⟨-, told⟩
  · exact ⟨[], refused⟩
  · exact told

/-! ## Requests -/

theorem inline_eq (w : Whole) :
    (gist w).inline = servesInline (modelDelivery w controller) w.thread := by
  show (!(w.controller controller).dispatcher.isSome || decide (w.thread = .presentation)) = _
  unfold modelDelivery
  cases (w.controller controller).dispatcher <;> simp [servesInline]

theorem wordless_iff (chores : ∀ t ∈ queue w, IsChore t) : Wordless w ↔ (gist w).Wordless := by
  constructor
  · intro wordless id view busy waits
    obtain ⟨t, member, told⟩ := List.mem_filterMap.mp waits
    have silent := wordless t member
    unfold Errand.ofTask? at told
    split at told
    · cases told
    · cases told
      exact silent
    · cases told
  · intro wordless t member
    have chore := chores t member
    cases chore with
    | data | complete => rfl
    | busy id view busy => exact wordless id view busy (List.mem_filterMap.mpr ⟨_, member, rfl⟩)

/-- If somebody hears of the busy flag, the controller is ready. -/
theorem Tied.ready_of_followers (tied : Tied w) (told : (gist w).frame.followers ≠ []) :
    isReady (w.controller controller) = true := by
  by_contra unready
  obtain ⟨⟨id, v⟩, member⟩ := List.exists_mem_of_ne_nil _ told
  exact (tied.loose (by simpa using unready)).mute id v (mem_followers.mp member)

/-- A fair request tells the view faithfully. -/
theorem request_goes (tied : Tied w) {r : Request} (fair : r.Fair w) :
    Goes ((runs (n + 9)).client r.program) w fun _ => (gist w).Faithful := by
  have mounted := tied.toMounted
  have renewed : (isReady (w.controller controller) = true → isBusy (properties w) = false) →
      ∀ g, (∃ status, g = (gist w).renew status) → (gist w).Faithful g := by
    rintro calm g ⟨status, rfl⟩
    exact Gist.renew_faithful status fun told => calm (tied.ready_of_followers told)
  cases r with
  | set name value =>
      by_cases theme : name = Property.theme
      · subst theme
        refine (setTheme_goes mounted value).program ?_
        rintro _ w₁ - (⟨-, same⟩ | ⟨-, texts, same⟩)
        · exact goes_done (same ▸ .refl _)
        · exact goes_done (same ▸ (Gist.setTexts_aloof texts _).faithful)
      · refine (set_goes (n := n + 3) mounted value theme).program fun _ w₁ _ same => goes_done ?_
        rw [same]
        unfold Gist.set
        split
        · exact (Gist.setStatus_aloof value _).faithful
        · split
          · next busy =>
              refine Gist.setBusy_faithful value fun _ inline => ?_
              exact (fair busy (inline_eq w ▸ inline)).imp_right (wordless_iff tied.chores).mp
          · exact .refl _
  | updateStatus message =>
      exact (updateStatus_goes (n := n + 3) mounted message).mono fun _ g same =>
        same ▸ (Gist.setStatus_aloof _ _).faithful
  | loadSettings =>
      refine (loadSettings_goes mounted).mono ?_
      rintro _ _ ⟨texts, rfl⟩
      exact (Gist.setTexts_aloof texts _).faithful
  | saveSettings =>
      exact (saveSettings_goes (n := n + 6) mounted).mono fun _ g same => same ▸ .refl _
  | fill =>
      refine (goes_perform (initializeModel_goes (n := n + 3) mounted)).program ?_
      intro _ w₁ _ filled
      refine goes_done ?_
      split at filled
      · exact filled ▸ .refl _
      · next new => exact renewed (fair (by simpa using new)) _ filled
  | refill =>
      refine (goes_perform (resetModel_goes (n := n + 3) mounted)).program fun _ w₁ _ filled => ?_
      exact goes_done (renewed fair _ filled)

/-! ## Setting up and starting -/

theorem initializeView_goes (mounted : Mounted w) (v : Nat) :
    Goes (runs (n + 2) (.action (.initializeView v))) w fun _ g => g = gist w := by
  refine holdingView_goes mounted v fun w₁ _ same => goes_get ?_
  split
  · exact goes_pure same
  · have asked : Goes ((runs (n + 1)).client (behaviour.viewSetup v)) w₁ fun _ g => g = gist w₁ :=
      goes_see (goes_done rfl)
    refine asked.bind fun r w₂ _ same₂ => ?_
    cases r with
    | error e => exact goes_pure (same₂.trans same)
    | ok =>
        have onward : Onward w₂ (updateView v (fun o => { o with initialized := true }) w₂) :=
          onward_updateView v (fun _ => ⟨rfl, rfl, rfl⟩) (fun _ => rfl) fun _ => rfl
        have enabled := blind_updateView w₂ v (fun o => { o with initialized := true }) (·.enabled)
          fun _ => rfl
        have unchanged : gist (updateView v (fun o => { o with initialized := true }) w₂) =
            gist w₂ := by
          refine onward.gist.trans ?_
          simp only [gist, enabled]
          rfl
        exact goes_of_eq rfl onward (unchanged.trans (same₂.trans same))

theorem giveUp_fares (tied : Tied w) (message : String) (cause : RoleError) :
    Fares ((runs (n + 3)).client (giveUp message cause)) w := by
  refine Fares.program ?_ fun _ w₁ _ tied₁ => fares_pure tied₁ _
  exact (reportError_goes tied.toMounted message).fares tied fun _ g same =>
    same ▸ (Gist.complain_aloof message _).faithful

theorem setUpController_fares (tied : Tied w) :
    Fares ((runs (n + 9)).client setUpController) w := by
  have initialized : Fares ((runs (n + 9)).client
      (.perform (Action.initializeController (σ := Code) (ε := State) controller))) w :=
    fares_perform (holdingController_fares tied fun w₁ _ =>
      initializeController_fares (n := n + 4))
  refine initialized.program fun r w₁ _ tied₁ => ?_
  cases r with
  | error e => exact giveUp_fares (n := n + 6) tied₁ _ _
  | ok =>
      have loaded : Fares ((runs (n + 9)).client loadSettings) w₁ := by
        refine (loadSettings_goes tied₁.toMounted).fares tied₁ ?_
        rintro _ _ ⟨texts, rfl⟩
        exact (Gist.setTexts_aloof texts _).faithful
      refine loaded.program fun _ w₂ _ tied₂ => ?_
      have told : Fares ((runs (n + 9)).client (updateStatus "Settings loaded")) w₂ :=
        (updateStatus_goes (n := n + 3) tied₂.toMounted _).fares tied₂ fun _ g same =>
          same ▸ (Gist.setStatus_aloof _ _).faithful
      exact told.program fun _ w₃ _ tied₃ => fares_pure tied₃ _

theorem setUpView_fares (tied : Tied w) (v : Nat) :
    Fares ((runs (n + 9)).client (setUpView v)) w := by
  have initialized : Fares ((runs (n + 9)).client
      (.perform (Action.initializeView (σ := Code) (ε := State) v))) w :=
    (goes_perform (initializeView_goes (n := n + 7) tied.toMounted v)).fares tied fun _ _ same =>
      same ▸ .refl _
  refine initialized.program fun r w₁ _ tied₁ => ?_
  cases r with
  | error e => exact giveUp_fares (n := n + 6) tied₁ _ _
  | ok => exact setUpController_fares tied₁

/-- Setting up is fair if the defaults are. -/
theorem setUp_fares (tied : Tied w) (fair : Request.fill.Fair w) :
    Fares ((runs (n + 9)).client setUp) w := by
  refine fares_see ?_
  split
  · exact giveUp_fares (n := n + 6) tied _ _
  · exact giveUp_fares (n := n + 6) tied _ _
  · next v _ _ =>
      have filled : Fares ((runs (n + 9)).client
          (.perform (Action.initializeModel (σ := Code) (ε := State) model))) w := by
        refine (goes_perform (initializeModel_goes (n := n + 3) tied.toMounted)).fares tied ?_
        intro _ g filled
        split at filled
        · exact filled ▸ .refl _
        · next new =>
            obtain ⟨status, rfl⟩ := filled
            exact Gist.renew_faithful status fun told =>
              fair (by simpa using new) (tied.ready_of_followers told)
      refine filled.program fun r w₁ _ tied₁ => ?_
      cases r with
      | error e => exact giveUp_fares (n := n + 6) tied₁ _ _
      | ok => exact setUpView_fares tied₁ v

theorem makeView_fares (tied : Tied w) (hasModel : Bool) :
    Fares ((runs (n + 1)).client (makeView hasModel)) w := by
  have made : ∀ v : Nat, Fares ((runs (n + 1)).client (change fun s =>
      { s with screens := s.screens.set v (.new hasModel), current := some v })) w := fun v => by
    have quiet : Goes ((runs (n + 1)).client (change fun s =>
        { s with screens := s.screens.set v (.new hasModel), current := some v })) w
        fun _ g => g = gist w :=
      change_quietly _ (fun _ => rfl) (fun _ => rfl) (fun _ => rfl) fun _ _ => rfl
    exact quiet.fares tied fun _ _ same => same ▸ .refl _
  exact (made _).program fun _ w₁ _ tied₁ => fares_pure tied₁ _

theorem start_fares (tied : Tied w) : Fares ((runs (n + 6)).client start) w := by
  have told : ∀ {w : Whole}, Tied w → ∀ text,
      Fares ((runs (n + 6)).client (updateStatus text)) w := fun tied text =>
    (updateStatus_goes tied.toMounted text).fares tied fun _ g same =>
      same ▸ (Gist.setStatus_aloof _ _).faithful
  have quiet : Goes ((runs (n + 6)).client (change fun s => { s with started := true })) w
      fun _ g => g = gist w :=
    change_quietly _ (fun _ => rfl) (fun _ => rfl) (fun _ => rfl) fun _ _ => rfl
  have started := quiet.fares tied fun _ _ same => same ▸ .refl _
  refine fares_see ?_
  split
  · exact fares_pure tied _
  · refine started.program fun _ w₁ _ tied₁ => (told tied₁ _).program fun _ w₂ _ tied₂ => ?_
    refine (told tied₂ _).program fun _ w₃ _ tied₃ => ?_
    exact (reportDone_goes (n := n + 3) tied₃.toMounted _).fares tied₃ fun _ g same =>
      same ▸ (Gist.confirm_aloof _ _).faithful

end Mvc.App
