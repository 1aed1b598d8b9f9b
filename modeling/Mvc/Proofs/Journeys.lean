import Mvc.Proofs.Mirrors

/-! # Journeys of the application

Between the parts of an application and a state that it comes to, views are made, set up and
bound, the application is set up, the user and other threads act, and the settings are written. On
every journey that binds nothing but what is set up, once the application is, the bound view shows
the model whenever no word waits in the dispatcher (`view_shows_model`).
-/

namespace Mvc.App

open Ensemble Proc

variable {w w₁ w' : Whole} {n : Nat}

/-! ## Setting up -/

theorem client_sustains {ρ : Type} {code : Program ρ} (allowed : code.All showing.Allow)
    (depth : Nat) : Keeps Sustains ((runs depth).client code) :=
  keeps_sustains fun v port => (attentive v port depth).client allowed

/-- A view is set up that knows the model. -/
theorem Current.setUpView (current : Current w) {v : Nat}
    (hasModel : (w.client.screens.get v).hasModel = true) :
    Current (updateView v (fun o => { o with initialized := true }) w) := by
  let known : View Code → View Code := fun o => { o with initialized := true }
  let w' : Whole := updateView v known w
  have signals : ∀ s, w'.signal s = w.signal s :=
    signal_updateView w v fun _ => ⟨rfl, rfl, rfl⟩
  have more : ∀ u, (w.view u).initialized = true → (w'.view u).initialized = true := by
    intro u set
    rw [view_updateView]
    split
    · rfl
    · exact set
  have manned : Manned w' := by
    refine ⟨⟨current.controllers, fun u => ?_⟩, current.sole, fun s => ?_, fun s => ?_,
      fun s id k named => ?_, current.sound, fun u set => ?_⟩
    · exact (blind_updateView w v known (·.held) (fun _ => rfl) u).trans (current.views u)
    · rw [signals, current.opened]
    · rw [signals, current.blocked]
    · rw [signals] at named
      exact fits_of_delivery rfl (current.fits s id k named)
    · rw [view_updateView] at set
      split at set
      · next same => exact same ▸ hasModel
      · exact current.informed u set
  have berthed : Berthed w' := by
    have intact := current.intact.updateView v (f := known) (fun _ => ⟨rfl, rfl, rfl⟩) fun _ => rfl
    refine ⟨manned, intact.1, current.bindings, fun u view => ?_, fun set u view => more u (current.ready set u view)⟩
    rw [blind_updateView w v known (·.attachment) fun _ => rfl]
    exact current.attached u view
  refine ⟨berthed, fun set bound u view => ?_⟩
  obtain ⟨port, shows, abreast⟩ := current.abreast set bound u view
  obtain ⟨d, entry, -⟩ := shows.hears
  refine ⟨port, berthed.shows_of_slot set view ?_, abreast⟩
  rw [slotAt, signals]
  exact Option.map_eq_some_iff.mpr ⟨_, entry, rfl⟩

theorem initializeView_ends (current : Current w) (v : Nat) :
    Ends (runs (n + 1) (.action (.initializeView v))) w fun r w' => Current w' ∧
      (∀ c, w'.controller c = w.controller c) ∧ (r = .ok () → (w'.view v).initialized = true) := by
  refine holdingView_ends v ?_
  have pinned : Current (pinView v w) :=
    (sustains_pins v (·.pins + 1) w).current current
  have done : ∀ {w₂} {r : Except ViewError Unit}, Current w₂ →
      (∀ c, w₂.controller c = w.controller c) → (r = .ok () → (w₂.view v).initialized = true) →
      Held w₂ ∧ Current (unpinView v w₂) ∧
        (∀ c, (unpinView v w₂).controller c = w.controller c) ∧
        (r = .ok () → ((unpinView v w₂).view v).initialized = true) := by
    intro w₂ r current₂ same set
    refine ⟨current₂.toHeld, (sustains_pins v (·.pins - 1) w₂).current current₂, same,
      fun ok => ?_⟩
    exact (blind_updateView w₂ v (fun o => { o with pins := o.pins - 1 }) (·.initialized)
      (fun _ => rfl) v).trans (set ok)
  refine .get_bind ?_
  split
  · next set => exact (ends_pure _ _ _).mpr (done pinned (fun _ => rfl) fun _ => set)
  · refine .bind_of_eq (show _ = some (if ((pinView v w).client.screens.get v).hasModel then .ok ()
      else .error (.initializationFailed "no application model"), pinView v w) from rfl) ?_
    split
    · next error failed => exact (ends_pure _ _ _).mpr (done pinned (fun _ => rfl) nofun)
    · next ok =>
        have hasModel : ((pinView v w).client.screens.get v).hasModel = true := by
          by_contra unknown
          simp [unknown] at ok
        refine .modify_bind ((ends_pure _ _ _).mpr (done (pinned.setUpView hasModel)
          (fun _ => rfl) fun _ => ?_))
        rw [view_updateView_self]

/-- The controller is set up with its view. -/
theorem Berthed.setUp (berthed : Berthed w) (ready : ∀ v, (w.controller controller).view = some v →
    (w.view v).initialized = true) :
    Berthed (updateController controller (fun o => { o with initialized := true }) w) := by
  have same := controller_updateController_self w controller fun o => { o with initialized := true }
  have relined : Relined w
      (updateController controller (fun o => { o with initialized := true }) w) :=
    .updateController controller (fun _ => ⟨rfl, rfl, rfl⟩) fun _ => ⟨rfl, rfl⟩
  refine ⟨relined.manned berthed.toManned, (berthed.intact.initialized controller fun _ => true).1,
    ?_, fun v view => ?_, fun _ v view => ?_⟩
  · rw [same]
    exact berthed.bindings
  · rw [same] at view
    exact berthed.attached v view
  · rw [same] at view
    exact ready v view

/-- The parts are set up: the application is current then, unless its controller was not set up
    before and its view closes. -/
def Readied (w w' : Whole) : Prop :=
  Berthed w' ∧ ((w.controller controller).initialized = true ∨
    (w'.controller controller).closing = false → Current w')

theorem Current.readied (current : Current w') : Readied w w' :=
  ⟨current.toBerthed, fun _ => current⟩

theorem Readied.sustain (readied : Readied w w₁) (sustains : Sustains w₁ w') : Readied w w' := by
  obtain ⟨still, keeps⟩ := sustains readied.1.toHeld
  refine ⟨still.berthed readied.1, fun fair =>
    keeps readied.1 (.inl (readied.2 (fair.imp_right fun opened => ?_)))⟩
  cases closing : (w₁.controller controller).closing with
  | false => rfl
  | true => rw [← opened, still.closing _ closing]

theorem initializeController_ends (current : Current w)
    (ready : ∀ v, (w.controller controller).view = some v → (w.view v).initialized = true) :
    Ends (runs (n + 2) (.action (.initializeController controller))) w fun r w' =>
      r = .ok () ∧ Readied w w' := by
  have pinned := sustains_holders controller (·.pins + 1) w
  refine holdingController_ends controller ?_
  obtain ⟨still, -⟩ := pinned current.toHeld
  have current₁ := pinned.current current
  have done : ∀ {w₂}, Readied w w₂ → Held w₂ ∧ (.ok () : Except ControllerError Unit) = .ok () ∧
      Readied w (holders controller (·.held) (·.pins - 1) w₂) := fun readied =>
    ⟨readied.1.toHeld, rfl, readied.sustain (sustains_holders controller _ _)⟩
  generalize holders controller (·.held) (·.pins + 1) w = w₁ at still current₁ ⊢
  refine .get_bind ?_
  split
  · exact (ends_pure _ _ _).mpr (done current₁.readied)
  · next unset =>
      have berthed := current₁.setUp fun v view => by
        rw [still.initialized]
        exact ready v ((still.of_controller (·.view) (fun _ => rfl) _).symm.trans view)
      have opening := announce_ends (n := n) berthed
      have same := controller_updateController_self w₁ controller
        fun o => { o with initialized := true }
      rw [same] at opening
      refine .bind_of_eq (show _ = some (.ok (), w₁) from rfl) (.modify_bind ?_)
      have whole : Ends (announce (runs (n + 1)) behaviour controller >>= fun _ =>
          (pure (.ok ()) : Proc Whole (Except ControllerError Unit)))
          (updateController controller (fun o => { o with initialized := true }) w₁) fun r w₂ =>
            Held w₂ ∧ r = .ok () ∧ Readied w (holders controller (·.held) (·.pins - 1) w₂) := by
        refine .bind (opening.mono fun _ w₂ announced => (ends_pure _ _ _).mpr (done ?_))
        refine ⟨announced.1, fun fair => announced.2.2 fun _ => ?_⟩
        rcases fair with set | opened
        · rw [← still.of_controller (·.initialized) fun _ => rfl] at set
          exact absurd set unset
        · cases closing : (w₁.controller controller).closing with
          | false => rfl
          | true => rw [← opened, announced.2.1 closing]
      unfold announce at whole
      rwa [bind_assoc] at whole

/-! ## Setting up all parts -/

/-- Set up the model, the bound view and the controller, and take nothing from the settings. -/
def setUpParts : Program (Except RoleError Unit) := do
  let c ← see fun w => w.controller controller
  match c.model, c.view with
  | none, _ => giveUp missingParts (.controller .noModel)
  | some _, none => giveUp missingParts (.controller .noView)
  | some _, some view =>
    match ← Program.perform (Action.initializeModel (σ := Code) (ε := State) model) with
    | .error e => giveUp "Failed to initialize application model" (.model e)
    | .ok () =>
      match ← Program.perform (Action.initializeView (σ := Code) (ε := State) view) with
      | .error e => giveUp "Failed to initialize main window" (.view e)
      | .ok () =>
        let result ← Program.perform
          (Action.initializeController (σ := Code) (ε := State) controller)
        match result with
        | .error e => giveUp "Failed to initialize application controller" (.controller e)
        | .ok () => return .ok ()

/-- Take user and theme from the settings once the parts are set up. -/
def takeSettings : Except RoleError Unit → Program (Except RoleError Unit)
  | .error e => return .error e
  | .ok () => do
    loadSettings
    updateStatus "Settings loaded"
    return .ok ()

theorem setUp_eq : setUp = setUpParts >>= takeSettings := by
  refine congrArg Program.look (funext fun w => ?_)
  dsimp only [see, Program.see, bind, Program.bind]
  cases (w.controller controller).model with
  | none => rfl
  | some _ =>
      cases (w.controller controller).view with
      | none => rfl
      | some view =>
          refine congrArg (Program.act _) (funext fun r => ?_)
          cases r with
          | error e => rfl
          | ok =>
              refine congrArg (Program.act _) (funext fun r => ?_)
              cases r with
              | error e => rfl
              | ok =>
                  refine congrArg (Program.act _) (funext fun r => ?_)
                  cases r <;> rfl

theorem giveUp_sustains (message : String) (cause : RoleError) :
    Keeps Sustains ((runs n).client (giveUp message cause)) := by
  refine client_sustains ?_ n
  exact .bind (reportError_allowed _) fun _ => trivial

theorem takeSettings_sustains (r : Except RoleError Unit) :
    Keeps Sustains ((runs n).client (takeSettings r)) := by
  refine client_sustains ?_ n
  cases r with
  | error e => trivial
  | ok =>
      unfold takeSettings
      refine .bind (loadSettings_allowed trivial trivial) fun _ => ?_
      exact .bind (updateStatus_allowed showing_lax _) fun _ => trivial

theorem setUpParts_ends (current : Current w) :
    Ends ((runs (n + 3)).client setUpParts) w fun r w' =>
      Readied w w' ∧ (r ≠ .ok () → Current w') := by
  have gaveUp : ∀ {w₁}, Current w₁ → ∀ message cause,
      Ends ((runs (n + 3)).client (giveUp message cause)) w₁ fun r w' =>
        Readied w w' ∧ (r ≠ .ok () → Current w') := by
    intro w₁ current₁ message cause
    refine (giveUp_sustains message cause w₁).mono fun r w' sustains => ?_
    exact ⟨(sustains.current current₁).readied, fun _ => sustains.current current₁⟩
  refine ends_see ?_
  split
  · exact gaveUp current _ _
  · exact gaveUp current _ _
  · next view _ bound =>
      have filled := (deals_sustains (n + 3)).fill
      refine ends_program (ends_perform ((filled w).mono fun r w₁ sustains => ?_))
      obtain ⟨still, -⟩ := sustains current.toHeld
      have current₁ := sustains.current current
      cases r with
      | error e => exact gaveUp current₁ _ _
      | ok =>
          refine ends_program (ends_perform
            ((initializeView_ends (n := n + 2) current₁ view).mono fun r w₂ => ?_))
          rintro ⟨current₂, same, set⟩
          cases r with
          | error e => exact gaveUp current₂ _ _
          | ok =>
              have ready : ∀ v, (w₂.controller controller).view = some v →
                  (w₂.view v).initialized = true := by
                intro v bound₂
                rw [same, still.of_controller (·.view) fun _ => rfl, bound] at bound₂
                cases bound₂
                exact set rfl
              refine ends_program (ends_perform
                ((initializeController_ends (n := n + 1) current₂ ready).mono fun r w₃ => ?_))
              rintro ⟨rfl, readied⟩
              have first : (w₂.controller controller).initialized =
                  (w.controller controller).initialized := by
                rw [same, still.of_controller (·.initialized) fun _ => rfl]
              exact (ends_pure _ _ _).mpr
                ⟨⟨readied.1, first ▸ readied.2⟩, fun failed => absurd rfl failed⟩

/-- The controller was set up for the first time while its view closed, and the model has not
    changed since. It has if the clock goes on, for setting up ends with a status line. -/
structure Overlooked (w w' : Whole) : Prop where
  first : (w.controller controller).initialized = false
  closing : (w'.controller controller).closing = true
  unchanged : ∃ depth w₁, (runs depth).client setUpParts w = some (.ok (), w₁) ∧
    properties w' = properties w₁

theorem setUp_ends (current : Current w) :
    Ends ((runs (n + 3)).client App.setUp) w fun _ w' => ¬Overlooked w w' → Current w' := by
  intro r w' ran told
  rw [setUp_eq] at ran
  unfold Runner.client at ran
  rw [Program.run_bind] at ran
  obtain ⟨r₁, w₁, parts, taken⟩ := bind_eq_some.mp ran
  obtain ⟨readied, failed⟩ := setUpParts_ends current r₁ w₁ parts
  have sustains := takeSettings_sustains r₁ w₁ r w' taken
  have later := readied.sustain sustains
  cases r₁ with
  | error e => exact sustains.current (failed nofun)
  | ok =>
      cases set : (w.controller controller).initialized with
      | true => exact later.2 (.inl set)
      | false =>
          cases closing : (w'.controller controller).closing with
          | false => exact later.2 (.inr closing)
          | true =>
              refine (sustains readied.1.toHeld).2 readied.1 (.inr fun unchanged => told ?_)
              exact ⟨set, closing, n + 3, w₁, parts, unchanged⟩

/-! ## Steps -/

/-- A step of a journey. -/
inductive Step where
  | deed (d : Deed)
  /-- Set up a view. -/
  | prepare (view : Nat)
  /-- Trigger a user action on the current view. -/
  | trigger (name payload : String)
  /-- Write a setting. -/
  | configure (key : String) (value : Value)

/-- How a step is taken; it tells which pieces are left to the worker. -/
def Step.perform (depth : Nat) : Step → Option (List Piece) → Proc Whole (Option (List Piece))
  | deed d, left => d.perform depth left
  | prepare view, left => do
    let _ ← (runs depth).client (.perform (Action.initializeView view))
    return left
  | trigger name payload, left => do
    (runs depth).client (.perform (Action.perform (.trigger name payload)))
    return left
  | configure key value, left => do
    (runs depth).client (changeService fun s => s.set key value)
    return left

/-- A step is taken. -/
def Stepped (s : Step) (m m' : Moment) : Prop :=
  ∃ depth, s.perform depth m.left m.whole = some (m'.left, m'.whole)

theorem Step.perform_mono {depth depth' : Nat} (le : depth ≤ depth') (s : Step)
    (left : Option (List Piece)) :
    Tracks Anyhow (s.perform depth left) (s.perform depth' left) := by
  cases s with
  | deed d => exact d.perform_mono le left
  | prepare | trigger | configure =>
      have covers : Covers (runs depth) (runs depth') := run_mono le
      exact .bind anyhow_composes (covers.client _) fun _ => .pure anyhow_composes left

/-- Once the controller is set up, its model stays bound, and only views are bound that are set up;
    a view that is made is none of them. -/
def Step.Admitted (w w' : Whole) : Step → Prop
  | deed (.arrange (.makeView _)) =>
    (w.view w.client.screens.members.length).initialized = false
  | deed (.arrange (.bindView (some v))) =>
    (w.controller controller).initialized = true → (w.view v).initialized = true
  | deed (.arrange (.bindModel bound)) => (w.controller controller).initialized = true →
    (w.controller controller).model = if bound then some model else none
  | deed (.arrange .assemble) => (w.controller controller).initialized = true →
    (w.controller controller).model = some model
  | deed (.arrange .setUp) => ¬Overlooked w w'
  | _ => True

/-- Steps were taken one after another. -/
inductive Journey (w : Whole) : List Step → Moment → Prop
  | begins : Journey w [] ⟨w, none⟩
  | step {steps : List Step} {m m' : Moment} (s : Step) (before : Journey w steps m)
      (stepped : Stepped s m m') (admitted : s.Admitted m.whole m'.whole) :
      Journey w (steps ++ [s]) m'

/-! ## What steps keep -/

variable {m m' : Moment} {steps : List Step}

theorem fresh_parts (config : Config) (service : Service) (files : Files) (hasDispatcher : Bool)
    (clock : Instant) : Fresh (parts config service files hasDispatcher clock) :=
  let dispatched : Controller Code → Controller Code := fun c =>
    { c with dispatcher := if hasDispatcher then some dispatcher else none }
  (fresh_new _).redirect controller (f := dispatched) fun _ => rfl

theorem arrangement_ends (current : Current w) (a : Arrangement) :
    Ends ((runs (n + 3)).client a.program) w fun _ w' =>
      (Step.deed (.arrange a)).Admitted w w' → Current w' := by
  have concluded : ∀ {α : Type} {p : Program α} {w₁ : Whole} {post : Whole → Prop},
      Ends ((runs (n + 3)).client p) w₁ (fun _ w' => post w') →
      Ends ((runs (n + 3)).client (do let _ ← p)) w₁ fun _ w' => post w' := fun ends =>
    ends_program (ends.mono fun _ _ holds => (ends_pure _ _ _).mpr holds)
  cases a with
  | listen s =>
      refine concluded ((connect_ends (n := n + 2) current ?_).mono fun _ _ current' _ => current')
      exact ⟨rfl, rfl⟩
  | makeView hasModel =>
      refine concluded fun r w' ran new => ?_
      exact makeView_ends (n := n + 2) current hasModel new r w' ran
  | bindView v =>
      intro r w' ran admitted
      refine bind_ends (n := n + 1) current (v := v) (fun set u bound => ?_) r w' ran
      subst bound
      exact admitted set
  | bindModel bound =>
      intro r w' ran admitted
      exact bindModel_ends (n := n + 1) current admitted r w' ran
  | assemble =>
      intro r w' ran admitted
      have bound := bindModel_ends (n := n + 1) current (m := some model) admitted
      have assembled : Ends ((runs (n + 3)).client assemble) w fun _ w' => Current w' := by
        refine ends_program (bound.mono fun _ w₁ current₁ => concluded ?_)
        exact connect_ends (n := n + 2) current₁ ⟨rfl, rfl⟩
      exact assembled r w' ran
  | setUp => exact concluded (setUp_ends current)
  | start =>
      have started : start.All showing.Allow := start_allowed showing_lax showing_free
      exact (client_sustains started (n + 3) w).mono fun _ _ sustains _ => sustains.current current

theorem current_parts (config : Config) (service : Service) (files : Files) (hasDispatcher : Bool)
    (clock : Instant) : Current (parts config service files hasDispatcher clock) := by
  have fresh := fresh_parts config service files hasDispatcher clock
  have own : (parts config service files hasDispatcher clock).controller controller =
      { (default : Controller Code) with
        dispatcher := if hasDispatcher then some dispatcher else none } :=
    controller_updateController_self _ _ _
  have manned : Manned (parts config service files hasDispatcher clock) := by
    refine ⟨⟨fun c => (fresh.controllers c).1, fun v => rfl⟩, fun d other => ?_, fun s => ?_,
      fun s => ?_, fun s id k named => ?_, fun v => rfl, nofun⟩
    · rw [own] at other
      cases hasDispatcher with
      | true => exact (Option.some.inj other).symm
      | false => cases other
    · rw [fresh.signals]
      rfl
    · rw [fresh.signals]
      rfl
    · rw [fresh.signals] at named
      cases named
  refine ⟨⟨manned, fresh.intact, fun line member => ?_, fun v bound => ?_, fun set => ?_⟩,
    fun set => ?_⟩
  · rw [(fresh.controllers controller).2.2.1] at member
    cases member
  · rw [own] at bound
    cases bound
  · rw [own] at set
    cases set
  · rw [own] at set
    cases set

/-- What is admitted leaves the application current. -/
theorem Current.step (current : Current m.whole) {s : Step} (stepped : Stepped s m m')
    (admitted : s.Admitted m.whole m'.whole) : Current m'.whole := by
  obtain ⟨depth, ran⟩ := stepped
  have deeper := (s.perform_mono (Nat.le_add_right depth 3) m.left _ _ _ ran).1
  have deals := deals_sustains (depth + 3)
  have order := sustains_composes
  have sustained : ∀ {p : Proc Whole (Option (List Piece))}, Keeps Sustains p →
      p m.whole = some (m'.left, m'.whole) → Current m'.whole := fun keeps ran =>
    (keeps _ _ _ ran).current current
  cases s with
  | deed d =>
      cases d with
      | turn t => exact sustained (deals.turn showing_lax trivial t m.left) deeper
      | ask thread r =>
          have asked := deals.ask showing_lax (fun _ => trivial) thread r
            (fun _ => saveSettings_allowed showing_free) m.left
          exact sustained asked deeper
      | arrange a =>
          have arranged : Ends ((Step.deed (.arrange a)).perform (depth + 3) m.left) m.whole
              fun _ w' => (Step.deed (.arrange a)).Admitted m.whole w' → Current w' :=
            .bind ((arrangement_ends current a).mono fun _ _ holds => (ends_pure _ _ _).mpr holds)
          exact arranged _ _ deeper admitted
  | prepare view =>
      have prepared : Ends ((Step.prepare view).perform (depth + 3) m.left) m.whole fun _ w' =>
          Current w' :=
        .bind (ends_perform ((initializeView_ends (n := depth + 2) current view).mono
          fun _ _ holds => (ends_pure _ _ _).mpr holds.1))
      exact prepared _ _ deeper
  | trigger name payload =>
      have triggered := deals.program
        (show (Program.perform (Action.perform (.trigger name payload))).All showing.Allow from
          ⟨trivial, fun _ => trivial⟩)
      exact sustained (.bind order triggered fun _ => .pure order m.left) deeper
  | configure key value =>
      have configured := deals.program
        (show (changeService fun s => s.set key value).All showing.Allow from
          change_allowed (showing_changes fun _ => rfl))
      exact sustained (.bind order configured fun _ => .pure order m.left) deeper

theorem Journey.current (journey : Journey w steps m) (current : Current w) : Current m.whole := by
  induction journey with
  | begins => exact current
  | step s before stepped admitted ih => exact ih.step stepped admitted

/-- Once everything is set up and no word waits, the bound view shows what the model knows. -/
theorem view_shows_model {config : Config} {service : Service} {files : Files}
    {hasDispatcher : Bool} {clock : Instant} {v : Nat}
    (journey : Journey (parts config service files hasDispatcher clock) steps m)
    (set : (m.whole.controller controller).initialized = true)
    (bound : (m.whole.controller controller).model = some model)
    (view : (m.whole.controller controller).view = some v) (drained : queue m.whole = []) :
    (m.whole.client.screens.get v).shown = some (Panel.ofStore (properties m.whole)) := by
  have current := journey.current (current_parts config service files hasDispatcher clock)
  obtain ⟨port, -, fresh | waits⟩ := current.abreast set bound v view
  · exact fresh
  · rw [drained] at waits
    cases waits

/-! ## In a small application -/

section Small

/-- The step is admitted, and seen to be. -/
def Step.Plain (w w' : Whole) : Step → Prop
  | deed (.arrange .setUp) => (w'.controller controller).closing = false
  | s => s.Admitted w w'

theorem Step.Plain.admitted {s : Step} (plain : s.Plain w w') : s.Admitted w w' := by
  unfold Plain at plain
  split at plain
  · intro overlooked
    cases plain.symm.trans overlooked.closing
  · exact plain

instance (w w' : Whole) : (s : Step) → Decidable (s.Plain w w')
  | .deed (.arrange (.makeView _)) =>
    inferInstanceAs (Decidable ((w.view w.client.screens.members.length).initialized = false))
  | .deed (.arrange (.bindView (some v))) =>
    inferInstanceAs (Decidable ((w.controller controller).initialized = true →
      (w.view v).initialized = true))
  | .deed (.arrange (.bindModel bound)) =>
    inferInstanceAs (Decidable ((w.controller controller).initialized = true →
      (w.controller controller).model = if bound then some model else none))
  | .deed (.arrange .assemble) =>
    inferInstanceAs (Decidable ((w.controller controller).initialized = true →
      (w.controller controller).model = some model))
  | .deed (.arrange .setUp) =>
    inferInstanceAs (Decidable ((w'.controller controller).closing = false))
  | .deed (.turn _) | .deed (.ask ..) | .deed (.arrange (.listen _))
  | .deed (.arrange (.bindView none)) | .deed (.arrange .start) | .prepare _ | .trigger ..
  | .configure .. => inferInstanceAs (Decidable True)

/-- What steps come to, if each is admitted and no call nests too deep. -/
def walk : List Step → Moment → Option Moment
  | [], m => some m
  | s :: rest, m =>
    match s.perform 30 m.left m.whole with
    | some (left, whole) => if s.Plain m.whole whole then walk rest ⟨whole, left⟩ else none
    | none => none

theorem Journey.walk {rest : List Step} (before : Journey w steps m)
    (walked : walk rest m = some m') : Journey w (steps ++ rest) m' := by
  induction rest generalizing steps m with
  | nil =>
      cases walked
      rw [List.append_nil]
      exact before
  | cons s rest ih =>
      unfold App.walk at walked
      split at walked
      · next left whole taken =>
          split at walked
          · next plain =>
              have through := ih (before.step s ⟨30, taken⟩ plain.admitted) walked
              rwa [List.append_assoc] at through
          · cases walked
      · cases walked

/-- A journey of which it is checked where it leads. -/
theorem journey_of_check {P : Moment → Prop} [DecidablePred P]
    (checked : (walk steps ⟨w, none⟩).any (fun m => P m) = true) :
    ∃ m, Journey w steps m ∧ P m := by
  cases walked : walk steps ⟨w, none⟩ with
  | none =>
      rw [walked] at checked
      cases checked
  | some m =>
      rw [walked] at checked
      exact ⟨m, Journey.begins.walk walked, of_decide_eq_true checked⟩

/-- A second view is bound while the first one closes, and the theme is changed in the background
    while the second one does. -/
def changingViews : List Step :=
  settingUp.map .deed ++ [.deed (.arrange .start), .deed (.turn (.act "new" .null)),
    .deed (.turn .work), .deed (.turn (.close 0)), .deed (.arrange (.makeView true)), .prepare 1,
    .deed (.arrange (.bindView (some 1))), .deed (.turn .wait), .deed (.turn (.close 1)),
    .deed (.ask .background (.set Property.theme (.string "dark"))), .deed (.turn .drain)]

/-- The second view shows the new theme. -/
theorem second_view_shows_theme : ∃ m, Journey someParts changingViews m ∧
    (m.whole.controller controller).initialized = true ∧
    (m.whole.controller controller).model = some model ∧
    (m.whole.controller controller).view = some 1 ∧
    (m.whole.controller controller).closing = true ∧ queue m.whole = [] ∧
    textOf (properties m.whole) Property.theme = "dark" ∧
    (m.whole.client.screens.get 1).shown = some (Panel.ofStore (properties m.whole)) := by
  have found : ∃ m, Journey someParts changingViews m ∧
      (m.whole.controller controller).initialized = true ∧
      (m.whole.controller controller).model = some model ∧
      (m.whole.controller controller).view = some 1 ∧
      (m.whole.controller controller).closing = true ∧ (queue m.whole).isEmpty = true ∧
      textOf (properties m.whole) Property.theme = "dark" :=
    journey_of_check (by decide +kernel)
  obtain ⟨m, journey, set, bound, view, closing, drained, dark⟩ := found
  exact ⟨m, journey, set, bound, view, closing, List.isEmpty_iff.mp drained, dark,
    view_shows_model journey set bound view (List.isEmpty_iff.mp drained)⟩

end Small

end Mvc.App
