import Mvc.Proofs.Exclusion
import Mvc.Proofs.Themes

/-! # Refused operations

An operation is refused while another is in flight, and else if the worker was stopped. The first
refusal is the report of an error and nothing else: whoever listens to errors writes it down, views
print it, and all the rest stays as it is (`Told`). The second one comes when the status line is
written already, and nobody takes that back. So it leaves a trace there and in the time, though in
no other property.
-/

namespace Mvc.App

open Ensemble Proc

variable {run : Runner Code State} {p : Proc Whole Unit} {n depth : Nat}
  {entries more : List Entry} {name : String} {data : Value} {operation : Operation}
  {m : Moment} {w w₁ w' : Whole}

/-! ## What is only told -/

/-- Some entries were written to the journal, and screens may show something else. All else of the
    application's own state, the models, and what waits in the dispatchers, is the same. -/
structure Told (entries : List Entry) (w w' : Whole) : Prop where
  model : ∀ m, w'.model m = w.model m
  dispatcher : ∀ d, w'.dispatcher d = w.dispatcher d
  client : ∃ screens, w'.client = { w.client with screens, journal := w.client.journal ++ entries }

namespace Told

theorem refl (w : Whole) : Told [] w w :=
  ⟨fun _ => rfl, fun _ => rfl, w.client.screens, by rw [List.append_nil]⟩

theorem trans (first : Told entries w w₁) (second : Told more w₁ w') :
    Told (entries ++ more) w w' := by
  obtain ⟨_, here⟩ := first.client
  obtain ⟨screens, later⟩ := second.client
  refine ⟨fun m => (second.model m).trans (first.model m),
    fun d => (second.dispatcher d).trans (first.dispatcher d), screens, ?_⟩
  rw [later, here, List.append_assoc]

end Told

/-- The procedure comes to an end, and all it does is to tell. -/
def Tells (p : Proc Whole Unit) (w : Whole) (entries : List Entry) : Prop :=
  Reaches p w fun _ w' => Onward w w' ∧ Told entries w w'

theorem change_tells (f : State → State) (config : (f w.client).config = w.client.config)
    (only : ∃ screens, f w.client =
      { w.client with screens, journal := w.client.journal ++ entries }) :
    Tells ((runs (n + 1)).client (change f)) w entries :=
  reaches_of_eq rfl ⟨onward_change f config, fun _ => rfl, fun _ => rfl, only⟩

theorem note_tells (e : Entry) : Tells ((runs (n + 1)).client (note e)) w [e] :=
  change_tells _ rfl ⟨w.client.screens, rfl⟩

theorem print_tells (v : Nat) (p : Printed) : Tells ((runs (n + 1)).client (print v p)) w [] :=
  change_tells _ rfl ⟨_, by rw [List.append_nil]⟩

/-- It does not matter that the controller is held. -/
theorem holdingController_tells (mounted : Mounted w)
    (inner : Tells p (holders controller (·.held) (·.pins + 1) w) entries) :
    Tells (holdingController run controller p) w entries := by
  refine holdingController_onward mounted (Reaches.mono inner ?_)
  rintro _ w₂ ⟨onward, told⟩
  exact ⟨onward, told.model, told.dispatcher, told.client⟩

theorem ifViewAlive_tells (mounted : Mounted w) (v : Nat)
    (inner : Tells p (pinView v w) entries) : Tells (ifViewAlive run v p) w entries := by
  refine reaches_get ?_
  rw [if_pos (by simp [isViewAlive, mounted.views])]
  refine holdingView_onward mounted v (Reaches.mono inner ?_)
  rintro _ w₂ ⟨onward, told⟩
  exact ⟨onward, told.model, told.dispatcher, told.client⟩

/-- An emission tells what its slots tell. -/
theorem emit_tells {s : SignalRef} {notice : Notice} (tell : Connection (Slot Code) → List Entry)
    (mounted : Mounted w)
    (served : ∀ id k, Fits w s k → ∀ w₁, Mounted w₁ →
      Tells (deliver run s notice id k) w₁ (tell k)) :
    Tells (Ensemble.emit run s notice) w ((w.signal s).connections.flatMap fun e => tell e.2) := by
  refine emit_onward (fun e => Told (tell e.2)) (fun l => Told (l.flatMap fun e => tell e.2))
    mounted .refl ?_ fun id k fits w₁ mounted₁ _ => served id k fits w₁ mounted₁
  intro e rest w w₁ w' here later
  rw [List.flatMap_cons]
  exact here.trans later

/-! ## Errors -/

/-- How an error is written down. -/
def errorEntry (message : String) : Entry := .heard (.controllerError controller) (.text message)

/-- What the journal has of one error: an entry for everybody who listens to errors. -/
def errorEntries (f : Frame) (message : String) : List Entry :=
  List.replicate (f.ears (.controllerError controller)) (errorEntry message)

theorem flatMap_if {α β : Type} (p : α → Bool) (b : β) (l : List α) :
    (l.flatMap fun a => if p a then [b] else []) = List.replicate (l.countP p) b := by
  induction l with
  | nil => rfl
  | cons a rest ih =>
      rw [List.flatMap_cons, ih, List.countP_cons]
      cases p a <;> simp [List.replicate_succ]

/-- To report an error is to tell it once to everybody who listens to errors. -/
theorem emitError_tells (mounted : Mounted w) (message : String) :
    Tells (Ensemble.reportError (runs (n + 2)) controller message) w
      (errorEntries (frame w) message) := by
  unfold errorEntries frame
  rw [← flatMap_if]
  refine emit_tells (fun k => if isListener k then [errorEntry message] else []) mounted ?_
  rintro id ⟨slot, delivery⟩ fits w₁ mounted₁
  cases slot with
  | viewError v =>
      obtain ⟨-, rfl⟩ := fits
      exact ifViewAlive_tells mounted₁ v (print_tells v _)
  | client code =>
      cases code with
      | listen t =>
          obtain ⟨rfl, rfl⟩ := fits
          exact note_tells _
      | _ => simp [Fits, Channel.busy, Channel.theme] at fits
  | _ => simp [Fits] at fits

theorem reportError_tells (mounted : Mounted w) (message : String) :
    Tells ((runs (n + 3)).client (reportError message)) w (errorEntries (frame w) message) := by
  unfold Runner.client reportError
  rw [Program.run_perform]
  refine holdingController_tells mounted ?_
  rw [← (onward_holders (·.pins + 1) w).frame]
  exact emitError_tells ((onward_holders _ w).mounted mounted) message

/-! ## Asking for an operation -/

theorem client_see {ρ τ : Type} (f : Whole → ρ) (p : ρ → Program τ) (w : Whole) :
    run.client (see f >>= p) w = run.client (p (f w)) w := rfl

/-- When the controller takes user actions, one that stands for an operation has it done. -/
theorem handleAction_eq (serves : (w.controller controller).phase = .initialized)
    (asks : Operation.ofAction? w.client.config.work name data = some operation) :
    handleAction (runs depth) behaviour controller name data w =
      (runs depth).client (App.run operation) w := by
  have handled : (runs depth).client (handles name data) w =
      ((runs depth).client (App.run operation) >>= fun _ => pure true) w := by
    rw [handles, client_see, asks]
    unfold Runner.client
    rw [Program.run_bind]
    rfl
  unfold handleAction
  rw [get_bind, if_neg (not_not.mpr serves)]
  calc ((runs depth).client (handles name data) >>= _) w
      = (((runs depth).client (App.run operation) >>= fun _ => pure true) >>= _) w :=
        congrArg (Option.bind · _) handled
    _ = ((runs depth).client (App.run operation) >>= fun _ => pure ()) w := by
        rw [bind_assoc]
        rfl
    _ = (runs depth).client (App.run operation) w := by rw [bind_pure_unit]

/-- Meanwhile the controller is held. -/
theorem asked_eq (serves : (w.controller controller).phase = .initialized)
    (asks : Operation.ofAction? w.client.config.work name data = some operation) :
    runs (depth + 1) (.action (.handleAction controller name data)) w =
      holdingController (runs depth) controller ((runs depth).client (App.run operation)) w := by
  have phase : ((holders controller (·.held) (·.pins + 1) w).controller controller).phase =
      (w.controller controller).phase :=
    blind_holders w controller _ _ Controller.phase (fun _ _ _ => rfl) controller
  exact congrArg (Option.bind · _) (handleAction_eq (phase.trans serves) asks)

/-! ## While another operation is in flight -/

theorem run_tells (mounted : Mounted w) (operation : Operation)
    (inFlight : w.client.inFlight = true) :
    Tells ((runs (n + 3)).client (App.run operation)) w
      (errorEntries (frame w) operationInProgress) := by
  have other : (runs (n + 3)).client (App.run operation) w =
      (runs (n + 3)).client (reportError operationInProgress) w := by
    rw [App.run, client_see, if_pos inFlight]
  unfold Tells Reaches
  rw [other]
  exact reportError_tells mounted _

/-! ## When the worker was stopped -/

theorem Gist.run_stopped {g : Gist} (operation : Operation) (inFlight : g.inFlight = false)
    (stopped : g.worker.accepts = false) :
    (g.run operation).errors = g.errors ++
        List.replicate (g.frame.ears (.controllerError controller)) workerStopped ∧
      (g.run operation).status = .string operation.started ∧ (g.run operation).busy = g.busy ∧
      (g.run operation).inFlight = false ∧ (g.run operation).worker = g.worker := by
  unfold Gist.run Gist.setStatus
  rw [if_neg (by simp [inFlight])]
  split
  · next same => simp [stopped, Gist.complain, same]
  · simp [stopped, Gist.complain, Gist.announceStatus]

/-- An operation that comes to nothing has told its status line and the time, and nobody minds. -/
theorem run_spares (other : name ∉ indicators) (value : Value) :
    Keeps (Minds fun w => (properties w).get name = value)
      (holdingController (runs depth) controller ((runs depth).client (App.run operation))) := by
  have spares := sparing_property other value
  have ran := spares.client depth (run_allowed spares.lax operation)
  exact (spares.onlooker (spares.careful depth)).holdingController controller ran

/-! ## Refusals -/

/-- What a user action comes to. -/
def Asked (name : String) (data : Value) (w w' : Whole) : Prop :=
  ∃ depth, runs depth (.action (.handleAction controller name data)) w = some ((), w')

theorem asked_unique (first : Asked name data w w₁) (second : Asked name data w w') : w₁ = w' := by
  have mono : ∀ {depth depth' : Nat}, depth ≤ depth' → Tracks Anyhow
      (runs depth (.action (.handleAction controller name data)))
      (runs depth' (.action (.handleAction controller name data))) := fun le => run_mono le _
  exact congrArg Prod.snd (outcome_unique mono first second)

/-- An operation came when the worker was stopped: everybody who listens to errors hears one, the
    status line is that of the operation, and no property is different but it and its time. -/
structure TooLate (operation : Operation) (w w' : Whole) : Prop where
  error : heard (.controllerError controller) w' = heard (.controllerError controller) w ++
    List.replicate ((frame w).ears (.controllerError controller)) workerStopped
  inFlight : w'.client.inFlight = false
  worker : w'.client.worker = w.client.worker
  status : (properties w').get Property.status = .string operation.started
  others : ∀ name, name ≠ Property.status → name ≠ Property.updated →
    (properties w').get name = (properties w).get name

/-- How an operation is refused. -/
structure Refused (operation : Operation) (w w' : Whole) : Prop where
  /-- While another one is in flight, all that comes of it is an error. -/
  busy : w.client.inFlight = true → Told (errorEntries (frame w) operationInProgress) w w'
  stopped : w.client.inFlight = false → TooLate operation w w'

theorem asked_busy (mounted : Mounted w)
    (serves : (w.controller controller).phase = .initialized)
    (asks : Operation.ofAction? w.client.config.work name data = some operation)
    (inFlight : w.client.inFlight = true) :
    ∃ w', Asked name data w w' ∧ Told (errorEntries (frame w) operationInProgress) w w' := by
  have onward := onward_holders (·.pins + 1) w
  have ran : Tells (holdingController (runs 3) controller ((runs 3).client (App.run operation))) w
      (errorEntries (frame w) operationInProgress) := by
    refine holdingController_tells mounted ?_
    rw [← onward.frame]
    exact run_tells (n := 0) (onward.mounted mounted) operation inFlight
  obtain ⟨_, w', ended, -, told⟩ := ran
  exact ⟨w', ⟨4, (asked_eq serves asks).trans ended⟩, told⟩

theorem asked_late (mounted : Mounted w) (held : Held w)
    (serves : (w.controller controller).phase = .initialized)
    (asks : Operation.ofAction? w.client.config.work name data = some operation)
    (inFlight : w.client.inFlight = false) (stopped : w.client.worker.accepts = false) :
    ∃ w', Asked name data w w' ∧ TooLate operation w w' := by
  have ran : Goes (holdingController (runs 6) controller ((runs 6).client (App.run operation))) w
      fun _ g => g = (gist w).run operation :=
    holdingController_goes mounted fun w₁ onward same =>
      same ▸ run_goes (n := 0) (onward.mounted mounted) operation
  obtain ⟨_, w', ended, -, after⟩ := ran
  obtain ⟨errors, status, busy, free, worker⟩ :=
    Gist.run_stopped (g := gist w) operation inFlight stopped
  rw [← after] at errors status busy free worker
  refine ⟨w', ⟨7, (asked_eq serves asks).trans ended⟩, errors, free, worker, status, ?_⟩
  intro name notStatus notUpdated
  by_cases same : name = Property.busy
  · exact same ▸ busy
  · have other : name ∉ indicators := by simp [indicators, notStatus, notUpdated, same]
    exact ((run_spares other _ w _ _ ended held).2 rfl)

/-- Whatever happened to the application, a document action that is refused comes to an end, and
    it is refused as said. -/
theorem operation_refused (life : Life m) (thread : Thread)
    (serves : (m.whole.controller controller).phase = .initialized)
    (asks : Operation.ofAction? m.whole.client.config.work name data = some operation)
    (refuses : m.whole.client.inFlight = true ∨ m.whole.client.worker.accepts = false) :
    ∃ w', Asked name data { m.whole with thread } w' ∧
      Refused operation { m.whole with thread } w' ∧
      ∀ w'', Asked name data { m.whole with thread } w'' → w'' = w' := by
  have mounted := life.sound.toMounted.onThread thread
  have held : Held { m.whole with thread } :=
    ⟨life.sound.handles.controllers, life.sound.handles.views⟩
  cases inFlight : m.whole.client.inFlight with
  | true =>
      obtain ⟨w', asked, told⟩ := asked_busy mounted serves asks inFlight
      exact ⟨w', asked, ⟨fun _ => told, fun free => absurd (inFlight.symm.trans free) nofun⟩,
        fun _ again => asked_unique again asked⟩
  | false =>
      have stopped := refuses.resolve_left (by simp [inFlight])
      obtain ⟨w', asked, late⟩ := asked_late mounted held serves asks inFlight stopped
      exact ⟨w', asked, ⟨fun busy => absurd (inFlight.symm.trans busy) nofun, fun _ => late⟩,
        fun _ again => asked_unique again asked⟩

/-- An operation is refused to a thread while another is in flight, and to the user when the
    application is shut down. -/
theorem refused_twice :
    (∃ m w', Life m ∧ Asked "save" .null { m.whole with thread := .background } w' ∧
      Told [errorEntry operationInProgress] { m.whole with thread := .background } w') ∧
    ∃ m operation w', Life m ∧ Asked "test" (.integer 7) m.whole w' ∧
      TooLate operation m.whole w' := by
  constructor
  · have found : ∃ m, Sequel (fun w d => d.Fair w) someParts
        (listening ++ [.turn (.act "new" .null)]) m ∧
        (m.whole.controller controller).phase = .initialized ∧
        (Operation.ofAction? m.whole.client.config.work "save" .null).isSome ∧
        m.whole.client.inFlight = true ∧
        (frame { m.whole with thread := .background }).ears (.controllerError controller) = 1 :=
      sequel_of_check (by decide +kernel)
    obtain ⟨m, sequel, serves, asks, inFlight, ears⟩ := found
    obtain ⟨operation, asks⟩ := Option.isSome_iff_exists.mp asks
    have life := life_of_sequel sequel
    obtain ⟨w', asked, refused, -⟩ :=
      operation_refused life .background serves asks (.inl inFlight)
    have told := refused.busy inFlight
    rw [errorEntries, ears] at told
    exact ⟨m, w', life, asked, told⟩
  · have found : ∃ m, Sequel (fun w d => d.Fair w) someParts (listening ++ [.turn .halt]) m ∧
        (m.whole.controller controller).phase = .initialized ∧
        (Operation.ofAction? m.whole.client.config.work "test" (.integer 7)).isSome ∧
        m.whole.client.inFlight = false ∧ m.whole.client.worker.accepts = false ∧
        m.whole.thread = .presentation :=
      sequel_of_check (by decide +kernel)
    obtain ⟨m, sequel, serves, asks, free, stopped, presentation⟩ := found
    obtain ⟨operation, asks⟩ := Option.isSome_iff_exists.mp asks
    have life := life_of_sequel sequel
    obtain ⟨w', asked, refused, -⟩ :=
      operation_refused life .presentation serves asks (.inr stopped)
    rw [← presentation] at asked refused
    exact ⟨m, operation, w', life, asked, refused.stopped free⟩

/-- The application is shut down when the user saves. It is announced and stands in the status line
    that this is being done. -/
theorem status_of_refused : ∃ m w', Life m ∧
    (m.whole.controller controller).phase = .initialized ∧ m.whole.client.inFlight = false ∧
    m.whole.client.worker.accepts = false ∧ Asked "save" .null m.whole w' ∧
    since (.controllerError controller) m.whole w' = [workerStopped] ∧
    since Channel.status m.whole w' = ["Saving document..."] ∧
    textOf (properties m.whole) Property.status = "Settings loaded" ∧
    textOf (properties w') Property.status = "Saving document..." := by
  have found : ∃ m, Sequel (fun w d => d.Fair w) someParts (listening ++ [.turn .halt]) m ∧
      (m.whole.controller controller).phase = .initialized ∧ m.whole.client.inFlight = false ∧
      m.whole.client.worker.accepts = false ∧
      textOf (properties m.whole) Property.status = "Settings loaded" ∧
      (runs 20 (.action (.handleAction controller "save" .null)) m.whole).any fun r =>
        since (.controllerError controller) m.whole r.2 = [workerStopped] ∧
        since Channel.status m.whole r.2 = ["Saving document..."] ∧
        textOf (properties r.2) Property.status = "Saving document..." :=
    sequel_of_check (by decide +kernel)
  obtain ⟨m, sequel, serves, free, stopped, before, after⟩ := found
  obtain ⟨⟨_, w'⟩, ended, told⟩ := (Option.any_eq_true _ _).mp after
  obtain ⟨error, announced, status⟩ := of_decide_eq_true told
  exact ⟨m, w', life_of_sequel sequel, serves, free, stopped, ⟨20, ended⟩, error, announced, before,
    status⟩

end Mvc.App
