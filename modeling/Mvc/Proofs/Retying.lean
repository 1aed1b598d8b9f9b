import Mvc.Proofs.Tying

/-! # Binding keeps the application tied

Binding another model or view ends what was connected for the old one, connects what there is to
connect for the new one, makes the binding anew, and announces the phase. In between the
application is loose. Setting up the controller makes the binding for the first time.

A procedure fares well if it comes to an end on the thread where it began, with the
application tied (`Fares`).
-/

namespace Mvc.App

open Ensemble Proc

variable {w w₁ w' : Whole} {n : Nat}

/-! ## Faring well -/

/-- The procedure comes to an end on the thread where it began, and the application is tied. -/
def Fares {α : Type} (p : Proc Whole α) (w : Whole) : Prop :=
  Reaches p w fun _ w' => w'.thread = w.thread ∧ Tied w'

section Fares

variable {α γ : Type} {p : Proc Whole α}

theorem fares_pure (tied : Tied w) (r : α) : Fares (pure r) w := reaches_pure ⟨rfl, tied⟩

/-- After a step that stays on the thread. -/
theorem Fares.from (fares : Fares p w₁) (thread : w₁.thread = w.thread) :
    Reaches p w₁ fun _ w' => w'.thread = w.thread ∧ Tied w' :=
  Reaches.mono fares fun _ _ holds => ⟨holds.1.trans thread, holds.2⟩

theorem Fares.bind {f : α → Proc Whole γ} (first : Fares p w)
    (rest : ∀ r w₁, w₁.thread = w.thread → Tied w₁ → Fares (f r) w₁) : Fares (p >>= f) w := by
  refine Reaches.bind first ?_
  rintro r w₁ ⟨thread, tied⟩
  exact (rest r w₁ thread tied).from thread

theorem Moves.fares {post : α → Gist → Prop} (moves : Moves p w post) (tied : Tied w)
    (faithful : ∀ r g, post r g → (gist w).Faithful g) : Fares p w :=
  Reaches.mono moves fun r w' holds =>
    ⟨holds.1.thread, tied.steady holds.1 (faithful r (gist w') holds.2)⟩

theorem Goes.fares {post : α → Gist → Prop} (goes : Goes p w post) (tied : Tied w)
    (faithful : ∀ r g, post r g → (gist w).Faithful g) : Fares p w :=
  goes.moves.fares tied faithful

section Programs

variable {run : Runner Code State} {ρ τ : Type}

theorem Fares.program {p : Program ρ} {f : ρ → Program τ} (first : Fares (run.client p) w)
    (rest : ∀ r w₁, w₁.thread = w.thread → Tied w₁ → Fares (run.client (f r)) w₁) :
    Fares (run.client (p >>= f)) w := by
  unfold Runner.client
  rw [Program.run_bind]
  exact first.bind rest

theorem fares_perform {a : Action Code State} (fares : Fares (run (.action a)) w) :
    Fares (run.client (.perform a)) w := by
  unfold Runner.client
  rw [Program.run_perform]
  exact fares

theorem fares_see {f : Whole → ρ} {rest : ρ → Program τ}
    (fares : Fares (run.client (rest (f w))) w) : Fares (run.client (see f >>= rest)) w := fares

end Programs

end Fares

/-! ## Holding -/

theorem Tied.pinned (tied : Tied w) (v : Nat) (pins : View Code → Nat) :
    Tied (updateView v (fun o => { o with pins := pins o }) w) := by
  have onward : Onward w (updateView v (fun o => { o with pins := pins o }) w) :=
    onward_updateView v (fun _ => ⟨rfl, rfl, rfl⟩) (fun _ => rfl) fun _ => rfl
  have rewired : Rewired w (updateView v (fun o => { o with pins := pins o }) w) :=
    tied.toRigged.updateView v (fun _ => ⟨rfl, rfl, rfl⟩) (fun _ => rfl) (fun _ => rfl)
      fun _ => .inl rfl
  refine tied.steady onward.toSteady ?_
  rw [rewired.gist, onward.toSteady.frame]
  exact .refl _

theorem Tied.holders (tied : Tied w) (pins : Controller Code → Nat) :
    Tied (holders controller (·.held) pins w) := by
  have onward : Onward w (Ensemble.holders controller (·.held) pins w) :=
    onward_updateController (fun _ => ⟨rfl, rfl, rfl⟩) fun _ => rfl
  refine tied.steady onward.toSteady ?_
  rw [onward.toSteady.gist]
  have phase := blind_holders w controller (·.held) pins Controller.phase (fun _ _ _ => rfl)
    controller
  simp only [gist, phase]
  exact .refl _

section Holding

variable {run : Runner Code State} {α : Type} {p : Proc Whole α}

theorem holdingController_fares (tied : Tied w)
    (inner : ∀ w₁, w₁.thread = w.thread → Tied w₁ → Fares p w₁) :
    Fares (holdingController run controller p) w := by
  refine holdingController_reaches (Reaches.mono (inner _ rfl (tied.holders _)) ?_)
  rintro r w₂ ⟨thread, tied₂⟩
  exact ⟨tied₂.held, thread, tied₂.holders _⟩

theorem holdingView?_fares (tied : Tied w) (v : Option Nat)
    (inner : ∀ w₁, w₁.thread = w.thread → Tied w₁ → Fares p w₁) :
    Fares (holdingView? run v p) w := by
  cases v with
  | none => exact inner w rfl tied
  | some v =>
      refine holdingView_reaches (Reaches.mono (inner _ rfl (tied.pinned v (·.pins + 1))) ?_)
      rintro r w₂ ⟨thread, tied₂⟩
      exact ⟨tied₂.views v, thread, tied₂.pinned v (·.pins - 1)⟩

end Holding

/-! ## Making the binding -/

theorem Loose.rebindIfReady (loose : Loose w) :
    Fares (Ensemble.rebindIfReady (runs (n + 1)) behaviour controller) w := by
  cases ready : isReady (w.controller controller) with
  | false =>
      refine reaches_get ?_
      rw [if_neg (by simp [ready])]
      exact reaches_pure ⟨rfl, loose.tied ready⟩
  | true =>
      have both := ready
      simp only [isReady, Bool.and_eq_true] at both
      obtain ⟨v, view⟩ := Option.isSome_iff_exists.mp both.2
      exact reaches_of_eq (loose.rebind view ready) ⟨rfl, loose.fasten view ready⟩

theorem emitPhase_fares (tied : Tied w) : Fares (emitPhase (runs (n + 4)) controller) w :=
  (emitPhase_goes tied.toMounted).fares tied fun _ _ same => same ▸ .refl _

theorem Loose.announce (loose : Loose w) :
    Fares (announce (runs (n + 4)) behaviour controller) w :=
  (loose.rebindIfReady (n := n + 3)).bind fun _ _ _ => emitPhase_fares

/-! ## Ending what was connected -/

/-- Subscriptions that are connections end without client code. -/
theorem reaches_releaseAll {α : Type} {run : Runner Code State} {lines : List (Subscription Code)}
    {f : Unit → Proc Whole α} {post : α → Whole → Prop}
    (connections : ∀ line ∈ lines, line.isConnection = true)
    (rest : Reaches (f ()) (cutAll lines w) post) :
    Reaches (releaseAll run lines >>= f) w post := by
  have released : Reaches (releaseAll run lines) w fun _ w₁ => w₁ = cutAll lines w :=
    reaches_of_eq (releaseAll_connections lines w run connections) rfl
  exact released.bind fun _ _ same => same ▸ rest

/-- When another model or view is bound and the old lines and the binding are cut, the application
    is loose. -/
theorem Tied.tear (tied : Tied w) {f : Controller Code → Controller Code}
    (signals : ∀ o, (f o).phaseChanged = o.phaseChanged ∧ (f o).errorOccurred = o.errorOccurred ∧
      (f o).operationCompleted = o.operationCompleted)
    (stands : ∀ o, (f o).held = o.held ∧ (f o).dispatcher = o.dispatcher)
    (bare : ∀ o, (f o).bindings = [])
    (modelLines : ∀ o, (f o).modelSubscriptions = o.modelSubscriptions ∨
      ∀ line ∈ (f o).modelSubscriptions, IsAside line)
    (viewLines : ∀ o, (f o).viewSubscriptions = o.viewSubscriptions ∨
      ∀ line ∈ (f o).viewSubscriptions, IsAside line) (lines : List (Subscription Code)) :
    let torn := cutAll (w.controller controller).bindings
      (cutAll lines (updateController controller f w))
    torn.thread = w.thread ∧ Loose torn := by
  have changed := controller_updateController_self w controller f
  have kept := signal_updateController w controller signals
  have torn := tied.toRigged.updateController signals stands modelLines viewLines
  have first := torn.cutAll lines
  have through := first.trans (first.rigged.cutAll (w.controller controller).bindings)
  refine ⟨through.thread, through.rigged, ?_, fun id v told => ?_, fun unrouted => ?_⟩
  · rw [through.of_controller (·.bindings) fun _ => rfl, changed, bare]
  · obtain ⟨unbound, named⟩ := (slotAt_cutAll _ _).mp told
    have before := first.fewer id _ named
    rw [slotAt, kept] at before
    exact unbound (tied.booked id v before)
  · have dispatcher := through.of_controller (·.dispatcher) fun _ => rfl
    rw [changed, (stands _).2] at dispatcher
    have waiting := congrArg Gist.waiting through.gist
    unfold Gist.Unspoken
    rw [waiting]
    exact tied.unrouted ((congrArg Option.isSome dispatcher).symm.trans unrouted)

/-! ## Connecting anew -/

section Connecting

variable {run : Runner Code State} {α : Type} {rest : Proc Whole α} {post : α → Whole → Prop}

/-- A rigged application subscribes to something else than the busy flag. -/
theorem Rigged.subscribes (rigged : Rigged w) {subscribe : Proc Whole (List (Subscription Code))}
    {d : Delivery} {ports : List (SignalRef × Slot Code)}
    (plugs : subscribe w = some (Ensemble.plugAll d ports w))
    (fits : ∀ port ∈ ports, port.1 ≠ Channel.busy ∧ Fits w port.1 ⟨port.2, d⟩)
    {f : List (Subscription Code) → Proc Whole α}
    (later : ∀ lines w₁, Rewired w w₁ → (∀ line ∈ lines, IsAside line) →
      Reaches (f lines) w₁ post) : Reaches (subscribe >>= f) w post := by
  obtain ⟨plugged, aside⟩ := rigged.plugAll fits
  have subscribed : Reaches subscribe w fun lines w₁ => (lines, w₁) = Ensemble.plugAll d ports w :=
    reaches_of_eq plugs rfl
  refine subscribed.bind ?_
  rintro lines w₁ made
  rw [← made] at plugged aside
  exact later lines w₁ plugged aside

/-- A loose application listens to a model. -/
theorem Loose.joinModel (loose : Loose w) (m : Nat)
    (later : ∀ w₁, w₁.thread = w.thread → Loose w₁ → Reaches rest w₁ post) :
    Reaches (do
      let subscriptions ← subscribeToModel controller m
      let previous := ((← get).controller controller).modelSubscriptions
      modify (updateController controller fun o => { o with modelSubscriptions := subscriptions })
      releaseAll run previous
      rest) w post := by
  refine loose.toRigged.subscribes (subscribeToModel_eq controller m w)
    (by simp [modelPorts, Fits, Channel.busy]) fun lines w₁ plugged aside => ?_
  have lined := plugged.rigged.reline (f := lineModel lines) (fun _ => ⟨rfl, rfl, rfl⟩)
    (fun _ => rfl) (fun _ => .inr aside) fun _ => .inl rfl
  have old := plugged.rigged.aside (.model controller) rfl
  have through := (plugged.trans lined).trans
    (lined.rigged.cutAll (w₁.controller controller).modelSubscriptions)
  refine reaches_get (reaches_modify (reaches_releaseAll (isConnection_of_isAside old) ?_))
  exact later _ through.thread (loose.rewired through)

/-- A view is attached, or it is not any more. -/
theorem Loose.attach (loose : Loose w) (v : Nat) (c : Option Nat) (ours : ∀ b ∈ c, b = controller) :
    Reaches (Ensemble.attach run v c) w fun _ w' => w'.thread = w.thread ∧ Loose w' := by
  have reattached : ∀ {w : Whole} (rigged : Rigged w) (attachment : Option (Attachment Code)),
      (∀ line ∈ (attachment.map (·.subscriptions)).getD [], IsAside line) →
        Rewired w (updateView v (reattach attachment) w) := fun rigged attachment aside =>
    rigged.updateView v (fun _ => ⟨rfl, rfl, rfl⟩) (fun _ => rfl) (fun _ => rfl) fun _ => .inr aside
  refine reaches_get ?_
  dsimp only
  split
  · exact reaches_pure ⟨rfl, loose⟩
  · have bare := reattached loose.toRigged none nofun
    have cut := bare.trans (bare.rigged.cutAll (w.lines (.attachment v)))
    refine reaches_modify (reaches_releaseAll
      (isConnection_of_isAside (loose.aside (.attachment v) trivial)) ?_)
    cases c with
    | none => exact reaches_pure ⟨cut.thread, loose.rewired cut⟩
    | some c =>
        obtain rfl : c = controller := ours c rfl
        refine cut.rigged.subscribes (subscribeToController_eq v controller _)
          (by simp [attachmentPorts, Fits, Channel.busy]) fun lines w₁ plugged aside => ?_
        have through := (cut.trans plugged).trans
          (reattached plugged.rigged (some ⟨controller, lines⟩) aside)
        exact reaches_of_eq rfl ⟨through.thread, loose.rewired through⟩

/-- A loose application listens to a view, which is attached. -/
theorem Loose.joinView (loose : Loose w) (v : Nat)
    (later : ∀ w₁, w₁.thread = w.thread → Loose w₁ → Reaches rest w₁ post) :
    Reaches (do
      let subscriptions ← subscribeToView controller v
      let previous := ((← get).controller controller).viewSubscriptions
      modify (updateController controller fun o => { o with viewSubscriptions := subscriptions })
      releaseAll run previous
      Ensemble.attach run v (some controller)
      rest) w post := by
  refine loose.toRigged.subscribes (subscribeToView_eq controller v w)
    (by simp [viewPorts, Fits, Channel.busy]) fun lines w₁ plugged aside => ?_
  have lined := plugged.rigged.reline (f := lineView lines) (fun _ => ⟨rfl, rfl, rfl⟩)
    (fun _ => rfl) (fun _ => .inl rfl) fun _ => .inr aside
  have old := plugged.rigged.aside (.view controller) rfl
  have through := (plugged.trans lined).trans
    (lined.rigged.cutAll (w₁.controller controller).viewSubscriptions)
  refine reaches_get (reaches_modify (reaches_releaseAll (isConnection_of_isAside old) ?_))
  refine ((loose.rewired through).attach v (some controller) (by simp)).bind ?_
  rintro _ w₂ ⟨thread, loose₂⟩
  exact later w₂ (thread.trans through.thread) loose₂

end Connecting

/-! ## Models -/

theorem setModel_fares (tied : Tied w) (m : Option Nat) :
    Fares (setModel (runs (n + 4)) behaviour controller m) w := by
  refine reaches_get ?_
  dsimp only
  split
  · exact fares_pure tied ()
  · refine reaches_modify (reaches_releaseAll
      (isConnection_of_isAside (tied.aside (.model controller) rfl))
      (reaches_releaseAll tied.isConnection ?_))
    obtain ⟨thread, loose⟩ := tied.tear (f := rebindModel m) (fun _ => ⟨rfl, rfl, rfl⟩)
      (fun _ => ⟨rfl, rfl⟩) (fun _ => rfl) (fun _ => .inr nofun) (fun _ => .inl rfl)
      (w.controller controller).modelSubscriptions
    cases m with
    | none => exact loose.announce.from thread
    | some m =>
        refine loose.joinModel m fun w₁ thread₁ loose₁ => ?_
        exact loose₁.announce.from (thread₁.trans thread)

/-! ## Views -/

theorem Loose.pinned (loose : Loose w) (v : Nat) (pins : View Code → Nat) :
    Loose (updateView v (fun o => { o with pins := pins o }) w) :=
  loose.rewired (loose.toRigged.updateView v (fun _ => ⟨rfl, rfl, rfl⟩) (fun _ => rfl)
    (fun _ => rfl) fun _ => .inl rfl)

/-- The view that was bound is left. -/
theorem Tied.leaveView {run : Runner Code State} (tied : Tied w) (v : Option Nat) :
    Reaches (holdingView? run (w.controller controller).view do
      modify (updateController controller (rebindView v))
      releaseAll run (w.controller controller).viewSubscriptions
      releaseAll run (w.controller controller).bindings
      match (w.controller controller).view with
      | none => pure ()
      | some old => unbindView run controller old) w
      fun _ w' => w'.thread = w.thread ∧ Loose w' := by
  have torn : ∀ {w : Whole}, Tied w → ∀ {rest : Proc Whole Unit}
      {post : Unit → Whole → Prop},
      (∀ w₁, w₁.thread = w.thread → Loose w₁ → Reaches rest w₁ post) → Reaches (do
        modify (updateController controller (rebindView v))
        releaseAll run (w.controller controller).viewSubscriptions
        releaseAll run (w.controller controller).bindings
        rest) w post := by
    intro w tied rest post later
    refine reaches_modify (reaches_releaseAll
      (isConnection_of_isAside (tied.aside (.view controller) rfl))
      (reaches_releaseAll tied.isConnection ?_))
    obtain ⟨thread, loose⟩ := tied.tear (f := rebindView v) (fun _ => ⟨rfl, rfl, rfl⟩)
      (fun _ => ⟨rfl, rfl⟩) (fun _ => rfl) (fun _ => .inl rfl) (fun _ => .inr nofun)
      (w.controller controller).viewSubscriptions
    exact later _ thread loose
  cases (w.controller controller).view with
  | none => exact torn tied fun w₁ thread loose => reaches_pure ⟨thread, loose⟩
  | some old =>
      have held := tied.pinned old (·.pins + 1)
      refine holdingView_reaches (torn held fun w₁ thread loose => ?_)
      refine reaches_get ?_
      split
      · refine (loose.attach old none nofun).mono fun _ w₂ holds => ?_
        exact ⟨holds.2.views old, holds.1.trans thread, holds.2.pinned old (·.pins - 1)⟩
      · exact reaches_pure ⟨loose.views old, thread, loose.pinned old (·.pins - 1)⟩

theorem setView_fares (tied : Tied w) (v : Option Nat) :
    Fares (setView (runs (n + 4)) behaviour controller v) w := by
  refine reaches_get ?_
  dsimp only
  split
  · exact fares_pure tied ()
  · refine (tied.leaveView v).bind ?_
    rintro _ w₁ ⟨thread, loose⟩
    cases v with
    | none => exact loose.announce.from thread
    | some v =>
        refine loose.joinView v fun w₂ thread₂ loose₂ => ?_
        exact loose₂.announce.from (thread₂.trans thread)

/-! ## Setting up the controller -/

theorem initializeController_fares (tied : Tied w) :
    Fares (initializeController (runs (n + 4)) behaviour controller) w := by
  refine reaches_get ?_
  split
  · exact fares_pure tied _
  · next unready =>
      have loose := tied.loose (by simp [isReady, unready])
      let setUp := updateController controller (fun o => { o with initialized := true }) w
      have changed : setUp.controller controller =
          { w.controller controller with initialized := true } :=
        controller_updateController_self w controller _
      have routed : (frame setUp).routed = (frame w).routed :=
        congrArg (·.dispatcher.isSome) changed
      have loose : Loose setUp :=
        ⟨tied.toRigged.updateController (fun _ => ⟨rfl, rfl, rfl⟩) (fun _ => ⟨rfl, rfl⟩)
          (fun _ => .inl rfl) fun _ => .inl rfl, (congrArg (·.bindings) changed).trans loose.bare,
          loose.mute, fun unrouted => loose.unrouted (routed ▸ unrouted)⟩
      have announced : Fares (do
          Ensemble.rebindIfReady (runs (n + 4)) behaviour controller
          emitPhase (runs (n + 4)) controller
          return (.ok () : Except ControllerError Unit)) setUp :=
        (loose.rebindIfReady (n := n + 3)).bind fun _ _ _ tied₁ =>
          (emitPhase_fares tied₁).bind fun _ _ _ tied₂ => fares_pure tied₂ _
      exact announced

/-! ## Connecting the application's own code -/

theorem Tied.plug (tied : Tied w) {d : Delivery} {port : SignalRef × Slot Code}
    (fits : Fits w port.1 ⟨port.2, d⟩) (other : ∀ v, port.2 ≠ .client (.followBusy v)) :
    Tied (plug d port w).2 := by
  have only := onlySignals_plug d port w
  have hears : ∀ {id v}, Hears (Ensemble.plug d port w).2 id v ↔ Hears w id v := by
    intro id v
    refine (slotAt_plug d port w tied.sound).trans (or_iff_left ?_)
    rintro ⟨-, -, same⟩
    exact other v (congrArg Prod.snd same)
  have gist := gist_of_onlySignals only
  have bindings := only.of_controller (·.bindings) (fun _ => rfl) controller
  have view := only.of_controller (·.view) (fun _ => rfl) controller
  have ready := only.of_controller isReady (fun _ => rfl) controller
  have dispatcher := only.of_controller (·.dispatcher) (fun _ => rfl) controller
  refine ⟨tied.toRigged.plug fits, ?_, fun id v told => ?_, fun unrouted => ?_, fun id v told => ?_⟩
  · simp only [ready, view, bindings, hears]
    exact tied.bound
  · rw [bindings]
    exact tied.booked id v (hears.mp told)
  · unfold Gist.Unspoken
    rw [gist]
    exact tied.unrouted ((congrArg Option.isSome dispatcher).symm.trans unrouted)
  · have words := congrArg (Gist.words · id) gist
    have flag := congrArg Gist.flag gist
    rw [words, flag, only.of_view (·.enabled) fun _ => rfl]
    exact tied.agrees id v (hears.mp told)

theorem connect_fares (tied : Tied w) {s : SignalRef} {code : Code} {d : Delivery}
    (fits : Fits w s ⟨.client code, d⟩) (other : ∀ v, code ≠ .followBusy v) :
    Fares ((runs (n + 1)).client (connect s code d)) w := by
  have plugged : Tied (plug d (s, .client code) w).2 :=
    tied.plug fits fun v same => other v (Slot.client.inj same)
  exact reaches_of_eq rfl ⟨thread_setSignal w s _, plugged⟩

/-! ## The application put together -/

/-- Where nothing was connected there is nothing to hear. -/
theorem tied_of_new {d : Option Nat} (sole : ∀ e, d = some e → e = dispatcher)
    (new : w.controller controller = { (default : Controller Code) with dispatcher := d })
    (views : ∀ v, w.view v = default) (signals : ∀ s, w.signal s = .new)
    (empty : queue w = []) : Tied w := by
  have unspoken : (gist w).Unspoken := by
    intro id v busy waits
    rw [show (gist w).waiting = [] from congrArg (List.filterMap _) empty] at waits
    cases waits
  have deaf : ∀ id v, ¬ Hears w id v := by
    intro id v told
    rw [Hears, slotAt, signals] at told
    cases told
  refine ⟨⟨⟨?_, fun v => ?_, fun e same => ?_, fun s => ?_, fun s id k named => ?_, ?_⟩,
    fun s => ?_, fun s => ?_, fun l ours line member => ?_, fun id v busy waits => ?_⟩, ?_,
    fun id v told => absurd told (deaf id v), fun _ => unspoken,
    fun id v told => absurd told (deaf id v)⟩
  · rw [new]
    rfl
  · rw [views]
    rfl
  · rw [new] at same
    exact sole e same
  · rw [signals]
    rfl
  · rw [signals] at named
    cases named
  · rw [empty]
    exact fun t member => absurd member List.not_mem_nil
  · rw [signals]
    exact Signal.sound_new
  · rw [signals]
    rfl
  · cases l with
    | model c | view c =>
        obtain rfl : c = controller := ours
        rw [lines, new] at member
        cases member
    | attachment v =>
        rw [lines, views] at member
        cases member
  · exact absurd waits (unspoken id v busy)
  · rw [new]
    rfl

/-- Before its parts know each other, an application is tied. -/
theorem tied_parts (config : Config) (service : Service) (files : Files) (hasDispatcher : Bool)
    (clock : Instant) : Tied (parts config service files hasDispatcher clock) := by
  refine tied_of_new (d := if hasDispatcher then some dispatcher else none) ?_
    (controller_updateController_self _ _ _) (fun _ => rfl) (fun s => ?_) rfl
  · cases hasDispatcher with
    | true => exact fun e same => (Option.some.inj same).symm
    | false => nofun
  · refine (signal_updateController _ _ (by exact fun _ => ⟨rfl, rfl, rfl⟩) s).trans ?_
    cases s <;> rfl

end Mvc.App
