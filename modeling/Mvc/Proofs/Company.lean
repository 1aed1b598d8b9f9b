import Mvc.Proofs.Bystanders
import Mvc.Proofs.Closing

/-! # Company

Client code mingles if it may bind what is still there and attach views, besides all that is
traffic, wherever it runs but at the ends of subscriptions. A company is what new objects come
to as their client mingles: controllers share views and models, and hooks and slots bind and
drop each other's objects while calls are in progress.

Whatever is set off, an intact ensemble stays intact (`mingling_calm`), and a call leaves
controllers with the holders that they had, and the links tied that it spares
(`tame_runUnder`). So in a company every living controller can be heard, and views and
controllers hear of each other at once (`Company.social`).
-/

namespace Mvc

variable {σ ε : Type}

/-- Whether a connection never waits if it is not the client's or to a model. -/
def Connection.IsPrompt (k : Connection (Slot σ)) : Prop :=
  k.delivery = .direct ∨ k.slot.isClient = true ∨ ∃ c, k.slot = .controllerData c

namespace Ensemble

open Proc

/-- Traffic, and binding and attaching what is still there. -/
def mingles (w : Ensemble σ ε) : Action σ ε → Bool
  | .setModel c m => w.isControllerAlive c && m.all fun i => !(w.signal (.modelData i)).closed
  | .setView c v => w.isControllerAlive c &&
      v.all fun u => (viewSignals u).all fun s => !(w.signal s).closed
  | .attach .. => true
  | a => w.traffic a

/-- Whether the client holds whoever a link belongs to. -/
def isHeld (w : Ensemble σ ε) : Link → Bool
  | .model c | .view c => (w.controller c).held
  | .attachment v => (w.view v).held

/-- Whether an action may end a link: something else is bound or attached, or whoever the link
    belongs to is dropped. -/
def parts (w : Ensemble σ ε) : Action σ ε → Link → Bool
  | .setModel c _, .model b => b == c
  | .setView c _, .view b => b == c
  | .setView c v, .attachment u => v == some u || (w.controller c).view == some u
  | .attach v _, .attachment u => u == v
  | .dropController c, .model b | .dropController c, .view b => b == c
  | .dropView v, .attachment u => u == v
  | _, _ => false

/-- Whether an action leaves some links alone. -/
def spares (stays : List Link) (w : Ensemble σ ε) (a : Action σ ε) : Bool :=
  stays.all fun l => !w.parts a l

/-- Client code that mingles, except at the ends of subscriptions, and leaves some links alone. -/
def mingling (stays : List Link) : Discipline σ ε :=
  ⟨fun w a => w.mingles a && w.spares stays a, fun w a => w.traffic a && w.spares stays a⟩

/-- What new objects come to by client code that mingles. -/
inductive Company (β : Behaviour σ ε) : Ensemble σ ε → Prop where
  | start {w} (fresh : Fresh w) : Company β w
  | step {w w'} {a : Action σ ε} {r : a.Result} (depth : Nat) (company : Company β w)
      (done : runUnder β depth (mingling []) (.action a) w = some (r, w')) : Company β w'

variable {w w' w₁ : Ensemble σ ε} {stays : List Link}

theorem mingles_of_traffic {a : Action σ ε} (allowed : w.traffic a = true) :
    w.mingles a = true := by
  cases a with
  | setModel | setView | attach => cases allowed
  | _ => exact allowed

/-- What mingles binds, attaches a view, or is traffic. -/
theorem mingles_cases {a : Action σ ε} (allowed : w.mingles a = true) :
    a.isBinding = true ∧ w.rebinds (fun _ _ => true) a = true ∨ (∃ v c, a = .attach v c) ∨
      w.traffic a = true := by
  cases a with
  | setModel | setView => exact .inl ⟨rfl, allowed⟩
  | attach v c => exact .inr (.inl ⟨v, c, rfl⟩)
  | _ => exact .inr (.inr allowed)

/-- What is shown of the body of a call holds of the call, under any discipline. -/
theorem ends_runUnder {β : Behaviour σ ε} {depth : Nat} {d : Discipline σ ε} {call : Call σ ε}
    {post : call.Result → Ensemble σ ε → Prop}
    (ends : ∀ depth, Ends (body (runUnder β depth (d.inside call)) β depth call) w post) :
    Ends (runUnder β depth d call) w post := by
  intro r w' h
  cases depth with
  | zero => cases h
  | succ depth =>
      simp only [runUnder] at h
      split at h
      · exact ends depth r w' h
      · cases h

/-! ## Staying intact -/

theorem StaySettled.trans (first : StaySettled w w₁) (second : StaySettled w₁ w') :
    StaySettled w w' :=
  fun P s id h => second P s id (first P s id h)

/-- No law, and what is bound may change. -/
def settling : Regime σ ε where
  law _ := True
  bond := StaySettled
  lasts _ _ := trivial
  of_frame frame := frame.staySettled
  trans := StaySettled.trans
  settled h := h
  around := (heeding fun _ _ => true).around

theorem attach_none_eq {torn : Option Link} (wired : Wired torn w) (run : Runner σ ε) (v : Nat) :
    attach run v none w = some ((), w) ∨ attach run v none w = some ((), detach v w) := by
  unfold attach
  rw [get_bind]
  dsimp only
  split
  · exact .inl rfl
  · rw [modify_bind]
    have cutting := releaseAll_connections _ (updateView v (reattach none) w) run
      (wired.isConnection (.attachment v))
    exact .inr (bind_eq_of_eq cutting)

theorem attach_settling (run : Runner σ ε) (v : Nat) (c : Option Nat) :
    Keeps (Calm settling none) (attach run v c) := by
  refine keeps_calm.mpr fun w intact _ => ?_
  cases c with
  | none =>
      rcases attach_none_eq intact.wired run v with same | freed
      · exact (ends_of_eq same).mpr (.refl intact trivial)
      · exact (ends_of_eq freed).mpr ⟨intact.detach v, (untouched_detach v w).settled, trivial⟩
  | some c =>
      refine (ends_of_eq (attach_some_eq intact.wired v c)).mpr ?_
      exact ⟨intact.attachTo (by simp) c, (untouched_attachTo v c intact).settled, trivial⟩

/-- Where subscriptions end, client code only traffics, so that it stays within a frame. -/
theorem ending_settling {β : Behaviour σ ε} (own : BindsOwn β) (torn : Option Link) (depth : Nat)
    (code : σ) :
    Keeps (Calm settling.framed torn) (runUnder β depth (mingling stays) (.subscription code)) := by
  cases depth with
  | zero => exact fun _ _ _ h => by cases h
  | succ depth =>
      have ends : ∀ (w : Ensemble σ ε) a, (mingling stays).ending w a = true →
          w.traffic a = true := fun w a allowed => (Bool.and_eq_true _ _ ▸ allowed).1
      exact calm_of_traffic own (depth + 1) (d := ⟨_, _⟩) ends ends (.subscription code)

/-- What mingles keeps an ensemble intact, at any depth. -/
theorem mingling_calm {β : Behaviour σ ε} (own : BindsOwn β) (depth : Nat) (call : Call σ ε) :
    Keeps (Calm settling none) (runUnder β depth (mingling stays) call) := by
  induction depth generalizing call with
  | zero => exact fun _ _ _ h => by cases h
  | succ depth ih =>
      have ending : ∀ torn code, Keeps (Calm settling.framed torn)
          (runUnder β depth (mingling stays) (.subscription code)) :=
        fun torn => ending_settling own torn depth
      have free : ∀ w : Ensemble σ ε, settling.law w := fun _ => trivial
      have fresh := own.runUnder depth (mingling stays)
      have k := keeper_lawless free ih (ending none) fresh
      intro w r w' h
      cases call with
      | slot slot notice =>
          exact (k.serve slot notice
            (fun c _ _ => handleClosing_lawless free ih (ending none) fresh c) w r w' h).2
      | task t =>
          exact (runTask_tracks k.order β (fun call => (tracks_self _).mpr (ih call)) t w r w' h).2
      | subscription code => exact (ending_settling own none (depth + 1) code w r w' h).of_framed
      | action a =>
          simp only [runUnder] at h
          split at h
          · next admitted =>
              have mingles := (Bool.and_eq_true _ _ ▸ admitted).1
              rcases mingles_cases mingles with ⟨binds, bindable⟩ | ⟨v, c, rfl⟩ | traffic
              · intro intact lawful
                exact bind_kept (fun _ _ _ => trivial) (fun untouched => untouched.settled) ending k
                  intact lawful bindable binds (fun c v _ _ w₁ _ => settled_tearView c v w₁) r w' h
              · exact holdingView_calm (attach_settling _ v c) v w r w' h
              · exact (performAction_lawless free ih (ending none) fresh depth traffic r w' h).2
          · cases h

theorem keeper_settling {β : Behaviour σ ε} (own : BindsOwn β) (depth : Nat) :
    Keeper (Calm settling none) β (runUnder β depth (mingling stays))
      (runUnder β depth (mingling stays)) :=
  keeper_lawless (fun _ => trivial) (mingling_calm own depth) (ending_settling own none depth)
    (own.runUnder depth (mingling stays))

/-! ## Holders and links that stay -/

/-- Whoever is held stays held and can be heard, nobody comes to wait who did not, and links that
    are spared stay tied as long as the client holds whoever they belong to. -/
structure Tame (stays : List Link) (w w' : Ensemble σ ε) : Prop where
  pins : ∀ c, (w'.controller c).pins = (w.controller c).pins
  opened : ∀ c, 0 < (w.controller c).pins → ∀ s ∈ controllerSignals c,
    (w.signal s).closed = false → (w'.signal s).closed = false
  prompt : ∀ s k, (w'.signal s).Has k → (w.signal s).Has k ∨ k.IsPrompt
  tied : ∀ l ∈ stays, w.isHeld l = true → w'.isHeld l = true ∧ SameLink w w' l

theorem SameLink.refl (w : Ensemble σ ε) (l : Link) : SameLink w w l := ⟨rfl, rfl⟩

theorem SameLink.trans {l : Link} (first : SameLink w w₁ l) (second : SameLink w₁ w' l) :
    SameLink w w' l :=
  ⟨second.1.trans first.1, second.2.trans first.2⟩

theorem tame_composes : Composes (Tame (σ := σ) (ε := ε) stays) where
  refl w := ⟨fun _ => rfl, fun _ _ _ _ => id, fun _ _ => .inl, fun l _ held => ⟨held, .refl w l⟩⟩
  trans first second := by
    refine ⟨fun c => (second.pins c).trans (first.pins c), fun c pinned s member opened => ?_,
      fun s k has => ?_, fun l spared held => ?_⟩
    · exact second.opened c (by rwa [first.pins c]) s member (first.opened c pinned s member opened)
    · exact (second.prompt s k has).elim (first.prompt s k) .inr
    · obtain ⟨held₁, same⟩ := first.tied l spared held
      obtain ⟨held₂, same₂⟩ := second.tied l spared held₁
      exact ⟨held₂, same.trans same₂⟩

theorem tame_of_signals (pins : ∀ c, (w'.controller c).pins = (w.controller c).pins)
    (signals : ∀ s, w'.signal s = w.signal s)
    (tied : ∀ l ∈ stays, w.isHeld l = true → w'.isHeld l = true ∧ SameLink w w' l) :
    Tame stays w w' :=
  ⟨pins, fun _ _ s _ h => by rwa [signals s], fun s _ has => .inl (by rwa [signals s] at has), tied⟩

/-- Controllers and views stay as they are. -/
theorem tame_of_same (controllers : ∀ c, w'.controller c = w.controller c)
    (views : ∀ v, w'.view v = w.view v) (signals : ∀ s, w'.signal s = w.signal s) :
    Tame stays w w' := by
  refine tame_of_signals (fun c => by rw [controllers c]) signals fun l _ held => ?_
  cases l <;> simpa [isHeld, SameLink, ports, lines, controllers, views] using held

theorem tied_updateController (w : Ensemble σ ε) (c : Nat) {f : Controller σ → Controller σ}
    (model : .model c ∈ stays → (w.controller c).held = true → ∀ o, (f o).held = o.held ∧
      (f o).model = o.model ∧ (f o).modelSubscriptions = o.modelSubscriptions)
    (view : .view c ∈ stays → (w.controller c).held = true → ∀ o, (f o).held = o.held ∧
      (f o).view = o.view ∧ (f o).viewSubscriptions = o.viewSubscriptions) :
    ∀ l ∈ stays, w.isHeld l = true → (updateController c f w).isHeld l = true ∧
      SameLink w (updateController c f w) l := by
  intro l spared holds
  cases l with
  | model b =>
      by_cases here : b = c
      · subst here
        obtain ⟨held, same⟩ := model spared holds (w.controller b)
        simp_all [isHeld, SameLink, ports, lines]
      · have same := controller_updateController_ne w c f here
        simpa [isHeld, SameLink, ports, lines, same] using holds
  | view b =>
      by_cases here : b = c
      · subst here
        obtain ⟨held, same⟩ := view spared holds (w.controller b)
        simp_all [isHeld, SameLink, ports, lines]
      · have same := controller_updateController_ne w c f here
        simpa [isHeld, SameLink, ports, lines, same] using holds
  | attachment v => exact ⟨holds, rfl, rfl⟩

theorem tame_updateController (w : Ensemble σ ε) (c : Nat) {f : Controller σ → Controller σ}
    (aside : ∀ o, ((f o).pins, (f o).phaseChanged, (f o).errorOccurred, (f o).operationCompleted) =
      (o.pins, o.phaseChanged, o.errorOccurred, o.operationCompleted))
    (tied : ∀ l ∈ stays, w.isHeld l = true → (updateController c f w).isHeld l = true ∧
      SameLink w (updateController c f w) l) : Tame stays w (updateController c f w) := by
  simp only [Prod.mk.injEq] at aside
  exact tame_of_signals (blind_updateController w c f (·.pins) fun o => (aside o).1)
    (signal_updateController w c fun o => (aside o).2) tied

/-- A controller changes, but neither its holders nor its links nor its signals. -/
theorem tame_aside (w : Ensemble σ ε) (c : Nat) {f : Controller σ → Controller σ}
    (aside : ∀ o, ((f o).pins, (f o).phaseChanged, (f o).errorOccurred, (f o).operationCompleted) =
      (o.pins, o.phaseChanged, o.errorOccurred, o.operationCompleted))
    (links : ∀ o, ((f o).held, (f o).model, (f o).view, (f o).modelSubscriptions,
      (f o).viewSubscriptions) =
        (o.held, o.model, o.view, o.modelSubscriptions, o.viewSubscriptions)) :
    Tame stays w (updateController c f w) := by
  simp only [Prod.mk.injEq] at links
  refine tame_updateController w c aside
    (tied_updateController w c (fun _ _ o => ?_) fun _ _ o => ?_)
  · exact ⟨(links o).1, (links o).2.1, (links o).2.2.2.1⟩
  · exact ⟨(links o).1, (links o).2.2.1, (links o).2.2.2.2⟩

theorem tied_updateView (w : Ensemble σ ε) (v : Nat) {f : View σ → View σ}
    (same : .attachment v ∈ stays → (w.view v).held = true →
      ∀ o, (f o).held = o.held ∧ (f o).attachment = o.attachment) :
    ∀ l ∈ stays, w.isHeld l = true → (updateView v f w).isHeld l = true ∧
      SameLink w (updateView v f w) l := by
  intro l spared holds
  cases l with
  | model b | view b => exact ⟨holds, rfl, rfl⟩
  | attachment u =>
      by_cases here : u = v
      · subst here
        obtain ⟨held, attached⟩ := same spared holds (w.view u)
        simp_all [isHeld, SameLink, ports, lines]
      · simpa [isHeld, SameLink, ports, lines, view_updateView_ne w v f here] using holds

theorem tame_updateView (w : Ensemble σ ε) (v : Nat) {f : View σ → View σ}
    (fewer : ∀ o : View σ, o.userAction.Fewer (f o).userAction ∧
      o.viewClosing.Fewer (f o).viewClosing ∧ o.viewUpdate.Fewer (f o).viewUpdate)
    (tied : ∀ l ∈ stays, w.isHeld l = true → (updateView v f w).isHeld l = true ∧
      SameLink w (updateView v f w) l) : Tame stays w (updateView v f w) := by
  refine ⟨fun _ => rfl, fun c _ s member h => ?_, fun s k has => ?_, tied⟩
  · simp only [controllerSignals, List.mem_cons, List.not_mem_nil, or_false] at member
    rcases member with rfl | rfl | rfl <;> exact h
  · exact .inl ((Mute.updateView w v fewer).fewer s k has)

theorem tame_viewPins (w : Ensemble σ ε) (v : Nat) (pins : View σ → Nat) :
    Tame stays w (updateView v (fun o => { o with pins := pins o }) w) :=
  tame_of_signals (fun _ => rfl) (signal_updateView w v (by exact fun _ => ⟨rfl, rfl, rfl⟩))
    (tied_updateView w v fun _ _ _ => ⟨rfl, rfl⟩)

theorem tame_setSignal (w : Ensemble σ ε) (s : SignalRef) {x : Signal (Slot σ)}
    (closed : x.closed = true → (w.signal s).closed = true ∨ ∀ c, s ∉ controllerSignals c)
    (prompt : ∀ k, x.Has k → (w.signal s).Has k ∨ k.IsPrompt) :
    Tame stays w (Ensemble.setSignal s x w) := by
  have only : OnlySignals w (Ensemble.setSignal s x w) := .setSignal w s x
  refine ⟨only.of_controller (·.pins) fun _ => rfl, fun c _ t member h => ?_, fun t k has => ?_,
    fun l _ held => ⟨?_, only.sameLink l⟩⟩
  · rw [signal_setSignal]
    split
    · next same =>
        subst same
        cases shut : x.closed with
        | false => rfl
        | true =>
            refine absurd member ((closed shut).resolve_left ?_ c)
            simp [h]
    · exact h
  · rw [signal_setSignal] at has
    split at has
    · next same => exact same ▸ prompt k has
    · exact .inl has
  · cases l with
    | model c | view c => exact (only.of_controller (·.held) (fun _ => rfl) c).trans held
    | attachment v => exact (only.of_view (·.held) (fun _ => rfl) v).trans held

/-- Only a controller without holders is taken apart. -/
theorem tame_shutController {c : Nat} (free : (w.controller c).pins = 0) :
    Tame stays w (shutController c w) := by
  refine ⟨blind_updateController w c _ (·.pins) (by exact fun _ => rfl), ?_, fun s k has => ?_,
    tied_updateController w c (fun _ _ _ => ⟨rfl, rfl, rfl⟩) fun _ _ _ => ⟨rfl, rfl, rfl⟩⟩
  · intro b pinned s member opened
    rw [signal_shutController, if_neg fun here => ?_]
    · exact opened
    · simp only [controllerSignals, List.mem_cons, List.not_mem_nil, or_false] at here member
      have same : b = c := by
        rcases member with rfl | rfl | rfl <;> simpa using here
      rw [same] at pinned
      omega
  · rw [signal_shutController] at has
    split at has
    · exact .inl (Signal.fewer_close _ k has)
    · exact .inl has

/-! ## Signals -/

theorem connect_tame (s : SignalRef) {slot : Slot σ} {d : Delivery}
    (prompt : Connection.IsPrompt ⟨slot, d⟩) : Keeps (Tame (ε := ε) stays) (connect s slot d) := by
  intro w r w' h
  have tame : Tame stays w (setSignal s ((w.signal s).connect slot d).2 w) := by
    refine tame_setSignal w s (fun closed => ?_) fun k has => ?_
    · exact .inl (by rwa [Signal.closed_connect] at closed)
    · rcases Signal.has_connect has with before | rfl
      · exact .inl before
      · exact .inr prompt
  cases h
  exact tame

theorem changeSignal_tame (s : SignalRef) {f : Signal (Slot σ) → Signal (Slot σ)}
    (closed : ∀ x : Signal (Slot σ), (f x).closed = true →
      x.closed = true ∨ ∀ c, s ∉ controllerSignals c)
    (fewer : ∀ x : Signal (Slot σ), x.Fewer (f x)) :
    Keeps (Tame (ε := ε) stays) (changeSignal s f) :=
  .modify fun w => tame_setSignal w s (closed _) fun k has => .inl (fewer _ k has)

theorem disconnect_tame (s : SignalRef) (id : ConnectionId) :
    Keeps (Tame (σ := σ) (ε := ε) stays) (disconnect s id) := by
  intro w r w' h
  cases h
  exact tame_setSignal w s .inl fun k has => .inl (Signal.fewer_disconnect _ id k has)

theorem subscribeToView_tame (c v : Nat) :
    Keeps (Tame (σ := σ) (ε := ε) stays) (subscribeToView c v) := by
  refine .bind tame_composes (connect_tame _ (.inl rfl)) fun _ => ?_
  refine .bind tame_composes (connect_tame _ (.inl rfl)) fun _ => ?_
  exact .bind tame_composes (connect_tame _ (.inl rfl)) fun _ => .pure tame_composes _

theorem subscribeToController_tame (v c : Nat) :
    Keeps (Tame (σ := σ) (ε := ε) stays) (subscribeToController v c) := by
  refine .bind tame_composes (connect_tame _ (.inl rfl)) fun _ => ?_
  refine .bind tame_composes (connect_tame _ (.inl rfl)) fun _ => ?_
  exact .bind tame_composes (connect_tame _ (.inl rfl)) fun _ => .pure tame_composes _

theorem subscribeToModel_tame (c m : Nat) :
    Keeps (Tame (σ := σ) (ε := ε) stays) (subscribeToModel c m) :=
  .look fun _ => .bind tame_composes (connect_tame _ (.inr (.inr ⟨c, rfl⟩))) fun _ =>
    .pure tame_composes _

/-! ## Calls -/

section Calls

variable {β : Behaviour σ ε} {run : Runner σ ε} (calls : ∀ call, Keeps (Tame stays) (run call))
include calls

theorem releaseAll_tame (lines : List (Subscription σ)) :
    Keeps (Tame stays) (releaseAll run lines) := by
  induction lines with
  | nil => exact .pure tame_composes ()
  | cons line rest ih =>
      refine .bind tame_composes ?_ fun _ => ih
      cases line with
      | connection s id =>
          exact .bind tame_composes (disconnect_tame s id) fun _ => .pure tame_composes ()
      | client code => exact calls (.subscription code)

theorem collectView_tame (v : Nat) : Keeps (Tame stays) (collectView run v) := by
  refine fun w => .get_bind ?_
  dsimp only
  split
  · exact (ends_pure () w _).mpr (tame_composes.refl w)
  · next dead =>
      have free : (w.view v).held ≠ true := fun held => dead (by simp [isViewAlive, held])
      refine .modify_bind ((releaseAll_tame calls _ _).mono fun _ w' rest => ?_)
      refine tame_composes.trans (tame_updateView w v (fun o => ?_) ?_) rest
      · exact ⟨Signal.fewer_close _, Signal.fewer_close _, Signal.fewer_close _⟩
      · exact tied_updateView w v fun _ held => absurd held free

theorem collectController_tame (c : Nat) : Keeps (Tame stays) (collectController run c) := by
  refine fun w => .get_bind ?_
  dsimp only
  split
  · exact (ends_pure () w _).mpr (tame_composes.refl w)
  · next dead =>
      obtain ⟨unheld, unpinned⟩ : (w.controller c).held ≠ true ∧ (w.controller c).pins = 0 := by
        simpa [Controller.isAlive] using dead
      have shut : ∀ w₁, Tame stays w w₁ → Tame stays w (shutController c w₁) := fun w₁ before =>
        tame_composes.trans before (tame_shutController ((before.pins c).trans unpinned))
      have released : ∀ w₁, Tame stays w w₁ →
          Ends (releaseAll run ((w.controller c).modelSubscriptions ++
            (w.controller c).viewSubscriptions ++ (w.controller c).bindings) >>= fun _ =>
            modify (shutController c)) w₁ fun _ w' => Tame stays w w' := fun w₁ before =>
        .bind ((releaseAll_tame calls _ w₁).mono fun _ w₂ rest =>
          (ends_modify _ _ _).mpr (shut w₂ (tame_composes.trans before rest)))
      have taken : Tame stays w (updateController c (fun o =>
          { o with
            model := none, view := none, modelSubscriptions := [], viewSubscriptions := [],
            bindings := [] }) w) :=
        tame_updateController w c (fun _ => rfl) (tied_updateController w c
          (fun _ held => absurd held unheld) fun _ held => absurd held unheld)
      refine .modify_bind ?_
      cases (w.controller c).view with
      | none => exact released _ taken
      | some v =>
          exact .bind ((collectView_tame calls v _).mono fun _ w₁ left =>
            released w₁ (tame_composes.trans taken left))

theorem holdingController_tameAt {α : Type} {p : Proc (Ensemble σ ε) α} {c : Nat}
    (inner : Ends p (holders c (·.held) (·.pins + 1) w) fun _ w' =>
      Tame stays (holders c (·.held) (·.pins + 1) w) w') :
    Ends (holdingController run c p) w fun _ w' => Tame stays w w' := by
  intro r w' h
  obtain ⟨w₂, held, collected⟩ := holdingController_steps h
  have between := inner _ _ held
  have after := collectController_tame calls c _ _ _ collected
  have back : ∀ b, ((holders c (·.held) (·.pins - 1) w₂).controller b).pins =
      (w.controller b).pins := by
    intro b
    have pins := between.pins b
    simp only [holders, controller_updateController] at pins ⊢
    split
    · next here =>
        rw [if_pos here] at pins
        subst here
        simp only at pins ⊢
        omega
    · next other => rwa [if_neg other] at pins
  have tied : ∀ (w : Ensemble σ ε) pins, ∀ l ∈ stays, w.isHeld l = true →
      (holders c (·.held) pins w).isHeld l = true ∧ SameLink w (holders c (·.held) pins w) l :=
    fun w _ => tied_updateController w c (fun _ _ _ => ⟨rfl, rfl, rfl⟩) fun _ _ _ => ⟨rfl, rfl, rfl⟩
  refine ⟨fun b => (after.pins b).trans (back b), fun b pinned s member opened => ?_,
    fun s k has => ?_, fun l spared holds => ?_⟩
  · refine after.opened b ((back b).symm ▸ pinned) s member ?_
    rw [signal_holders]
    refine between.opened b ?_ s member (by rwa [signal_holders])
    simp only [holders, controller_updateController]
    split
    · exact Nat.succ_pos _
    · exact pinned
  · refine (after.prompt s k has).elim (fun before => ?_) .inr
    rw [signal_holders] at before
    have prompt := between.prompt s k before
    rwa [signal_holders] at prompt
  · obtain ⟨holds₁, same₁⟩ := tied w _ l spared holds
    obtain ⟨holds₂, same₂⟩ := between.tied l spared holds₁
    obtain ⟨holds₃, same₃⟩ := tied w₂ _ l spared holds₂
    obtain ⟨holds₄, same₄⟩ := after.tied l spared holds₃
    exact ⟨holds₄, same₁.trans (same₂.trans (same₃.trans same₄))⟩

theorem holdingController_tame {α : Type} {p : Proc (Ensemble σ ε) α} (c : Nat)
    (inner : Keeps (Tame stays) p) : Keeps (Tame stays) (holdingController run c p) :=
  fun _ => holdingController_tameAt calls (inner _)

theorem holdingView_tameAt {α : Type} {p : Proc (Ensemble σ ε) α} {v : Nat}
    (inner : Ends p (pinView v w) fun _ w' => Tame stays (pinView v w) w') :
    Ends (holdingView run v p) w fun _ w' => Tame stays w w' := by
  refine .modify_bind (.bind (inner.mono fun r w₁ between => .modify_bind (.bind ?_)))
  refine (collectView_tame calls v _).mono fun _ w₂ after => (ends_pure r w₂ _).mpr ?_
  have pinned := tame_composes.trans (tame_viewPins w v (·.pins + 1)) between
  exact tame_composes.trans (tame_composes.trans pinned (tame_viewPins w₁ v (·.pins - 1))) after

theorem holdingView_tame {α : Type} {p : Proc (Ensemble σ ε) α} (v : Nat)
    (inner : Keeps (Tame stays) p) : Keeps (Tame stays) (holdingView run v p) :=
  fun _ => holdingView_tameAt calls (inner _)

theorem holdingView?_tame {α : Type} {p : Proc (Ensemble σ ε) α} (v : Option Nat)
    (inner : Keeps (Tame stays) p) : Keeps (Tame stays) (holdingView? run v p) := by
  cases v with
  | none => exact inner
  | some v => exact holdingView_tame calls v inner

/-! ## Binding -/

theorem attach_tame {v : Nat} (free : .attachment v ∉ stays) (c : Option Nat) :
    Keeps (Tame stays) (attach run v c) := by
  have linked : ∀ attachment, Keeps (Tame stays) (modify (updateView v fun o : View σ =>
      { o with attachment }) : Proc (Ensemble σ ε) Unit) := fun attachment =>
    .modify fun w => tame_updateView w v (fun _ => ⟨.refl _, .refl _, .refl _⟩)
      (tied_updateView w v fun spared => absurd spared free)
  refine .look fun w => .ite (.pure tame_composes ()) ?_
  refine .bind tame_composes (linked none) fun _ => ?_
  refine .bind tame_composes (releaseAll_tame calls _) fun _ => ?_
  cases c with
  | none => exact .pure tame_composes ()
  | some c => exact .bind tame_composes (subscribeToController_tame v c) fun _ => linked _

theorem establishBindings_tame (c : Nat) : Keeps (Tame stays) (establishBindings run β c) := by
  refine .bind tame_composes ((tracks_self _).mp
    (.program tame_composes (fun a => (tracks_self _).mpr (calls (.action a))) _)) fun _ => ?_
  refine .look fun w => .bind tame_composes (.modify fun w => ?_) fun _ => releaseAll_tame calls _
  exact tame_aside w c (fun _ => rfl) fun _ => rfl

theorem emit_tame (s : SignalRef) (notice : Notice) : Keeps (Tame stays) (emit run s notice) :=
  (emit_tracks tame_composes s notice (fun slot => (tracks_self _).mpr (calls (.slot slot notice)))
    fun w d _ => tame_of_same (fun _ => rfl) (fun _ => rfl) (signal_updateDispatcher w d _)).keeps

theorem keeper_tame : Keeper (Tame stays) β run run where
  order := tame_composes
  action a := (tracks_self _).mpr (calls (.action a))
  drain d fuel := drain_tracks tame_composes (fun t => (tracks_self _).mpr (calls (.task t)))
    (fun w d f => tame_of_same (fun _ => rfl) (fun _ => rfl) (signal_updateDispatcher w d f)) d fuel
  emit s notice _ := (tracks_self _).mpr (emit_tame calls s notice)
  thread w t := tame_of_same (fun _ => rfl) (fun _ => rfl) fun s => by cases s <;> rfl
  post w d _ := tame_of_same (fun _ => rfl) (fun _ => rfl) (signal_updateDispatcher w d _)
  model w m _ _ := tame_of_same (fun _ => rfl) (fun _ => rfl)
    (signal_updateModel w m (by exact fun _ => ⟨rfl, rfl, rfl⟩))
  view w v _ _ := tame_updateView w v (by exact fun _ => ⟨.refl _, .refl _, .refl _⟩)
    (tied_updateView w v fun _ _ _ => ⟨rfl, rfl⟩)
  holdingController c _ _ tracks := ((covers_self run).holdingController c tracks.anyhow).keeping
    (holdingController_tame calls c tracks.keeps)
  holdingView v _ _ tracks := ((covers_self run).holdingView v tracks.anyhow).keeping
    (holdingView_tame calls v tracks.keeps)
  initialized w c := tame_aside w c (by exact fun _ => rfl) (by exact fun _ => rfl)
  bindings c := (tracks_self _).mpr (establishBindings_tame calls c)

theorem announce_tame (c : Nat) : Keeps (Tame stays) (announce run β c) :=
  have k := keeper_tame (β := β) calls
  .bind tame_composes (k.rebindIfReady c).keeps fun _ => (k.emitPhase c).keeps

theorem setModel_tame {c : Nat} (free : .model c ∉ stays) (m : Option Nat) :
    Keeps (Tame stays) (setModel run β c m) := by
  have links : ∀ (w : Ensemble σ ε) {f : Controller σ → Controller σ},
      (∀ o, ((f o).pins, (f o).phaseChanged, (f o).errorOccurred, (f o).operationCompleted) =
        (o.pins, o.phaseChanged, o.errorOccurred, o.operationCompleted)) →
      (∀ o, (f o).held = o.held ∧ (f o).view = o.view ∧
        (f o).viewSubscriptions = o.viewSubscriptions) → Tame stays w (updateController c f w) :=
    fun w _ aside others => tame_updateController w c aside (tied_updateController w c
      (fun spared => absurd spared free) fun _ _ => others)
  refine .look fun w => .ite (.pure tame_composes ()) ?_
  refine .bind tame_composes (.modify fun w => links w (fun _ => rfl) fun _ => ⟨rfl, rfl, rfl⟩)
    fun _ => ?_
  refine .bind tame_composes (releaseAll_tame calls _) fun _ => ?_
  refine .bind tame_composes (releaseAll_tame calls _) fun _ => ?_
  cases m with
  | none => exact announce_tame calls c
  | some m =>
      refine .bind tame_composes (subscribeToModel_tame c m) fun _ => .look fun w => ?_
      refine .bind tame_composes (.modify fun w => links w (fun _ => rfl) fun _ => ⟨rfl, rfl, rfl⟩)
        fun _ => ?_
      exact .bind tame_composes (releaseAll_tame calls _) fun _ => announce_tame calls c

/-- The view that is left, and the one that is bound, are attached to something else. -/
theorem setView_tame {c : Nat} {v : Option Nat} (free : .view c ∉ stays)
    (left : ∀ u, (w.controller c).view = some u → .attachment u ∉ stays)
    (next : ∀ u, v = some u → .attachment u ∉ stays) :
    Ends (setView run β c v) w fun _ w' => Tame stays w w' := by
  have links : ∀ (w : Ensemble σ ε) {f : Controller σ → Controller σ},
      (∀ o, ((f o).pins, (f o).phaseChanged, (f o).errorOccurred, (f o).operationCompleted) =
        (o.pins, o.phaseChanged, o.errorOccurred, o.operationCompleted)) →
      (∀ o, (f o).held = o.held ∧ (f o).model = o.model ∧
        (f o).modelSubscriptions = o.modelSubscriptions) → Tame stays w (updateController c f w) :=
    fun w _ aside others => tame_updateController w c aside (tied_updateController w c
      (fun _ _ => others) fun spared => absurd spared free)
  refine .get_bind ?_
  refine (?_ : Keeps (Tame stays) _) w
  refine .ite (.pure tame_composes ()) ?_
  refine .bind tame_composes (holdingView?_tame calls _ ?_) fun _ => ?_
  · refine .bind tame_composes (.modify fun w => links w (fun _ => rfl) fun _ => ⟨rfl, rfl, rfl⟩)
      fun _ => ?_
    refine .bind tame_composes (releaseAll_tame calls _) fun _ => ?_
    refine .bind tame_composes (releaseAll_tame calls _) fun _ => ?_
    cases bound : (w.controller c).view with
    | none => exact .pure tame_composes ()
    | some old =>
        exact .look fun _ => .ite (attach_tame calls (left old bound) none) (.pure tame_composes ())
  cases v with
  | none => exact announce_tame calls c
  | some v =>
      refine .bind tame_composes (subscribeToView_tame c v) fun _ => .look fun w => ?_
      refine .bind tame_composes (.modify fun w => links w (fun _ => rfl) fun _ => ⟨rfl, rfl, rfl⟩)
        fun _ => ?_
      refine .bind tame_composes (releaseAll_tame calls _) fun _ => ?_
      exact .bind tame_composes (attach_tame calls (next v rfl) (some c)) fun _ =>
        announce_tame calls c

theorem performAction_tame (fuel : Nat) {a : Action σ ε} (allowed : w.mingles a = true)
    (spared : w.spares stays a = true) :
    TracksAt (Tame stays) (performAction run β fuel a) (performAction run β fuel a) w := by
  have k := keeper_tame (β := β) calls
  refine k.performAction fuel a w fun elementary => ?_
  have free : ∀ l, w.parts a l = true → l ∉ stays := fun l parts member =>
    absurd parts (by simpa using List.all_eq_true.mp spared l member)
  suffices ends : Ends (performAction run β fuel a) w fun _ w' => Tame stays w w' from
    fun r w' h => ⟨h, ends r w' h⟩
  cases a with
  | connect s slot d => exact connect_tame s (.inr (.inl allowed)) w
  | disconnect s id => exact disconnect_tame s id w
  | disconnectAll s =>
      exact changeSignal_tame s (f := (·.disconnectAll)) (fun _ => .inl)
        Signal.fewer_disconnectAll w
  | block s blocked =>
      exact changeSignal_tame s (f := (·.setBlocked blocked)) (fun _ => .inl) (fun x => .refl x) w
  | close s =>
      refine changeSignal_tame s (fun _ _ => .inr fun c member => ?_) Signal.fewer_close w
      simp only [controllerSignals, List.mem_cons, List.not_mem_nil, or_false] at member
      rcases member with rfl | rfl | rfl <;> cases allowed
  | release line =>
      cases line with
      | connection s id =>
          exact Keeps.bind tame_composes (disconnect_tame s id) (fun _ => .pure tame_composes ()) w
      | client code => exact calls (.subscription code) w
  | setModel c m =>
      have free := free (.model c) (by simp [parts])
      exact holdingController_tame calls c (setModel_tame calls free m) w
  | setView c v =>
      refine holdingController_tameAt calls ?_
      have next : ∀ u, v = some u → .attachment u ∉ stays := fun u same =>
        free (.attachment u) (by simp [parts, same])
      have left : ∀ u, (w.controller c).view = some u → .attachment u ∉ stays := fun u same =>
        free (.attachment u) (by simp [parts, same])
      have tame : ∀ w' : Ensemble σ ε, (w'.controller c).view = (w.controller c).view →
          Ends (setView run β c v) w' fun _ w'' => Tame stays w' w'' := fun w' same =>
        setView_tame calls (free (.view c) (by simp [parts]))
          (fun u bound => left u (same ▸ bound)) next
      cases v with
      | none => exact tame _ (by simp [holders])
      | some v => exact holdingView_tameAt calls (tame _ (by simp [holders, pinView]))
  | attach v c =>
      exact holdingView_tame calls v (attach_tame calls (free _ (by simp [parts])) c) w
  | emit s notice => exact emit_tame calls s notice w
  | handleClosing c =>
      refine (holdingController_tame calls c (k.handleClosing c fun w => ?_).keeps) w
      exact tame_aside w c (fun _ => rfl) fun _ => rfl
  | announceClosing v =>
      refine holdingView_tame calls v (.look fun _ => .ite (.pure tame_composes ()) ?_) w
      refine .bind tame_composes (.modify fun w => ?_) fun _ => emit_tame calls _ _
      exact tame_updateView w v (fun _ => ⟨.refl _, .refl _, .refl _⟩)
        (tied_updateView w v fun _ _ _ => ⟨rfl, rfl⟩)
  | dropController c =>
      have model := free (.model c) (by simp [parts])
      have view := free (.view c) (by simp [parts])
      refine (?_ : Keeps (Tame stays) _) w
      refine .look fun _ => .ite ?_ (.pure tame_composes ())
      refine .bind tame_composes (.modify fun w => ?_) fun _ => collectController_tame calls c
      exact tame_updateController w c (fun _ => rfl) (tied_updateController w c
        (fun spared => absurd spared model) fun spared => absurd spared view)
  | dropView v =>
      have attached := free (.attachment v) (by simp [parts])
      refine (?_ : Keeps (Tame stays) _) w
      refine .look fun _ => .ite (.bind tame_composes (.modify fun w => ?_) fun _ =>
        collectView_tame calls v) (.pure tame_composes ())
      exact tame_updateView w v (fun _ => ⟨.refl _, .refl _, .refl _⟩)
        (tied_updateView w v fun spared => absurd spared attached)
  | change f =>
      refine (?_ : Keeps (Tame stays) _) w
      exact .modify fun w => tame_of_same (fun _ => rfl) (fun _ => rfl) fun s => by cases s <;> rfl
  | _ => cases elementary

end Calls

/-- At any depth, as long as client code mingles. -/
theorem tame_runUnder (β : Behaviour σ ε) (depth : Nat) {d : Discipline σ ε}
    (code : ∀ w a, d.code w a = true → w.mingles a = true ∧ w.spares stays a = true)
    (ending : ∀ w a, d.ending w a = true → w.mingles a = true ∧ w.spares stays a = true)
    (call : Call σ ε) : Keeps (Tame stays) (runUnder β depth d call) := by
  induction depth generalizing d call with
  | zero => exact fun _ _ _ h => by cases h
  | succ depth ih =>
      have calls : ∀ call', Keeps (Tame stays) (runUnder β depth (d.inside call) call') := by
        cases call with
        | subscription _ => exact ih ending ending
        | _ => exact ih code ending
      have k := keeper_tame (β := β) calls
      intro w r w' h
      simp only [runUnder] at h
      split at h
      · next admitted =>
          cases call with
          | slot slot notice =>
              refine (k.serve slot notice (fun c _ _ => k.handleClosing c fun w => ?_) w r w' h).2
              exact tame_aside w c (fun _ => rfl) fun _ => rfl
          | task t =>
              have tracks := fun call' => (tracks_self _).mpr (calls call')
              exact (runTask_tracks tame_composes β tracks t w r w' h).2
          | subscription code => exact (k.client _ w r w' h).2
          | action a =>
              obtain ⟨allowed, spared⟩ := code w a admitted
              exact (performAction_tame calls depth allowed spared r w' h).2
      · cases h

theorem tame_mingling (β : Behaviour σ ε) (depth : Nat) (call : Call σ ε) :
    Keeps (Tame stays) (runUnder β depth (mingling stays) call) :=
  tame_runUnder β depth (fun _ _ allowed => Bool.and_eq_true _ _ ▸ allowed)
    (fun _ _ allowed => (Bool.and_eq_true _ _ ▸ allowed).imp_left mingles_of_traffic) call

/-! ## Whoever is alive can be heard -/

/-- Intact, with every living controller there to be heard, and nobody hears it late. -/
structure Social (w : Ensemble σ ε) : Prop extends Intact none w where
  opened : ∀ c, 0 < (w.controller c).pins → ∀ s ∈ controllerSignals c, (w.signal s).closed = false
  prompt : ∀ s k, (w.signal s).Has k → k.IsPrompt

/-- What client code that mingles leaves behind. -/
def Civil (stays : List Link) (w w' : Ensemble σ ε) : Prop :=
  Social w → Social w' ∧ Tame stays w w' ∧ StaySettled w w'

theorem civil_composes : Composes (Civil (σ := σ) (ε := ε) stays) where
  refl _ social := ⟨social, tame_composes.refl _, fun _ _ _ => id⟩
  trans first second social := by
    obtain ⟨social, tame, settled⟩ := first social
    obtain ⟨social', tame', settled'⟩ := second social
    exact ⟨social', tame_composes.trans tame tame', settled.trans settled'⟩

theorem Social.tame (social : Social w) (intact : Intact none w') (tame : Tame stays w w') :
    Social w' where
  toIntact := intact
  opened c pinned s member := by
    rw [tame.pins c] at pinned
    exact tame.opened c pinned s member (social.opened c pinned s member)
  prompt s k has := (tame.prompt s k has).elim (social.prompt s k) id

theorem civil_post (w : Ensemble σ ε) (d : Nat) (t : Task σ) :
    Civil stays w (updateDispatcher d (fun q => q.post t) w) := by
  intro social
  have signals := signal_updateDispatcher w d (fun q => q.post t)
  have tame : Tame stays w (updateDispatcher d (fun q => q.post t) w) :=
    tame_of_same (fun _ => rfl) (fun _ => rfl) signals
  obtain ⟨intact, frame⟩ := social.toIntact.of_same signals (fun _ => rfl) (fun _ h => h)
    fun _ => rfl
  exact ⟨social.tame intact tame, tame, frame.settled⟩

theorem keeps_civil {α : Type} {p : Proc (Ensemble σ ε) α} (calm : Keeps (Calm settling none) p)
    (tame : Keeps (Tame stays) p) : Keeps (Civil stays) p := by
  intro w r w' h social
  obtain ⟨intact, settled, -⟩ := calm w r w' h social.toIntact trivial
  exact ⟨social.tame intact (tame w r w' h), tame w r w' h, settled⟩

/-- The signals of a controller that is alive are open. -/
theorem Social.open_of_alive (social : Social w) {c : Nat} (alive : w.isControllerAlive c = true)
    {s : SignalRef} (member : s ∈ controllerSignals c) : (w.signal s).closed = false := by
  simp only [isControllerAlive, Controller.isAlive, Bool.or_eq_true, decide_eq_true_eq] at alive
  rcases alive with held | pinned
  · exact social.standing s (.held held member)
  · exact social.opened c pinned s member

theorem Social.hold (social : Social w) {c : Nat} (alive : w.isControllerAlive c = true) :
    Social (holders c (·.held) (·.pins + 1) w) where
  toIntact := social.toIntact.hold c
  opened b pinned s member := by
    rw [signal_holders]
    by_cases here : b = c
    · exact social.open_of_alive (here ▸ alive) (here ▸ member)
    · rw [controller_holders_ne w _ _ here] at pinned
      exact social.opened b pinned s member
  prompt s k has := by
    rw [signal_holders] at has
    exact social.prompt s k has

theorem isHeld_hold (w : Ensemble σ ε) (c : Nat) (pins : Controller σ → Nat) (l : Link) :
    (holders c (·.held) pins w).isHeld l = w.isHeld l := by
  cases l with
  | model b | view b => exact blind_updateController w c _ (·.held) (by exact fun _ => rfl) b
  | attachment v => rfl

theorem isHeld_viewPins (w : Ensemble σ ε) (v : Nat) (pins : View σ → Nat) (l : Link) :
    (updateView v (fun o => { o with pins := pins o }) w).isHeld l = w.isHeld l := by
  cases l with
  | model b | view b => rfl
  | attachment u => exact blind_updateView w v _ (·.held) (by exact fun _ => rfl) u

theorem Social.viewPins (social : Social w) (v : Nat) (pins : View σ → Nat) :
    Social (updateView v (fun o => { o with pins := pins o }) w) :=
  have tame : Tame [] w _ := tame_viewPins w v pins
  social.tame (social.toIntact.viewPins v pins).1 tame

theorem Fresh.social (fresh : Fresh w) : Social w where
  toIntact := fresh.intact
  opened c pinned := by
    rw [(fresh.controllers c).2.1] at pinned
    cases pinned
  prompt s k has := by
    rw [fresh.signals s] at has
    obtain ⟨_, member, -⟩ := has
    cases member

section Runs

variable {β : Behaviour σ ε} (own : BindsOwn β)
include own

theorem mingling_civil (depth : Nat) (call : Call σ ε) :
    Keeps (Civil stays) (runUnder β depth (mingling stays) call) :=
  keeps_civil (mingling_calm own depth call) (tame_mingling β depth call)

theorem client_civil (depth : Nat) {ρ : Type} (code : Client σ ε ρ) :
    Keeps (Civil stays) ((runUnder β depth (mingling stays)).client code) :=
  keeps_civil ((keeper_settling own depth).client code).keeps
    ((keeper_tame (β := β) (tame_mingling β depth)).client code).keeps

theorem refresh_civil (depth : Nat) (c : Nat) :
    Keeps (Civil stays) (refresh (runUnder β depth (mingling stays)) β c) :=
  keeps_civil ((keeper_settling own depth).refresh c).keeps
    ((keeper_tame (β := β) (tame_mingling β depth)).refresh c).keeps

theorem Company.social (company : Company β w) : Social w := by
  induction company with
  | start fresh => exact fresh.social
  | step depth _ done ih => exact (mingling_civil own depth _ _ _ _ done ih).1

end Runs

/-- Actions one after another. -/
def performAll (run : Runner σ ε) : List (Action σ ε) → Proc (Ensemble σ ε) Unit
  | [] => pure ()
  | a :: rest => do
    let _ ← run (.action a)
    performAll run rest

theorem Company.performed {β : Behaviour σ ε} {depth : Nat} {actions : List (Action σ ε)}
    (company : Company β w) {r : Unit}
    (done : performAll (runUnder β depth (mingling [])) actions w = some (r, w')) :
    Company β w' := by
  induction actions generalizing w with
  | nil =>
      cases done
      exact company
  | cons a rest ih =>
      obtain ⟨_, w₁, first, later⟩ := bind_eq_some.mp done
      exact ih (company.step depth first) later

theorem Company.next {β : Behaviour σ ε} (company : Company β w) (depth : Nat)
    (actions : List (Action σ ε))
    (ends : (performAll (runUnder β depth (mingling [])) actions w).isSome = true) :
    Company β ((performAll (runUnder β depth (mingling [])) actions w).get ends).2 :=
  company.performed (Option.some_get ends).symm

end Ensemble

end Mvc
