import Mvc.Ensemble.Lifetime
import Mvc.Proofs.Intact

/-! # Taking objects apart

A controller or view that nobody holds gives up what it has, and its lines are cut, without
any client code in between. What is left is intact, since nothing else had a line there. Only
then a controller's bindings end, which may run client code, and its own signals are closed.
-/

namespace Mvc.Ensemble

variable {σ ε : Type}

/-- A view gives up its signals and its controller. -/
def takeView (v : Nat) (w : Ensemble σ ε) : Ensemble σ ε :=
  updateView v (fun o =>
    { o with
      attachment := none
      userAction := o.userAction.close
      viewClosing := o.viewClosing.close
      viewUpdate := o.viewUpdate.close }) w

/-- A controller gives up what it has. -/
def takeController (c : Nat) (w : Ensemble σ ε) : Ensemble σ ε :=
  updateController c (fun o =>
    { o with
      model := none, view := none, modelSubscriptions := [], viewSubscriptions := [],
      bindings := [] }) w

/-- A controller gives up its signals. -/
def shutController (c : Nat) (w : Ensemble σ ε) : Ensemble σ ε :=
  updateController c (fun o =>
    { o with
      phaseChanged := o.phaseChanged.close
      errorOccurred := o.errorOccurred.close
      operationCompleted := o.operationCompleted.close }) w

/-- The state after a view was looked at, and taken apart if nobody holds it. -/
def withoutView (v : Nat) (w : Ensemble σ ε) : Ensemble σ ε :=
  if w.isViewAlive v then w else cutAll (w.lines (.attachment v)) (takeView v w)

theorem signal_takeView (v : Nat) (w : Ensemble σ ε) (s : SignalRef) :
    (takeView v w).signal s = if s ∈ viewSignals v then (w.signal s).close else w.signal s := by
  cases s with
  | viewAction u | viewClosing u | viewUpdate u =>
      simp only [takeView, signal, view_updateView, viewSignals, List.mem_cons, reduceCtorEq,
        SignalRef.viewAction.injEq, SignalRef.viewClosing.injEq, SignalRef.viewUpdate.injEq,
        List.not_mem_nil, or_false, false_or]
      split
      · next same => rw [same]
      · rfl
  | _ =>
      rw [if_neg (by simp [viewSignals])]
      rfl

theorem signal_shutController (c : Nat) (w : Ensemble σ ε) (s : SignalRef) :
    (shutController c w).signal s =
      if s ∈ controllerSignals c then (w.signal s).close else w.signal s := by
  cases s with
  | controllerPhase b | controllerError b | controllerDone b =>
      simp only [shutController, signal, controller_updateController, controllerSignals,
        List.mem_cons, reduceCtorEq, SignalRef.controllerPhase.injEq,
        SignalRef.controllerError.injEq, SignalRef.controllerDone.injEq, List.not_mem_nil,
        or_false, false_or]
      split
      · next same => rw [same]
      · rfl
  | _ =>
      rw [if_neg (by simp [controllerSignals])]
      rfl

theorem signal_takeController (c : Nat) (w : Ensemble σ ε) (s : SignalRef) :
    (takeController c w).signal s = w.signal s :=
  signal_updateController w c (by exact fun _ => ⟨rfl, rfl, rfl⟩) s

/-! ## What is taken apart -/

/-- Some controllers and views gave up what they had. -/
structure TakenApart (left gone : Nat → Prop) (w w' : Ensemble σ ε) : Prop where
  other : ∀ b, ¬left b → (w'.controller b).bonds = (w.controller b).bonds
  bare : ∀ c, left c → w'.Bare c ∧ (w'.controller c).bindings = []
  lifetime : ∀ c, (w'.controller c).held = (w.controller c).held ∧
    (w'.controller c).pins = (w.controller c).pins ∧
    (w'.controller c).dispatcher = (w.controller c).dispatcher ∧
    (w'.controller c).closing = (w.controller c).closing
  attachment : ∀ v, ¬gone v → (w'.view v).attachment = (w.view v).attachment
  detached : ∀ v, gone v → (w'.view v).attachment = none
  signal : ∀ s, w'.signal s = w.signal s ∨
    w'.signal s = (w.signal s).close ∧ ∃ v, gone v ∧ s ∈ viewSignals v
  shut : ∀ v, gone v → (w'.signal (.viewAction v)).closed = true
  dispatcher : ∀ d, w'.dispatcher d = w.dispatcher d

namespace TakenApart

variable {left gone : Nat → Prop} {w w' : Ensemble σ ε}

/-- Nothing was taken apart yet. -/
theorem nothing (w : Ensemble σ ε) : TakenApart (fun _ => False) (fun _ => False) w w where
  other _ _ := rfl
  bare _ h := h.elim
  lifetime _ := ⟨rfl, rfl, rfl, rfl⟩
  attachment _ _ := rfl
  detached _ h := h.elim
  signal _ := .inl rfl
  shut _ h := h.elim
  dispatcher _ := rfl

theorem takeController (taken : TakenApart left gone w w') (c : Nat) :
    TakenApart (fun b => b = c ∨ left b) gone w (takeController c w') where
  other b kept := by
    rw [not_or] at kept
    rw [Ensemble.takeController, controller_updateController_ne _ _ _ kept.1]
    exact taken.other b kept.2
  bare b lost := by
    by_cases here : b = c
    · subst here
      simp [Bare, Ensemble.takeController]
    · rw [Bare, Ensemble.takeController, controller_updateController_ne _ _ _ here]
      exact taken.bare b (lost.resolve_left here)
  lifetime b := by
    by_cases here : b = c
    · subst here
      rw [Ensemble.takeController, controller_updateController_self]
      exact taken.lifetime b
    · rw [Ensemble.takeController, controller_updateController_ne _ _ _ here]
      exact taken.lifetime b
  attachment := taken.attachment
  detached := taken.detached
  signal s := by
    rw [signal_takeController]
    exact taken.signal s
  shut v lost := by
    rw [signal_takeController]
    exact taken.shut v lost
  dispatcher := taken.dispatcher

theorem takeView (taken : TakenApart left gone w w') (v : Nat) :
    TakenApart left (fun u => u = v ∨ gone u) w (takeView v w') where
  other := taken.other
  bare := taken.bare
  lifetime := taken.lifetime
  attachment u kept := by
    rw [not_or] at kept
    rw [Ensemble.takeView, view_updateView_ne _ _ _ kept.1]
    exact taken.attachment u kept.2
  detached u lost := by
    by_cases here : u = v
    · subst here
      rw [Ensemble.takeView, view_updateView_self]
    · rw [Ensemble.takeView, view_updateView_ne _ _ _ here]
      exact taken.detached u (lost.resolve_left here)
  signal s := by
    rw [signal_takeView]
    split
    · next member =>
        refine .inr ⟨?_, v, .inl rfl, member⟩
        rcases taken.signal s with same | ⟨shut, -⟩
        · rw [same]
        · rw [shut]
          rfl
    · exact (taken.signal s).imp_right fun ⟨shut, u, lost, member⟩ => ⟨shut, u, .inr lost, member⟩
  shut u lost := by
    rw [signal_takeView]
    split
    · rfl
    · next other =>
        refine taken.shut u (lost.resolve_left ?_)
        rintro rfl
        exact other List.mem_cons_self
  dispatcher := taken.dispatcher

end TakenApart

/-- The links of what was taken apart. -/
def OfTaken (left gone : Nat → Prop) : Link → Prop
  | .model c | .view c => left c
  | .attachment v => gone v

/-- Once its lines are cut, what nobody holds can be taken out of an intact ensemble. -/
theorem TakenApart.calm {left gone : Nat → Prop} {torn : Option Link}
    {w cleared : Ensemble σ ε} (taken : TakenApart left gone w cleared) (sturdy : Sturdy torn w)
    (idle : ∀ c, ¬left c → w.Idle c) (dead : ∀ c, left c → w.isControllerAlive c = false)
    (unbound : ∀ v, gone v → ∀ c, (cleared.controller c).view ≠ some v)
    {lines : List (Subscription σ)}
    (all : ∀ line, line ∈ lines ↔ ∃ l, OfTaken left gone l ∧ line ∈ w.lines l) :
    Intact torn (cutAll lines cleared) ∧ Routine w (cutAll lines cleared) := by
  have only := onlySignals_cutAll lines cleared
  have bonds : ∀ c, SameBonds cleared (cutAll lines cleared) c :=
    fun c => sameBonds_of_bonds (only.bonds c)
  have settled : StaySettled w (cutAll lines cleared) := by
    intro P s id h
    refine settled_cutAll lines cleared ?_
    rcases taken.signal s with same | ⟨shut, -⟩
    · rw [same]
      exact h
    · rw [shut]
      exact Signal.settled_close _ _ _
  have closed : ∀ s, (w.signal s).closed = true →
      ((cutAll lines cleared).signal s).closed = true := by
    intro s h
    rw [closed_cutAll]
    rcases taken.signal s with same | ⟨shut, -⟩
    · rw [same, h]
    · rw [shut]
      rfl
  have sameAlive : ∀ c,
      (cutAll lines cleared).isControllerAlive c = w.isControllerAlive c := by
    intro c
    obtain ⟨held, pins, -, -⟩ := taken.lifetime c
    have := only.of_controller Controller.isAlive (fun _ => rfl) c
    rw [isControllerAlive, this, isControllerAlive, Controller.isAlive, held, pins]
    rfl
  have phases : ∀ c, ((cutAll lines cleared).controller c).closing = (w.controller c).closing :=
    fun c => (only.of_controller (·.closing) (fun _ => rfl) c).trans (taken.lifetime c).2.2.2
  refine ⟨⟨⟨?_, ?_, ?_⟩, ?_⟩, ?_, phases, ?_⟩
  · refine sturdy.wired.cutLinks (OfTaken left gone) ?_ ?_ ?_ all
    · exact fun s => (taken.signal s).imp_right And.left
    · intro l kept
      refine ⟨SameBonds.sameLink ?_ ?_, Iff.rfl⟩
      · rintro c (rfl | rfl)
        · exact sameBonds_of_bonds (taken.other c kept)
        · exact sameBonds_of_bonds (taken.other c kept)
      · rintro v rfl
        exact taken.attachment v kept
    · intro l lost
      cases l with
      | model c =>
          obtain ⟨⟨model, -, lines, -⟩, -⟩ := taken.bare c lost
          exact ⟨lines, fun _ => by simp [ports, model]⟩
      | view c =>
          obtain ⟨⟨-, view, -, lines⟩, -⟩ := taken.bare c lost
          exact ⟨lines, fun _ => by simp [ports, view]⟩
      | attachment v =>
          have detached := taken.detached v lost
          exact ⟨by simp [Ensemble.lines, detached], fun _ => by simp [ports, detached]⟩
  · -- Only signals of views that are bound to nobody were closed.
    intro s demanded
    have demanded := demanded.of_bonds only.bonds
    rw [closed_cutAll]
    have before : w.Demanded s := by
      cases demanded with
      | @model c m bound =>
          by_cases lost : left c
          · rw [(taken.bare c lost).1.1] at bound
            cases bound
          · exact .model ((sameBonds_of_bonds (taken.other c lost)).1 ▸ bound)
      | @view c v s bound signal =>
          by_cases lost : left c
          · rw [(taken.bare c lost).1.2.1] at bound
            cases bound
          · exact .view ((sameBonds_of_bonds (taken.other c lost)).2.1 ▸ bound) signal
      | @held c s held signal => exact .held ((taken.lifetime c).1 ▸ held) signal
    rcases taken.signal s with same | ⟨-, v, lost, signal⟩
    · rw [same]
      exact sturdy.standing s before
    · cases demanded with
      | model bound => simp [viewSignals] at signal
      | @view c u s bound signal' =>
          have same : v = u := by
            simp only [viewSignals, List.mem_cons, List.not_mem_nil, or_false] at signal signal'
            rcases signal with rfl | rfl | rfl <;> simpa using signal'
          exact absurd (same ▸ bound) (unbound v lost c)
      | held held signal' =>
          simp only [viewSignals, controllerSignals, List.mem_cons, List.not_mem_nil,
            or_false] at signal signal'
          rcases signal with rfl | rfl | rfl <;> simp at signal'
  · intro c s id member
    have bindings := only.of_controller (·.bindings) (fun _ => rfl) c
    rw [bindings] at member
    by_cases lost : left c
    · rw [(taken.bare c lost).2] at member
      cases member
    · obtain ⟨-, -, -, -, -, -, -, same⟩ := Controller.bonds_eq.mp (taken.other c lost)
      exact settled _ s id (sturdy.own c s id (same ▸ member))
  · intro c
    by_cases lost : left c
    · intro _
      obtain ⟨model, view, modelLines, viewLines⟩ := bonds c
      obtain ⟨model', view', modelLines', viewLines'⟩ := (taken.bare c lost).1
      exact ⟨model.trans model', view.trans view', modelLines.trans modelLines',
        viewLines.trans viewLines'⟩
    · exact (idle c lost).of_bonds ((only.bonds c).trans (taken.other c lost))
  · refine ⟨⟨?_, ?_, ?_, ?_, ?_, ?_, closed, settled⟩, fun c => .of_same (sameAlive c)⟩
    · intro c
      rw [only.of_controller (·.pins) (fun _ => rfl) c, (taken.lifetime c).2.1]
    · intro c h
      rwa [only.of_controller (·.held) (fun _ => rfl) c, (taken.lifetime c).1] at h
    · intro c
      rw [only.of_controller (·.dispatcher) (fun _ => rfl) c, (taken.lifetime c).2.2.1]
    · exact fun c h => (phases c).trans h
    · intro c
      obtain ⟨model, view, modelLines, viewLines⟩ := bonds c
      by_cases lost : left c
      · obtain ⟨model', view', modelLines', viewLines'⟩ := (taken.bare c lost).1
        exact .inr ⟨(sameAlive c).trans (dead c lost), model.trans model', view.trans view',
          modelLines.trans modelLines', viewLines.trans viewLines'⟩
      · exact .inl (sameBonds_of_bonds ((only.bonds c).trans (taken.other c lost)))
    · intro v
      rw [only.of_view (·.attachment) (fun _ => rfl) v, closed_cutAll]
      by_cases lost : gone v
      · exact .inr ⟨taken.detached v lost, taken.shut v lost⟩
      · exact .inl (taken.attachment v lost)
  · intro d t waits
    rw [only.dispatcher, taken.dispatcher] at waits
    exact .inl waits

/-! ## Views -/

section Collect

variable {torn : Option Link} {w : Ensemble σ ε}

theorem collectView_eq (run : Runner σ ε) {v : Nat}
    (connections : ∀ line ∈ w.lines (.attachment v), line.isConnection = true) :
    collectView run v w = some ((), withoutView v w) := by
  unfold collectView withoutView
  rw [Proc.get_bind]
  by_cases alive : w.isViewAlive v = true
  · rw [if_pos alive, if_pos alive]
    rfl
  · rw [if_neg alive, if_neg alive]
    exact releaseAll_connections _ (takeView v w) run connections

theorem Intact.withoutView (intact : Intact torn w) (v : Nat) :
    Intact torn (withoutView v w) ∧ Routine w (withoutView v w) := by
  unfold Ensemble.withoutView
  split
  · exact ⟨intact, .refl w⟩
  · next dead =>
      have dead := eq_false_of_ne_true dead
      refine ((TakenApart.nothing w).takeView v).calm intact.toSturdy
        (fun c _ => intact.idle c) (fun c h => h.elim) ?_ ?_
      · rintro u (rfl | h) c bound
        · cases alive : w.isControllerAlive c with
          | true => exact view_ne_of_dead w dead alive bound
          | false =>
              have unbound := (intact.idle c alive).2.1
              exact Option.some_ne_none u (bound.symm.trans unbound)
        · exact h
      · intro line
        constructor
        · exact fun member => ⟨.attachment v, .inl rfl, member⟩
        · rintro ⟨l, lost, member⟩
          cases l with
          | model c | view c => exact lost.elim
          | attachment u =>
              rcases lost with rfl | h
              · exact member
              · exact h.elim

/-! ## Controllers -/

/-- The state after a controller gave up what it has, before its bindings end. -/
def leave (c : Nat) (w : Ensemble σ ε) : Ensemble σ ε :=
  cutAll (w.lines (.model c) ++ w.lines (.view c))
    (match (w.controller c).view with
    | some v => Ensemble.withoutView v (takeController c w)
    | none => takeController c w)

/-- As long as a controller is alive, it is not taken apart. -/
theorem collectController_of_alive (run : Runner σ ε) {c : Nat}
    (alive : w.isControllerAlive c = true) : collectController run c w = some ((), w) := by
  unfold collectController
  rw [Proc.get_bind]
  exact congrFun (if_pos alive) w

theorem collectController_eq (run : Runner σ ε) {c : Nat} (wired : Wired torn w)
    (dead : w.isControllerAlive c = false) :
    collectController run c w = (releaseAll run (w.controller c).bindings >>= fun _ =>
      modify (shutController c)) (leave c w) := by
  have connections : ∀ line ∈ w.lines (.model c) ++ w.lines (.view c),
      line.isConnection = true := by
    intro line member
    rcases List.mem_append.mp member with member | member
    · exact wired.isConnection _ line member
    · exact wired.isConnection _ line member
  have dead : ¬(w.controller c).isAlive = true := by
    simp only [isControllerAlive] at dead
    simp [dead]
  have ending : ∀ between : Ensemble σ ε,
      (releaseAll run ((w.controller c).modelSubscriptions ++ (w.controller c).viewSubscriptions ++
        (w.controller c).bindings) >>= fun _ => modify (shutController c)) between =
      (releaseAll run (w.controller c).bindings >>= fun _ => modify (shutController c))
        (cutAll (w.lines (.model c) ++ w.lines (.view c)) between) := by
    intro between
    have := releaseAll_append _ between run connections (w.controller c).bindings
    show (releaseAll run _ between).bind _ = (releaseAll run _ _).bind _
    rw [← this]
    rfl
  unfold collectController leave
  rw [Proc.get_bind, if_neg dead, Proc.modify_bind]
  cases (w.controller c).view with
  | none => exact ending _
  | some v =>
      have attached : ∀ line ∈ (takeController c w).lines (.attachment v),
          line.isConnection = true := wired.isConnection (.attachment v)
      exact (Proc.bind_eq_of_eq (collectView_eq run attached)).trans (ending _)

theorem leave_calm {c : Nat} (sturdy : Sturdy torn w) (idle : ∀ b, b ≠ c → w.Idle b)
    (dead : w.isControllerAlive c = false) :
    Intact torn (leave c w) ∧ Routine w (leave c w) := by
  have taken := (TakenApart.nothing w).takeController c
  have others : ∀ b, ¬(b = c ∨ False) → w.Idle b := fun b kept => idle b fun h => kept (.inl h)
  have lost : ∀ b, b = c ∨ False → w.isControllerAlive b = false := by
    rintro b (rfl | h)
    · exact dead
    · exact h.elim
  have stays : Intact torn (cutAll (w.lines (.model c) ++ w.lines (.view c)) (takeController c w)) ∧
      Routine w (cutAll (w.lines (.model c) ++ w.lines (.view c)) (takeController c w)) := by
    refine taken.calm sturdy others lost (fun v h => h.elim) fun line => ?_
    rw [List.mem_append]
    constructor
    · rintro (member | member)
      · exact ⟨.model c, .inl rfl, member⟩
      · exact ⟨.view c, .inl rfl, member⟩
    · rintro ⟨l, of, member⟩
      cases l with
      | model b =>
          obtain rfl := of.resolve_right id
          exact .inl member
      | view b =>
          obtain rfl := of.resolve_right id
          exact .inr member
      | attachment v => exact of.elim
  unfold leave
  cases bound : (w.controller c).view with
  | none => exact stays
  | some v =>
      simp only [Ensemble.withoutView]
      split
      · exact stays
      · next gone =>
          have gone := eq_false_of_ne_true gone
          rw [← cutAll_append]
          refine (taken.takeView v).calm sturdy others lost ?_ fun line => ?_
          · rintro u (rfl | h) b bound
            · have alive : (takeController c w).isControllerAlive b = false := by
                cases alive : (takeController c w).isControllerAlive b with
                | true => exact absurd bound (view_ne_of_dead (takeController c w) gone alive)
                | false => rfl
              by_cases here : b = c
              · exact Option.some_ne_none u (bound.symm.trans (taken.bare b (.inl here)).1.2.1)
              · obtain ⟨held, pins, -, -⟩ := taken.lifetime b
                simp only [isControllerAlive, Controller.isAlive, held, pins] at alive
                have same := sameBonds_of_bonds (taken.other b fun h => here (h.resolve_right id))
                have unbound := same.2.1.trans (idle b here alive).2.1
                exact Option.some_ne_none u (bound.symm.trans unbound)
            · exact h
          · rw [List.mem_append, List.mem_append]
            constructor
            · rintro (member | member | member)
              · exact ⟨.attachment v, .inl rfl, member⟩
              · exact ⟨.model c, .inl rfl, member⟩
              · exact ⟨.view c, .inl rfl, member⟩
            · rintro ⟨l, of, member⟩
              cases l with
              | model b =>
                  obtain rfl := of.resolve_right id
                  exact .inr (.inl member)
              | view b =>
                  obtain rfl := of.resolve_right id
                  exact .inr (.inr member)
              | attachment u =>
                  obtain rfl := of.resolve_right id
                  exact .inl member

/-- Closing the signals of a controller that is not held. -/
theorem Intact.shutController (intact : Intact torn w) {c : Nat}
    (dropped : (w.controller c).held = false) :
    Intact torn (shutController c w) ∧ Routine w (shutController c w) := by
  have only : OnlySignals w (Ensemble.shutController c w) := by
    refine ⟨fun _ => rfl, fun _ => rfl, ?_, fun _ => rfl, rfl, rfl⟩
    intro b
    rw [Ensemble.shutController, controller_updateController]
    split
    · next same => rw [same]; rfl
    · rfl
  refine intact.onlySignals only ?_ ?_ ?_ ?_ ?_ ?_
  · intro s
    rw [signal_shutController]
    split
    · exact Signal.sound_close _
    · exact intact.wired.sound s
  · intro s closed
    rw [signal_shutController]
    split
    · rfl
    · exact closed
  · intro s demanded
    rw [signal_shutController, if_neg]
    · exact intact.standing s demanded
    · intro member
      simp only [controllerSignals, List.mem_cons, List.not_mem_nil, or_false] at member
      cases demanded with
      | model bound => simp at member
      | view bound signal =>
          simp only [viewSignals, List.mem_cons, List.not_mem_nil, or_false] at signal
          rcases signal with rfl | rfl | rfl <;> simp at member
      | @held b s held signal =>
          simp only [controllerSignals, List.mem_cons, List.not_mem_nil, or_false] at signal
          have same : b = c := by
            rcases signal with rfl | rfl | rfl <;> simpa using member
          rw [same, dropped] at held
          cases held
  · intro P s id settled
    rw [signal_shutController]
    split
    · exact Signal.settled_close _ _ _
    · exact settled
  · intro s id k l named _
    rw [signal_shutController, slotAt, signal_shutController]
    split
    · exact .inl rfl
    · exact .inr named
  · intro s id k l named _
    rw [slotAt, signal_shutController] at named
    split at named
    · rw [Signal.slot?_close] at named
      cases named
    · exact named

end Collect

end Mvc.Ensemble
