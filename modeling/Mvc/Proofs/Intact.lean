import Mvc.Proofs.Lines

/-! # Intact ensembles

An ensemble is intact if it is wired, if what is bound or held is open, if the bindings of
controllers are the client's own connections, and if controllers that nobody holds have
nothing bound. A frame says what client code leaves as it is: which model and view a living
controller has, with its lines to them, and to whom a view is attached that is not taken
apart.
-/

namespace Mvc

/-- A controller apart from its signals and the steps of its lifecycle. -/
def Controller.bonds {σ : Type} (o : Controller σ) : Controller σ :=
  { o.silent with initialized := false, closing := false }

theorem Controller.bonds_eq {σ : Type} {a b : Controller σ} : a.bonds = b.bonds ↔
    a.held = b.held ∧ a.pins = b.pins ∧ a.dispatcher = b.dispatcher ∧ a.model = b.model ∧
      a.view = b.view ∧ a.modelSubscriptions = b.modelSubscriptions ∧
      a.viewSubscriptions = b.viewSubscriptions ∧ a.bindings = b.bindings := by
  cases a
  cases b
  simp [bonds, silent]

namespace Ensemble

variable {σ ε : Type}

/-- The signals of a view. -/
def viewSignals (v : Nat) : List SignalRef := [.viewAction v, .viewClosing v, .viewUpdate v]

/-- The signals of a controller. -/
def controllerSignals (c : Nat) : List SignalRef :=
  [.controllerError c, .controllerDone c, .controllerPhase c]

/-- A signal belongs to something that is bound or held. -/
inductive Demanded (w : Ensemble σ ε) : SignalRef → Prop where
  | model {c m} (bound : (w.controller c).model = some m) : Demanded w (.modelData m)
  | view {c v s} (bound : (w.controller c).view = some v) (signal : s ∈ viewSignals v) :
      Demanded w s
  | held {c s} (held : (w.controller c).held = true) (signal : s ∈ controllerSignals c) :
      Demanded w s

/-- An id of a signal is the client's own, now and ever. -/
def Own (w : Ensemble σ ε) (s : SignalRef) (id : ConnectionId) : Prop :=
  (w.signal s).Settled (fun k => k.isClient = true) id

/-- What is settled of an id stays settled. -/
def StaySettled (w w' : Ensemble σ ε) : Prop :=
  ∀ (P : Slot σ → Prop) s id, (w.signal s).Settled P id → (w'.signal s).Settled P id

/-- A controller has neither a model nor a view. -/
def Bare (w : Ensemble σ ε) (c : Nat) : Prop :=
  (w.controller c).model = none ∧ (w.controller c).view = none ∧
    (w.controller c).modelSubscriptions = [] ∧ (w.controller c).viewSubscriptions = []

/-- A controller that nobody holds is bare. -/
def Idle (w : Ensemble σ ε) (c : Nat) : Prop := w.isControllerAlive c = false → w.Bare c

/-- Wired, with everything there that is needed. -/
structure Sturdy (torn : Option Link) (w : Ensemble σ ε) : Prop where
  wired : Wired torn w
  standing : ∀ s, w.Demanded s → (w.signal s).closed = false
  own : ∀ c s id, .connection s id ∈ (w.controller c).bindings → w.Own s id

/-- And with nothing there that nobody holds. -/
structure Intact (torn : Option Link) (w : Ensemble σ ε) : Prop extends Sturdy torn w where
  idle : ∀ c, w.Idle c

/-- A controller has what it had, with the same lines. -/
def SameBonds (w w' : Ensemble σ ε) (c : Nat) : Prop :=
  (w'.controller c).model = (w.controller c).model ∧
  (w'.controller c).view = (w.controller c).view ∧
  (w'.controller c).modelSubscriptions = (w.controller c).modelSubscriptions ∧
  (w'.controller c).viewSubscriptions = (w.controller c).viewSubscriptions

/-- The signals of a controller are closed when it is taken apart. -/
def Ended (w w' : Ensemble σ ε) (c : Nat) : Prop :=
  w.isControllerAlive c = true → w'.isControllerAlive c = false →
    ∀ s ∈ controllerSignals c, (w'.signal s).closed = true

/-- What stays as it is. -/
structure Stay (w w' : Ensemble σ ε) : Prop where
  pins : ∀ c, (w'.controller c).pins = (w.controller c).pins
  held : ∀ c, (w'.controller c).held = true → (w.controller c).held = true
  dispatcher : ∀ c, (w'.controller c).dispatcher = (w.controller c).dispatcher
  /-- The closing phase does not end. -/
  closing : ∀ c, (w.controller c).closing = true → (w'.controller c).closing = true
  /-- A controller keeps what it has, unless it was taken apart. -/
  bonds : ∀ c, SameBonds w w' c ∨ w'.isControllerAlive c = false ∧ w'.Bare c
  /-- A view stays attached, unless it was taken apart. -/
  attachment : ∀ v, (w'.view v).attachment = (w.view v).attachment ∨
    (w'.view v).attachment = none ∧ (w'.signal (.viewAction v)).closed = true
  closed : ∀ s, (w.signal s).closed = true → (w'.signal s).closed = true
  settled : StaySettled w w'

/-- What client code leaves as it is. -/
structure Frame (w w' : Ensemble σ ε) : Prop extends Stay w w' where
  ended : ∀ c, Ended w w' c

/-- No controller starts to close, and no connection waits that did not. -/
structure Patient (w w' : Ensemble σ ε) : Prop where
  phases : ∀ c, (w'.controller c).closing = (w.controller c).closing
  queues : ∀ d t, t ∈ (w'.dispatcher d).queue →
    t ∈ (w.dispatcher d).queue ∨ ∃ code, t = .client code

/-- And client code could have done it. -/
structure Routine (w w' : Ensemble σ ε) : Prop extends Frame w w', Patient w w'

/-- And the controllers that are held have the views that they had. -/
structure Untouched (w w' : Ensemble σ ε) : Prop extends Patient w w' where
  views : ∀ c, (w'.controller c).held = true →
    (w.controller c).held = true ∧ (w'.controller c).view = (w.controller c).view
  settled : StaySettled w w'

/-! ## Frames -/

section Frames

variable {a b c : Ensemble σ ε}

theorem Ended.of_same {i : Nat} (alive : b.isControllerAlive i = a.isControllerAlive i) :
    Ended a b i := by
  intro before after
  rw [alive, before] at after
  cases after

theorem Ended.trans {i : Nat} (first : Ended a b i) (second : Ended b c i)
    (closed : ∀ s, (b.signal s).closed = true → (c.signal s).closed = true) : Ended a c i := by
  intro alive gone s member
  cases between : b.isControllerAlive i with
  | true => exact second between gone s member
  | false => exact closed s (first alive between s member)

namespace Stay

/-- Nobody comes to life. -/
theorem dead (stay : Stay a b) {i : Nat} (dead : a.isControllerAlive i = false) :
    b.isControllerAlive i = false := by
  simp only [isControllerAlive, Controller.isAlive, Bool.or_eq_false_iff, decide_eq_false_iff_not,
    stay.pins i] at dead ⊢
  refine ⟨?_, dead.2⟩
  cases held : (b.controller i).held with
  | false => rfl
  | true => rw [← dead.1, stay.held i held]

theorem bare (stay : Stay a b) {i : Nat} (bare : a.Bare i) : b.Bare i := by
  rcases stay.bonds i with ⟨model, view, modelLines, viewLines⟩ | ⟨-, bare⟩
  · exact ⟨model.trans bare.1, view.trans bare.2.1, modelLines.trans bare.2.2.1,
      viewLines.trans bare.2.2.2⟩
  · exact bare

theorem viewless (stay : Stay a b) {i : Nat} (gone : (a.controller i).view = none) :
    (b.controller i).view = none := by
  rcases stay.bonds i with same | ⟨-, bare⟩
  · exact same.2.1.trans gone
  · exact bare.2.1

theorem trans (first : Stay a b) (second : Stay b c) : Stay a c where
  pins i := (second.pins i).trans (first.pins i)
  held i h := first.held i (second.held i h)
  dispatcher i := (second.dispatcher i).trans (first.dispatcher i)
  closing i h := second.closing i (first.closing i h)
  bonds i := by
    rcases first.bonds i with ⟨model, view, modelLines, viewLines⟩ | ⟨dead, bare⟩
    · rcases second.bonds i with ⟨model', view', modelLines', viewLines'⟩ | taken
      · exact .inl ⟨model'.trans model, view'.trans view, modelLines'.trans modelLines,
          viewLines'.trans viewLines⟩
      · exact .inr taken
    · exact .inr ⟨second.dead dead, second.bare bare⟩
  attachment v := by
    rcases second.attachment v with same | taken
    · rcases first.attachment v with same' | ⟨none, closed⟩
      · exact .inl (same.trans same')
      · exact .inr ⟨same.trans none, second.closed _ closed⟩
    · exact .inr taken
  closed s h := second.closed s (first.closed s h)
  settled P s id h := second.settled P s id (first.settled P s id h)

end Stay

namespace Frame

theorem staySettled (frame : Frame a b) : StaySettled a b := frame.settled

theorem refl (w : Ensemble σ ε) : Frame w w where
  pins _ := rfl
  held _ h := h
  dispatcher _ := rfl
  closing _ h := h
  bonds _ := .inl ⟨rfl, rfl, rfl, rfl⟩
  attachment _ := .inl rfl
  closed _ h := h
  settled _ _ _ h := h
  ended _ := .of_same rfl

theorem trans (first : Frame a b) (second : Frame b c) : Frame a c where
  toStay := first.toStay.trans second.toStay
  ended i := (first.ended i).trans (second.ended i) second.closed

/-- A controller lost a holder, and was taken apart if that was the last one. -/
theorem collected {i : Nat} (stay : Stay a b) (others : ∀ j, j ≠ i → Ended a b j)
    (rest : Frame b c) (shut : b.isControllerAlive i = false →
      ∀ s ∈ controllerSignals i, (c.signal s).closed = true) : Frame a c where
  toStay := stay.trans rest.toStay
  ended j := by
    by_cases here : j = i
    · subst here
      intro _ gone s member
      cases between : b.isControllerAlive j with
      | true => exact rest.ended j between gone s member
      | false => exact shut between s member
    · exact (others j here).trans (rest.ended j) rest.closed

/-- Nothing changed but signals and the lifecycles of controllers. -/
theorem of_bonds (bonds : ∀ c, (b.controller c).bonds = (a.controller c).bonds)
    (closing : ∀ c, (a.controller c).closing = true → (b.controller c).closing = true)
    (attachment : ∀ v, (b.view v).attachment = (a.view v).attachment)
    (closed : ∀ s, (a.signal s).closed = true → (b.signal s).closed = true)
    (settled : StaySettled a b) : Frame a b where
  pins c := (Controller.bonds_eq.mp (bonds c)).2.1
  held c h := (Controller.bonds_eq.mp (bonds c)).1 ▸ h
  dispatcher c := (Controller.bonds_eq.mp (bonds c)).2.2.1
  closing := closing
  bonds c := by
    obtain ⟨-, -, -, model, view, modelLines, viewLines, -⟩ := Controller.bonds_eq.mp (bonds c)
    exact .inl ⟨model, view, modelLines, viewLines⟩
  attachment v := .inl (attachment v)
  closed := closed
  settled := settled
  ended c := by
    obtain ⟨held, pins, -⟩ := Controller.bonds_eq.mp (bonds c)
    exact .of_same (by simp only [isControllerAlive, Controller.isAlive, held, pins])

end Frame

end Frames

namespace Untouched

variable {a b c : Ensemble σ ε}

theorem trans (first : Untouched a b) (second : Untouched b c) : Untouched a c where
  phases i := (second.phases i).trans (first.phases i)
  queues d t waits := by
    rcases second.queues d t waits with before | client
    · exact first.queues d t before
    · exact .inr client
  views i h := by
    obtain ⟨held, view⟩ := second.views i h
    obtain ⟨held', view'⟩ := first.views i held
    exact ⟨held', view.trans view'⟩
  settled P s id h := second.settled P s id (first.settled P s id h)

theorem refl (w : Ensemble σ ε) : Untouched w w :=
  ⟨⟨fun _ => rfl, fun _ _ waits => .inl waits⟩, fun _ h => ⟨h, rfl⟩, fun _ _ _ h => h⟩

theorem of_onlySignals (only : OnlySignals a b) (settled : StaySettled a b) : Untouched a b where
  phases := only.of_controller (·.closing) fun _ => rfl
  queues d t waits := by
    rw [only.dispatcher] at waits
    exact .inl waits
  views i h := by
    rw [only.of_controller (·.held) fun _ => rfl] at h
    exact ⟨h, only.of_controller (·.view) (fun _ => rfl) i⟩
  settled := settled

theorem updateController (w : Ensemble σ ε) (i : Nat) {f : Controller σ → Controller σ}
    (signals : ∀ o, (f o).phaseChanged = o.phaseChanged ∧ (f o).errorOccurred = o.errorOccurred ∧
      (f o).operationCompleted = o.operationCompleted)
    (closing : ∀ o, (f o).closing = o.closing) (view : ∀ o, (f o).view = o.view)
    (less : ∀ o, (f o).held = true → o.held = true) :
    Untouched w (Ensemble.updateController i f w) where
  phases := blind_updateController w i f (·.closing) closing
  queues _ _ waits := .inl waits
  views j h := by
    refine ⟨?_, blind_updateController w i f (·.view) view j⟩
    rw [controller_updateController] at h
    split at h
    · next here => exact here ▸ less _ h
    · exact h
  settled P s id h := by rwa [signal_updateController w i signals]

theorem updateView (w : Ensemble σ ε) (v : Nat) {f : View σ → View σ}
    (signals : ∀ o, (f o).userAction = o.userAction ∧ (f o).viewClosing = o.viewClosing ∧
      (f o).viewUpdate = o.viewUpdate) : Untouched w (Ensemble.updateView v f w) where
  phases _ := rfl
  queues _ _ waits := .inl waits
  views _ h := ⟨h, rfl⟩
  settled P s id h := by rwa [signal_updateView w v signals]

end Untouched

namespace Routine

variable {a b c : Ensemble σ ε}

theorem refl (w : Ensemble σ ε) : Routine w w :=
  ⟨.refl w, fun _ => rfl, fun _ _ waits => .inl waits⟩

theorem untouched (routine : Routine a b) : Untouched a b where
  toPatient := routine.toPatient
  views c h := by
    refine ⟨routine.held c h, ((routine.bonds c).resolve_right fun taken => ?_).2.1⟩
    simp [isControllerAlive, Controller.isAlive, h] at taken
  settled := routine.settled

end Routine

/-! ## Changes that leave everything intact -/

variable {torn : Option Link} {w w' : Ensemble σ ε}

theorem SameBonds.sameLink {l : Link}
    (bonds : ∀ c, l = .model c ∨ l = .view c → SameBonds w w' c)
    (attachment : ∀ v, l = .attachment v → (w'.view v).attachment = (w.view v).attachment) :
    SameLink w w' l := by
  cases l with
  | model c =>
      obtain ⟨model, -, lines, -⟩ := bonds c (.inl rfl)
      exact ⟨by simp only [ports, model], lines⟩
  | view c =>
      obtain ⟨-, view, -, lines⟩ := bonds c (.inr rfl)
      exact ⟨by simp only [ports, view], lines⟩
  | attachment v =>
      have same := attachment v rfl
      exact ⟨by simp only [ports, same], by simp only [Ensemble.lines, same]⟩

theorem sameBonds_of_bonds {c : Nat} (bonds : (w'.controller c).bonds = (w.controller c).bonds) :
    SameBonds w w' c := by
  obtain ⟨-, -, -, model, view, modelLines, viewLines, -⟩ := Controller.bonds_eq.mp bonds
  exact ⟨model, view, modelLines, viewLines⟩

theorem Demanded.of_bonds {s : SignalRef} (demanded : w'.Demanded s)
    (bonds : ∀ c, (w'.controller c).bonds = (w.controller c).bonds) : w.Demanded s := by
  cases demanded with
  | model bound => exact .model ((Controller.bonds_eq.mp (bonds _)).2.2.2.1 ▸ bound)
  | view bound signal =>
      exact .view ((Controller.bonds_eq.mp (bonds _)).2.2.2.2.1 ▸ bound) signal
  | held held signal => exact .held ((Controller.bonds_eq.mp (bonds _)).1 ▸ held) signal

theorem Idle.of_bonds {c : Nat} (idle : w.Idle c)
    (bonds : (w'.controller c).bonds = (w.controller c).bonds) : w'.Idle c := by
  intro dead
  obtain ⟨held, pins, -, model, view, modelLines, viewLines, -⟩ := Controller.bonds_eq.mp bonds
  simp only [isControllerAlive, Controller.isAlive, held, pins] at dead
  obtain ⟨model', view', modelLines', viewLines'⟩ := idle dead
  exact ⟨model.trans model', view.trans view', modelLines.trans modelLines',
    viewLines.trans viewLines'⟩

/-- Signals are the same, and so is everything about controllers and views that wiring looks
    at. -/
theorem Intact.of_same (intact : Intact torn w) (signals : ∀ s, w'.signal s = w.signal s)
    (bonds : ∀ c, (w'.controller c).bonds = (w.controller c).bonds)
    (closing : ∀ c, (w.controller c).closing = true → (w'.controller c).closing = true)
    (attachment : ∀ v, (w'.view v).attachment = (w.view v).attachment) :
    Intact torn w' ∧ Frame w w' := by
  have settled : StaySettled w w' := fun P s id h => by rw [signals s]; exact h
  have frame : Frame w w' := .of_bonds bonds closing attachment
    (fun s h => by rw [signals s, h]) settled
  refine ⟨⟨⟨?_, ?_, ?_⟩, fun c => (intact.idle c).of_bonds (bonds c)⟩, frame⟩
  · exact intact.wired.of_same signals fun l =>
      SameBonds.sameLink (fun c _ => sameBonds_of_bonds (bonds c)) fun v _ => attachment v
  · intro s demanded
    rw [signals s]
    exact intact.standing s (demanded.of_bonds bonds)
  · intro c s id member
    obtain ⟨-, -, -, -, -, -, -, bindings⟩ := Controller.bonds_eq.mp (bonds c)
    exact settled _ s id (intact.own c s id (bindings ▸ member))

/-- And no controller starts to close. -/
theorem Intact.routine (intact : Intact torn w) (signals : ∀ s, w'.signal s = w.signal s)
    (bonds : ∀ c, (w'.controller c).bonds = (w.controller c).bonds)
    (phases : ∀ c, (w'.controller c).closing = (w.controller c).closing)
    (attachment : ∀ v, (w'.view v).attachment = (w.view v).attachment)
    (queues : ∀ d t, t ∈ (w'.dispatcher d).queue →
      t ∈ (w.dispatcher d).queue ∨ ∃ code, t = .client code) :
    Intact torn w' ∧ Routine w w' := by
  obtain ⟨intact', frame⟩ := intact.of_same signals bonds (fun c h => (phases c).trans h) attachment
  exact ⟨intact', frame, phases, queues⟩

/-- A controller gains or loses a holder. -/
theorem Sturdy.of_lifetime (sturdy : Sturdy torn w) (signals : ∀ s, w'.signal s = w.signal s)
    (bonds : ∀ c, SameBonds w w' c) (attachment : ∀ v, (w'.view v).attachment =
      (w.view v).attachment)
    (held : ∀ c, (w'.controller c).held = true → (w.controller c).held = true)
    (bindings : ∀ c, (w'.controller c).bindings = (w.controller c).bindings) :
    Sturdy torn w' where
  wired := sturdy.wired.of_same signals fun l =>
    SameBonds.sameLink (fun c _ => bonds c) fun v _ => attachment v
  standing s demanded := by
    rw [signals s]
    refine sturdy.standing s ?_
    cases demanded with
    | model bound => exact .model ((bonds _).1 ▸ bound)
    | view bound signal => exact .view ((bonds _).2.1 ▸ bound) signal
    | held isHeld signal => exact .held (held _ isHeld) signal
  own c s id member := by
    rw [Own, signals s]
    exact sturdy.own c s id (bindings c ▸ member)

theorem OnlySignals.bonds (only : OnlySignals w w') (c : Nat) :
    (w'.controller c).bonds = (w.controller c).bonds :=
  only.of_controller Controller.bonds (fun _ => rfl) c

/-- Only signals change: the slots of links are kept, and nothing closes that is needed. -/
theorem Intact.onlySignals (intact : Intact torn w) (only : OnlySignals w w')
    (sound : ∀ s, (w'.signal s).Sound)
    (closed : ∀ s, (w.signal s).closed = true → (w'.signal s).closed = true)
    (standing : ∀ s, w.Demanded s → (w'.signal s).closed = false)
    (settled : StaySettled w w')
    (kept : ∀ s id k l, w.slotAt s id = some k → k.link? = some l →
      (w'.signal s).closed = true ∨ w'.slotAt s id = some k)
    (made : ∀ s id k l, w'.slotAt s id = some k → k.link? = some l → w.slotAt s id = some k) :
    Intact torn w' ∧ Routine w w' := by
  have bonds := only.bonds
  have phases := only.of_controller (·.closing) fun _ => rfl
  refine ⟨⟨⟨?_, ?_, ?_⟩, fun c => (intact.idle c).of_bonds (bonds c)⟩, ?_, phases, ?_⟩
  · exact intact.wired.keep sound closed only.sameLink kept made
  · exact fun s demanded => standing s (demanded.of_bonds bonds)
  · intro c s id member
    have bindings := only.of_controller (·.bindings) (fun _ => rfl) c
    exact settled _ s id (intact.own c s id (bindings ▸ member))
  · refine .of_bonds bonds ?_ ?_ closed settled
    · exact fun c h => (phases c).trans h
    · exact fun v => only.of_view (·.attachment) (fun _ => rfl) v
  · intro d t waits
    rw [only.dispatcher] at waits
    exact .inl waits

/-- One signal is replaced: the slots of links are kept, and it does not close if needed. -/
theorem Intact.setSignal (intact : Intact torn w) {s : SignalRef} {x : Signal (Slot σ)}
    (sound : x.Sound) (closed : (w.signal s).closed = true → x.closed = true)
    (standing : w.Demanded s → x.closed = false)
    (settled : ∀ (P : Slot σ → Prop) id, (w.signal s).Settled P id → x.Settled P id)
    (kept : ∀ id k l, w.slotAt s id = some k → k.link? = some l →
      x.closed = true ∨ x.slot? id = some k)
    (made : ∀ id k l, x.slot? id = some k → k.link? = some l → w.slotAt s id = some k) :
    Intact torn (Ensemble.setSignal s x w) ∧ Routine w (Ensemble.setSignal s x w) := by
  refine intact.onlySignals (.setSignal w s x) ?_ ?_ ?_ ?_ ?_ ?_
  · intro t
    rw [signal_setSignal]
    split
    · exact sound
    · exact intact.wired.sound t
  · intro t before
    rw [signal_setSignal]
    split
    · next same => exact closed (same ▸ before)
    · exact before
  · intro t demanded
    rw [signal_setSignal]
    split
    · next same => exact standing (same ▸ demanded)
    · exact intact.standing t demanded
  · intro P t id before
    rw [signal_setSignal]
    split
    · next same => exact settled P id (same ▸ before)
    · exact before
  · intro t id k l named link
    rw [signal_setSignal, slotAt_setSignal]
    split
    · next same => exact kept id k l (same ▸ named) link
    · exact .inr named
  · intro t id k l named link
    rw [slotAt_setSignal] at named
    split at named
    · next same => exact same ▸ made id k l named link
    · exact named

/-! ## New objects -/

/-- Nothing is connected, bound or waiting yet. -/
structure Fresh (w : Ensemble σ ε) : Prop where
  signals : ∀ s, w.signal s = .new
  controllers : ∀ c, (w.controller c).held = true ∧ (w.controller c).pins = 0 ∧
    (w.controller c).bindings = [] ∧ w.Bare c
  views : ∀ v, (w.view v).attachment = none
  phases : ∀ c, (w.controller c).closing = false
  queues : ∀ d, (w.dispatcher d).queue = []

theorem Fresh.intact (fresh : Fresh w) : Intact none w where
  wired := by
    refine ⟨fun s => fresh.signals s ▸ Signal.sound_new, ?_, fun l _ => ?_, fun l h => by cases h⟩
    · intro s id k l named
      rw [slotAt, fresh.signals, Signal.slot?_new] at named
      cases named
    · cases l with
      | model c | view c =>
          obtain ⟨-, -, -, model, view, lines⟩ := fresh.controllers c
          simp [ports, Ensemble.lines, model, view, lines]
      | attachment v => simp [ports, lines, fresh.views v]
  standing s _ := by
    rw [fresh.signals]
    rfl
  own c s id member := by
    rw [(fresh.controllers c).2.2.1] at member
    cases member
  idle c _ := (fresh.controllers c).2.2.2

theorem fresh_new (client : ε) : Fresh (new client : Ensemble σ ε) where
  signals s := by cases s <;> rfl
  controllers _ := ⟨rfl, rfl, rfl, rfl, rfl, rfl, rfl⟩
  views _ := rfl
  phases _ := rfl
  queues _ := rfl

/-- A controller without bindings may be given another dispatcher. -/
theorem Fresh.redirect (fresh : Fresh w) (c : Nat) {f : Controller σ → Controller σ}
    (same : ∀ o, { f o with dispatcher := o.dispatcher } = o) :
    Fresh (updateController c f w) where
  signals s := by
    rw [signal_updateController w c fun o => ?_, fresh.signals]
    exact ⟨congrArg (·.phaseChanged) (same o), congrArg (·.errorOccurred) (same o),
      congrArg (·.operationCompleted) (same o)⟩
  controllers b := by
    have part {α : Type} (g : Controller σ → α)
        (blind : ∀ o d, g { o with dispatcher := d } = g o) :=
      blind_updateController w c f g (fun o => (blind _ _).symm.trans (congrArg g (same o))) b
    obtain ⟨held, pins, bindings, model, view, models, views⟩ := fresh.controllers b
    exact ⟨(part (·.held) fun _ _ => rfl).trans held, (part (·.pins) fun _ _ => rfl).trans pins,
      (part (·.bindings) fun _ _ => rfl).trans bindings,
      (part (·.model) fun _ _ => rfl).trans model, (part (·.view) fun _ _ => rfl).trans view,
      (part (·.modelSubscriptions) fun _ _ => rfl).trans models,
      (part (·.viewSubscriptions) fun _ _ => rfl).trans views⟩
  views := fresh.views
  phases b := (blind_updateController w c f (·.closing)
    (fun o => congrArg (·.closing) (same o)) b).trans (fresh.phases b)
  queues := fresh.queues

end Ensemble

end Mvc
