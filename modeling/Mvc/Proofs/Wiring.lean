import Mathlib.Data.List.Forall2
import Mvc.Ensemble.Emission
import Mvc.Proofs.Procedure
import Mvc.Proofs.Registry
import Mvc.Proofs.State

/-! # How objects are wired

A link is one object's side of what it listens to: a controller's to its model, a
controller's to its view, and a view's to the controller that it is attached to. What is
bound says which slots a link has at which signals, its ports. Its subscriptions are its
lines.

In a wired ensemble every port is plugged by a line, and a slot of a link is nowhere but where
the link has a line to. A link may be torn for a while, when its old lines are cut and the
new ones are not there yet; then it has no lines.
-/

namespace Mvc

/-- One object's side of what it listens to. -/
inductive Link where
  /-- A controller listens to its model. -/
  | model (controller : Nat)
  /-- A controller listens to its view. -/
  | view (controller : Nat)
  /-- A view listens to its controller. -/
  | attachment (view : Nat)
  deriving DecidableEq

namespace Slot

variable {σ : Type}

/-- The link that a slot belongs to, unless it is the client's. -/
def link? : Slot σ → Option Link
  | .controllerData c => some (.model c)
  | .controllerAction c | .controllerClosing c | .controllerUpdate c => some (.view c)
  | .viewError v | .viewInfo v | .viewPhase v => some (.attachment v)
  | .client _ => none

/-- Whether a slot is the client's. -/
def isClient (k : Slot σ) : Bool := k.link?.isNone

theorem not_isClient_of_link {k : Slot σ} {l : Link} (h : k.link? = some l) :
    k.isClient = false := by
  simp [isClient, h]

end Slot

/-- Whether a subscription is a connection. -/
def Subscription.isConnection {σ : Type} : Subscription σ → Bool
  | .connection .. => true
  | .client _ => false

namespace Ensemble

variable {σ ε : Type}

/-- The slot that an id of a signal names. -/
def slotAt (w : Ensemble σ ε) (s : SignalRef) (id : ConnectionId) : Option (Slot σ) :=
  (w.signal s).slot? id

/-- The ports of a controller at its model. -/
def modelPorts (c m : Nat) : List (SignalRef × Slot σ) := [(.modelData m, .controllerData c)]

/-- The ports of a controller at its view. -/
def viewPorts (c v : Nat) : List (SignalRef × Slot σ) :=
  [(.viewAction v, .controllerAction c), (.viewClosing v, .controllerClosing c),
    (.viewUpdate v, .controllerUpdate c)]

/-- The ports of a view at its controller. -/
def attachmentPorts (v c : Nat) : List (SignalRef × Slot σ) :=
  [(.controllerError c, .viewError v), (.controllerDone c, .viewInfo v),
    (.controllerPhase c, .viewPhase v)]

theorem link_modelPorts (c m : Nat) : ∀ port ∈ modelPorts c m,
    (port : SignalRef × Slot σ).2.link? = some (.model c) := by
  simp [modelPorts, Slot.link?]

theorem link_viewPorts (c v : Nat) : ∀ port ∈ viewPorts c v,
    (port : SignalRef × Slot σ).2.link? = some (.view c) := by
  simp [viewPorts, Slot.link?]

theorem link_attachmentPorts (v c : Nat) : ∀ port ∈ attachmentPorts v c,
    (port : SignalRef × Slot σ).2.link? = some (.attachment v) := by
  simp [attachmentPorts, Slot.link?]

/-- Where a link listens. -/
def ports (w : Ensemble σ ε) : Link → List (SignalRef × Slot σ)
  | .model c => ((w.controller c).model.map (modelPorts c)).getD []
  | .view c => ((w.controller c).view.map (viewPorts c)).getD []
  | .attachment v => ((w.view v).attachment.map fun a => attachmentPorts v a.controller).getD []

/-- The subscriptions of a link. -/
def lines (w : Ensemble σ ε) : Link → List (Subscription σ)
  | .model c => (w.controller c).modelSubscriptions
  | .view c => (w.controller c).viewSubscriptions
  | .attachment v => ((w.view v).attachment.map (·.subscriptions)).getD []

/-- A line of a link ends the connection of a port, or the port's signal is closed. -/
def Plugged (w : Ensemble σ ε) (l : Link) (port : SignalRef × Slot σ) (line : Subscription σ) :
    Prop :=
  port.2.link? = some l ∧ ∃ id, line = .connection port.1 id ∧
    ((w.signal port.1).closed = true ∨ w.slotAt port.1 id = some port.2)

/-- Every port is plugged, and every slot of a link is at the end of one of its lines. -/
structure Wired (torn : Option Link) (w : Ensemble σ ε) : Prop where
  sound : ∀ s, (w.signal s).Sound
  booked : ∀ {s id k l}, w.slotAt s id = some k → k.link? = some l →
    .connection s id ∈ w.lines l
  plugged : ∀ l, torn ≠ some l → List.Forall₂ (w.Plugged l) (w.ports l) (w.lines l)
  torn : ∀ l, torn = some l → w.lines l = []

/-- A link is as it was. -/
def SameLink (w w' : Ensemble σ ε) (l : Link) : Prop :=
  w'.ports l = w.ports l ∧ w'.lines l = w.lines l

theorem slotAt_of_closed {w : Ensemble σ ε} {s : SignalRef} (sound : (w.signal s).Sound)
    (closed : (w.signal s).closed = true) (id : ConnectionId) : w.slotAt s id = none :=
  Signal.slot?_of_closed sound closed id

/-! ## Links after a change -/

section SameLink

variable (w : Ensemble σ ε)

theorem sameLink_updateController (c : Nat) {f : Controller σ → Controller σ} {l : Link}
    (model : l = .model c → ∀ o, (f o).model = o.model ∧
      (f o).modelSubscriptions = o.modelSubscriptions)
    (view : l = .view c → ∀ o, (f o).view = o.view ∧
      (f o).viewSubscriptions = o.viewSubscriptions) :
    SameLink w (updateController c f w) l := by
  cases l with
  | model b =>
      simp only [SameLink, ports, lines, controller_updateController]
      split
      · next same =>
          subst same
          simp [model rfl]
      · exact ⟨rfl, rfl⟩
  | view b =>
      simp only [SameLink, ports, lines, controller_updateController]
      split
      · next same =>
          subst same
          simp [view rfl]
      · exact ⟨rfl, rfl⟩
  | attachment v => exact ⟨rfl, rfl⟩

theorem sameLink_updateView (v : Nat) {f : View σ → View σ} {l : Link}
    (spared : l = .attachment v → ∀ o, (f o).attachment = o.attachment) :
    SameLink w (updateView v f w) l := by
  cases l with
  | model c | view c => exact ⟨rfl, rfl⟩
  | attachment u =>
      simp only [SameLink, ports, lines, view_updateView]
      split
      · next same =>
          subst same
          simp [spared rfl]
      · exact ⟨rfl, rfl⟩

theorem OnlySignals.sameLink {w w' : Ensemble σ ε} (only : OnlySignals w w') (l : Link) :
    SameLink w w' l := by
  cases l with
  | model c =>
      have model := only.of_controller (·.model) (fun _ => rfl) c
      have lines := only.of_controller (·.modelSubscriptions) (fun _ => rfl) c
      exact ⟨by simp only [ports, model], lines⟩
  | view c =>
      have view := only.of_controller (·.view) (fun _ => rfl) c
      exact ⟨by simp only [ports, view], only.of_controller (·.viewSubscriptions) (fun _ => rfl) c⟩
  | attachment v =>
      have attachment := only.of_view (·.attachment) (fun _ => rfl) v
      exact ⟨by simp only [ports, attachment], by simp only [lines, attachment]⟩

theorem slotAt_setSignal (s : SignalRef) (x : Signal (Slot σ)) (t : SignalRef)
    (id : ConnectionId) :
    (setSignal s x w).slotAt t id = if t = s then x.slot? id else w.slotAt t id := by
  simp only [slotAt, signal_setSignal]
  split <;> rfl

end SameLink

/-! ## Wired ensembles -/

theorem Plugged.imp {w w' : Ensemble σ ε} {l : Link} {port : SignalRef × Slot σ}
    {line : Subscription σ} (plugged : w.Plugged l port line)
    (closed : ∀ s, (w.signal s).closed = true → (w'.signal s).closed = true)
    (kept : ∀ s id k, line = .connection s id → w.slotAt s id = some k → k.link? = some l →
      (w'.signal s).closed = true ∨ w'.slotAt s id = some k) :
    w'.Plugged l port line := by
  obtain ⟨link, id, named, before⟩ := plugged
  refine ⟨link, id, named, ?_⟩
  rcases before with already | there
  · exact .inl (closed _ already)
  · exact kept _ id _ named there link

theorem isConnection_of_plugged {w : Ensemble σ ε} {l : Link} {ports : List (SignalRef × Slot σ)}
    {lines : List (Subscription σ)} (plugged : List.Forall₂ (w.Plugged l) ports lines) :
    ∀ line ∈ lines, line.isConnection = true := by
  induction plugged with
  | nil => simp
  | cons first rest ih =>
      obtain ⟨-, id, named, -⟩ := first
      intro line member
      rcases List.mem_cons.mp member with rfl | member
      · rw [named]
        rfl
      · exact ih line member

/-- What a line's id names is one of the link's ports. -/
theorem port_of_plugged {w : Ensemble σ ε} (sound : ∀ s, (w.signal s).Sound) {l : Link}
    {ports : List (SignalRef × Slot σ)} {lines : List (Subscription σ)}
    (plugged : List.Forall₂ (w.Plugged l) ports lines) {s : SignalRef} {id : ConnectionId}
    {k : Slot σ} (member : .connection s id ∈ lines) (named : w.slotAt s id = some k) :
    (s, k) ∈ ports ∧ k.link? = some l := by
  induction plugged with
  | nil => cases member
  | cons first rest ih =>
      rcases List.mem_cons.mp member with same | member
      · obtain ⟨link, id', rfl, before⟩ := first
        cases same
        rcases before with closed | there
        · rw [slotAt_of_closed (sound _) closed] at named
          cases named
        · rw [named] at there
          cases there
          exact ⟨List.mem_cons_self, link⟩
      · obtain ⟨port, link⟩ := ih member
        exact ⟨List.mem_cons_of_mem _ port, link⟩

namespace Wired

variable {torn torn' : Option Link} {w w' : Ensemble σ ε}

theorem isConnection (wired : Wired torn w) (l : Link) :
    ∀ line ∈ w.lines l, line.isConnection = true := by
  by_cases h : torn = some l
  · rw [wired.torn l h]
    simp
  · exact isConnection_of_plugged (wired.plugged l h)

/-- What a line's id names is a port of the line's link. -/
theorem port_of_line (wired : Wired torn w) {s : SignalRef} {id : ConnectionId} {k : Slot σ}
    {l : Link} (member : .connection s id ∈ w.lines l) (named : w.slotAt s id = some k) :
    (s, k) ∈ w.ports l ∧ k.link? = some l := by
  by_cases h : torn = some l
  · rw [wired.torn l h] at member
    cases member
  · exact port_of_plugged wired.sound (wired.plugged l h) member named

/-- A connected slot of a link is at one of the link's ports. -/
theorem port_of_slot (wired : Wired torn w) {s : SignalRef} {id : ConnectionId} {k : Slot σ}
    {l : Link} (named : w.slotAt s id = some k) (link : k.link? = some l) : (s, k) ∈ w.ports l :=
  (wired.port_of_line (wired.booked named link) named).1

/-- Links other than some are as they were, with the slots that they had, and these are
    plugged anew. -/
theorem change (wired : Wired torn w) (relinked : Link → Prop)
    (sound : ∀ s, (w'.signal s).Sound)
    (closed : ∀ s, (w.signal s).closed = true → (w'.signal s).closed = true)
    (same : ∀ l, ¬relinked l → SameLink w w' l ∧ (torn' = some l ↔ torn = some l))
    (kept : ∀ s id k l, w.slotAt s id = some k → k.link? = some l → ¬relinked l →
      (w'.signal s).closed = true ∨ w'.slotAt s id = some k)
    (made : ∀ s id k l, w'.slotAt s id = some k → k.link? = some l → ¬relinked l →
      w.slotAt s id = some k)
    (booked : ∀ s id k l, w'.slotAt s id = some k → k.link? = some l → relinked l →
      .connection s id ∈ w'.lines l)
    (plugged : ∀ l, relinked l → torn' ≠ some l →
      List.Forall₂ (w'.Plugged l) (w'.ports l) (w'.lines l))
    (bare : ∀ l, relinked l → torn' = some l → w'.lines l = []) : Wired torn' w' where
  sound := sound
  booked := by
    intro s id k l named link
    by_cases h : relinked l
    · exact booked s id k l named link h
    · rw [(same l h).1.2]
      exact wired.booked (made s id k l named link h) link
  plugged := by
    intro l untorn
    by_cases h : relinked l
    · exact plugged l h untorn
    · obtain ⟨⟨ports, lines⟩, tearing⟩ := same l h
      rw [ports, lines]
      refine (wired.plugged l (fun t => untorn (tearing.mpr t))).imp fun _ _ before => ?_
      exact before.imp closed fun s id k _ named link => kept s id k l named link h
  torn := by
    intro l t
    by_cases h : relinked l
    · exact bare l h t
    · obtain ⟨⟨-, lines⟩, tearing⟩ := same l h
      rw [lines]
      exact wired.torn l (tearing.mp t)

/-- All links are as they were, with the slots that they had. -/
theorem keep (wired : Wired torn w) (sound : ∀ s, (w'.signal s).Sound)
    (closed : ∀ s, (w.signal s).closed = true → (w'.signal s).closed = true)
    (same : ∀ l, SameLink w w' l)
    (kept : ∀ s id k l, w.slotAt s id = some k → k.link? = some l →
      (w'.signal s).closed = true ∨ w'.slotAt s id = some k)
    (made : ∀ s id k l, w'.slotAt s id = some k → k.link? = some l → w.slotAt s id = some k) :
    Wired torn w' :=
  wired.change (fun _ => False) sound closed (fun l _ => ⟨same l, Iff.rfl⟩)
    (fun s id k l named link _ => kept s id k l named link)
    (fun s id k l named link _ => made s id k l named link)
    (fun _ _ _ _ _ _ h => h.elim) (fun _ h => h.elim) fun _ h => h.elim

/-- All links and all signals are as they were. -/
theorem of_same (wired : Wired torn w) (signals : ∀ s, w'.signal s = w.signal s)
    (same : ∀ l, SameLink w w' l) : Wired torn w' := by
  refine wired.keep ?_ ?_ same ?_ ?_
  · exact fun s => signals s ▸ wired.sound s
  · exact fun s closed => by rw [signals s, closed]
  · exact fun s id k l named _ => .inr (by rw [slotAt, signals s]; exact named)
  · exact fun s id k l named _ => by rwa [slotAt, signals s] at named

end Wired

end Ensemble

end Mvc
