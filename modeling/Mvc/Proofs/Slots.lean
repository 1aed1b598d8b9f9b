import Mathlib.Data.List.Nodup
import Mvc.Proofs.Intact

/-! # Which slots a signal carries

In a wired ensemble a signal carries the slot of a link exactly once if the link has a port
there, and not at all otherwise. So a model and a view carry the slots of the controllers that
are bound to them.
-/

namespace Mvc

namespace Slot

variable {σ : Type}

/-- The controller that a slot belongs to. -/
def controller? : Slot σ → Option Nat
  | .controllerData c | .controllerAction c | .controllerClosing c | .controllerUpdate c => some c
  | _ => none

/-- The view that a slot belongs to. -/
def view? : Slot σ → Option Nat
  | .viewError v | .viewInfo v | .viewPhase v => some v
  | _ => none

theorem controller?_eq_some {k : Slot σ} {c : Nat} :
    k.controller? = some c ↔ k.link? = some (.model c) ∨ k.link? = some (.view c) := by
  cases k <;> simp [controller?, link?]

theorem view?_eq_some {k : Slot σ} {v : Nat} :
    k.view? = some v ↔ k.link? = some (.attachment v) := by
  cases k <;> simp [view?, link?]

end Slot

namespace Ensemble

variable {σ ε : Type} {w : Ensemble σ ε}

/-- The slots of a signal's connections that belong to a controller. -/
def controllerSlots (w : Ensemble σ ε) (s : SignalRef) (c : Nat) : List (Slot σ) :=
  ((w.signal s).connections.map (·.2.slot)).filter (·.controller? = some c)

/-- The slots of a signal's connections that belong to a view. -/
def viewSlots (w : Ensemble σ ε) (s : SignalRef) (v : Nat) : List (Slot σ) :=
  ((w.signal s).connections.map (·.2.slot)).filter (·.view? = some v)

theorem mem_connections {s : SignalRef} {id : ConnectionId} {c : Connection (Slot σ)} :
    (id, c) ∈ (w.signal s).connections ↔ (w.signal s).registry.get? id = some c :=
  Registry.mem_entries

theorem slotAt_of_mem {s : SignalRef} {id : ConnectionId} {c : Connection (Slot σ)}
    (member : (id, c) ∈ (w.signal s).connections) : w.slotAt s id = some c.slot := by
  simp [slotAt, Signal.slot?, mem_connections.mp member]

/-- A property that holds of no named slot holds of no connected slot. -/
theorem slots_eq_nil {s : SignalRef} {p : Slot σ → Bool}
    (absent : ∀ id k, w.slotAt s id = some k → p k = false) :
    ((w.signal s).connections.map (·.2.slot)).filter p = [] := by
  refine List.filter_eq_nil_iff.mpr fun k member => ?_
  obtain ⟨⟨id, c⟩, listed, rfl⟩ := List.mem_map.mp member
  simp [absent id c.slot (slotAt_of_mem listed)]

/-- A property that holds of one named slot only holds of one connected slot. -/
theorem slots_eq_singleton {s : SignalRef} {p : Slot σ → Bool} {id : ConnectionId} {k : Slot σ}
    (named : w.slotAt s id = some k) (holds : p k = true)
    (only : ∀ id' k', w.slotAt s id' = some k' → p k' = true → id' = id) :
    ((w.signal s).connections.map (·.2.slot)).filter p = [k] := by
  obtain ⟨c, entry, rfl⟩ := Option.map_eq_some_iff.mp named
  have nodup : (w.signal s).connections.Nodup :=
    List.Nodup.of_map _ (Registry.entries_nodup (w.signal s).registry)
  have selected : (w.signal s).connections.filter (fun e => p e.2.slot) = [(id, c)] := by
    refine List.perm_singleton.mp ((List.perm_ext_iff_of_nodup (nodup.filter _) (by simp)).mpr ?_)
    rintro ⟨id', c'⟩
    simp only [List.mem_filter, List.mem_singleton]
    constructor
    · rintro ⟨listed, holds'⟩
      obtain rfl := only id' c'.slot (slotAt_of_mem listed) holds'
      rw [mem_connections, entry] at listed
      cases listed
      rfl
    · intro same
      cases same
      exact ⟨mem_connections.mpr entry, holds⟩
  rw [List.filter_map]
  show ((w.signal s).connections.filter (fun e => p e.2.slot)).map _ = _
  rw [selected]
  rfl

theorem signal_of_plugged {l : Link} {ports : List (SignalRef × Slot σ)}
    {lines : List (Subscription σ)} (plugged : List.Forall₂ (w.Plugged l) ports lines)
    {s : SignalRef} {id : ConnectionId} (member : .connection s id ∈ lines) :
    s ∈ ports.map (·.1) := by
  induction plugged with
  | nil => cases member
  | cons first rest ih =>
      rcases List.mem_cons.mp member with same | later
      · obtain ⟨-, id', rfl, -⟩ := first
        cases same
        exact List.mem_cons_self
      · exact List.mem_cons_of_mem _ (ih later)

/-- If no two ports are at one signal, one line leads to a port. -/
theorem line_of_port {l : Link} {ports : List (SignalRef × Slot σ)}
    {lines : List (Subscription σ)} (plugged : List.Forall₂ (w.Plugged l) ports lines)
    (distinct : (ports.map (·.1)).Nodup) {s : SignalRef} {k : Slot σ} (port : (s, k) ∈ ports)
    (opened : (w.signal s).closed = false) :
    ∃ id, w.slotAt s id = some k ∧ ∀ id', .connection s id' ∈ lines → id' = id := by
  induction plugged with
  | nil => cases port
  | @cons first line ports lines here rest ih =>
      obtain ⟨-, id, rfl, before⟩ := here
      rw [List.map_cons, List.nodup_cons] at distinct
      rcases List.mem_cons.mp port with rfl | later
      · refine ⟨id, before.resolve_left (by simp [opened]), fun id' member => ?_⟩
        rcases List.mem_cons.mp member with same | member
        · cases same
          rfl
        · exact absurd (signal_of_plugged rest member) distinct.1
      · obtain ⟨id', named, only⟩ := ih distinct.2 later
        refine ⟨id', named, fun id'' member => ?_⟩
        rcases List.mem_cons.mp member with same | member
        · cases same
          exact absurd (List.mem_map.mpr ⟨_, later, rfl⟩) distinct.1
        · exact only id'' member

theorem ports_distinct (l : Link) : ((w.ports l).map (·.1)).Nodup := by
  cases l with
  | model c => cases h : (w.controller c).model <;> simp [ports, h, modelPorts]
  | view c => cases h : (w.controller c).view <;> simp [ports, h, viewPorts]
  | attachment v => cases h : (w.view v).attachment <;> simp [ports, h, attachmentPorts]

/-- One id of an open signal names the slot of a port there, and no other slot of the link
    is at this signal. -/
theorem Wired.slot_of_port (wired : Wired none w) {l : Link} {s : SignalRef} {k : Slot σ}
    (port : (s, k) ∈ w.ports l) (opened : (w.signal s).closed = false) :
    ∃ id, w.slotAt s id = some k ∧
      ∀ id' k', w.slotAt s id' = some k' → k'.link? = some l → id' = id := by
  obtain ⟨id, named, only⟩ :=
    line_of_port (wired.plugged l (by simp)) (ports_distinct l) port opened
  exact ⟨id, named, fun id' k' named' link => only id' (wired.booked named' link)⟩

section Selected

variable {l : Link} {s : SignalRef} {p : Slot σ → Bool}

/-- Of the slots that all belong to one link, a port's signal carries the port's only. -/
theorem Wired.slots_port (wired : Wired none w)
    (belong : ∀ id k, w.slotAt s id = some k → p k = true → k.link? = some l) {k : Slot σ}
    (port : (s, k) ∈ w.ports l) (holds : p k = true) (opened : (w.signal s).closed = false) :
    ((w.signal s).connections.map (·.2.slot)).filter p = [k] := by
  obtain ⟨id, named, only⟩ := wired.slot_of_port port opened
  refine slots_eq_singleton named holds fun id' k' named' holds' => ?_
  exact only id' k' named' (belong id' k' named' holds')

/-- And a signal without a port carries none of them. -/
theorem Wired.slots_none (wired : Wired none w)
    (belong : ∀ id k, w.slotAt s id = some k → p k = true → k.link? = some l)
    (absent : ∀ id k, w.slotAt s id = some k → (s, k) ∉ w.ports l) :
    ((w.signal s).connections.map (·.2.slot)).filter p = [] := by
  refine slots_eq_nil fun id k named => ?_
  cases holds : p k with
  | false => rfl
  | true => exact absurd (wired.port_of_slot named (belong id k named holds)) (absent id k named)

end Selected

/-! ## Slots of controllers -/

theorem models_of_intact (intact : Intact none w) (c m : Nat) :
    w.controllerSlots (.modelData m) c =
      if w.isControllerAlive c ∧ (w.controller c).model = some m then [.controllerData c]
      else [] := by
  have belong : ∀ id k, w.slotAt (.modelData m) id = some k →
      (decide (k.controller? = some c)) = true → k.link? = some (.model c) := by
    intro id k named holds
    refine (Slot.controller?_eq_some.mp (of_decide_eq_true holds)).resolve_right fun link => ?_
    have port := intact.wired.port_of_slot named link
    cases bound : (w.controller c).view <;> simp [ports, viewPorts, bound] at port
  split
  · next holds =>
      refine intact.wired.slots_port belong ?_ (by simp [Slot.controller?])
        (intact.standing _ (.model holds.2))
      simp [ports, modelPorts, holds.2]
  · next fails =>
      refine intact.wired.slots_none belong fun id k named port => ?_
      cases bound : (w.controller c).model with
      | none => simp [ports, bound] at port
      | some i =>
          simp only [ports, bound, modelPorts, Option.map_some, Option.getD_some,
            List.mem_singleton, Prod.mk.injEq, SignalRef.modelData.injEq] at port
          obtain ⟨rfl, -⟩ := port
          cases alive : w.isControllerAlive c with
          | true => exact fails ⟨alive, bound⟩
          | false => simp [(intact.idle c alive).1] at bound

theorem views_of_intact (intact : Intact none w) (c v : Nat) (port : SignalRef × Slot σ)
    (at_view : port ∈ viewPorts c v) : w.controllerSlots port.1 c =
      if w.isControllerAlive c ∧ (w.controller c).view = some v then [port.2] else [] := by
  have signal : port.1 ∈ viewSignals v := by
    simp only [viewPorts, List.mem_cons, List.not_mem_nil, or_false] at at_view
    rcases at_view with rfl | rfl | rfl <;> simp [viewSignals]
  have slot : port.2.controller? = some c := by
    simp only [viewPorts, List.mem_cons, List.not_mem_nil, or_false] at at_view
    rcases at_view with rfl | rfl | rfl <;> rfl
  have belong : ∀ id k, w.slotAt port.1 id = some k →
      (decide (k.controller? = some c)) = true → k.link? = some (.view c) := by
    intro id k named holds
    refine (Slot.controller?_eq_some.mp (of_decide_eq_true holds)).resolve_left fun link => ?_
    have other := intact.wired.port_of_slot named link
    cases bound : (w.controller c).model with
    | none => simp [ports, bound] at other
    | some m =>
        simp only [ports, bound, modelPorts, Option.map_some, Option.getD_some,
          List.mem_singleton, Prod.mk.injEq] at other
        rw [other.1] at signal
        simp [viewSignals] at signal
  split
  · next holds =>
      refine intact.wired.slots_port belong ?_ (by simp [slot])
        (intact.standing _ (.view holds.2 signal))
      simpa [ports, holds.2] using at_view
  · next fails =>
      refine intact.wired.slots_none belong fun id k named there => ?_
      cases bound : (w.controller c).view with
      | none => simp [ports, bound] at there
      | some u =>
          have same : u = v := by
            simp only [ports, bound, Option.map_some, Option.getD_some, viewPorts, List.mem_cons,
              List.not_mem_nil, or_false, Prod.mk.injEq] at there
            simp only [viewSignals, List.mem_cons, List.not_mem_nil, or_false] at signal
            rcases there with there | there | there <;> rw [there.1] at signal <;>
              simpa using signal
          cases alive : w.isControllerAlive c with
          | true => exact fails ⟨alive, same ▸ bound⟩
          | false => simp [(intact.idle c alive).2.1] at bound

end Ensemble

end Mvc
