import Mvc.Proofs.Wiring

/-! # Cutting lines and plugging ports

Ending subscriptions that are connections only takes the connections away, and connecting
slots to signals only adds connections. Cutting all lines of a link leaves no slot of the
link behind and no other slot missing; plugging the ports of a link makes its lines.
-/

namespace Mvc.Ensemble

variable {σ ε : Type}

/-- Take away the connection at the end of a line. -/
def cut (line : Subscription σ) (w : Ensemble σ ε) : Ensemble σ ε :=
  match line with
  | .connection s id => w.setSignal s ((w.signal s).disconnect id).2
  | .client _ => w

/-- Cut lines in order. -/
def cutAll : List (Subscription σ) → Ensemble σ ε → Ensemble σ ε
  | [], w => w
  | line :: rest, w => cutAll rest (cut line w)

/-- Connect a slot to a signal. -/
def plug (d : Delivery) (port : SignalRef × Slot σ) (w : Ensemble σ ε) :
    Subscription σ × Ensemble σ ε :=
  let made := (w.signal port.1).connect port.2 d
  (.connection port.1 made.1, w.setSignal port.1 made.2)

/-- Connect slots to signals in order. -/
def plugAll (d : Delivery) : List (SignalRef × Slot σ) → Ensemble σ ε →
    List (Subscription σ) × Ensemble σ ε
  | [], w => ([], w)
  | port :: rest, w =>
    let first := plug d port w
    let others := plugAll d rest first.2
    (first.1 :: others.1, others.2)

/-! ## Cutting -/

section Cut

variable (line : Subscription σ) (lines : List (Subscription σ)) (w : Ensemble σ ε)

theorem onlySignals_cut : OnlySignals w (cut line w) := by
  cases line with
  | connection s id => exact .setSignal w s _
  | client code => exact .refl w

theorem closed_cut (s : SignalRef) : ((cut line w).signal s).closed = (w.signal s).closed := by
  cases line with
  | connection t id =>
      simp only [cut, signal_setSignal]
      split
      · next same => rw [same]; rfl
      · rfl
  | client code => rfl

theorem settled_cut {P : Slot σ → Prop} {s : SignalRef} {id : ConnectionId}
    (settled : (w.signal s).Settled P id) : ((cut line w).signal s).Settled P id := by
  cases line with
  | connection t i =>
      simp only [cut, signal_setSignal]
      split
      · next same => exact (same ▸ settled).disconnect i
      · exact settled
  | client code => exact settled

theorem sound_cut (sound : ∀ s, (w.signal s).Sound) (s : SignalRef) :
    ((cut line w).signal s).Sound := by
  cases line with
  | connection t i =>
      simp only [cut, signal_setSignal]
      split
      · exact (sound t).disconnect i
      · exact sound s
  | client code => exact sound s

theorem slotAt_cut {s : SignalRef} {id : ConnectionId} {k : Slot σ} :
    (cut line w).slotAt s id = some k ↔ line ≠ .connection s id ∧ w.slotAt s id = some k := by
  cases line with
  | connection t i =>
      simp only [cut, slotAt_setSignal, Signal.slot?_disconnect, ne_eq,
        Subscription.connection.injEq, not_and]
      by_cases signal : s = t
      · subst signal
        by_cases same : id = i
        · simp [same]
        · simp [slotAt, same, Ne.symm same]
      · simp [signal, Ne.symm signal]
  | client code => simp [cut]

theorem onlySignals_cutAll : OnlySignals w (cutAll lines w) := by
  induction lines generalizing w with
  | nil => exact .refl w
  | cons line rest ih => exact (onlySignals_cut line w).trans (ih _)

theorem closed_cutAll (s : SignalRef) :
    ((cutAll lines w).signal s).closed = (w.signal s).closed := by
  induction lines generalizing w with
  | nil => rfl
  | cons line rest ih => rw [cutAll, ih, closed_cut]

theorem settled_cutAll {P : Slot σ → Prop} {s : SignalRef} {id : ConnectionId}
    (settled : (w.signal s).Settled P id) : ((cutAll lines w).signal s).Settled P id := by
  induction lines generalizing w with
  | nil => exact settled
  | cons line rest ih => exact ih _ (settled_cut line w settled)

theorem sound_cutAll (sound : ∀ s, (w.signal s).Sound) (s : SignalRef) :
    ((cutAll lines w).signal s).Sound := by
  induction lines generalizing w with
  | nil => exact sound s
  | cons line rest ih => exact ih _ (sound_cut line w sound)

theorem slotAt_cutAll {s : SignalRef} {id : ConnectionId} {k : Slot σ} :
    (cutAll lines w).slotAt s id = some k ↔
      .connection s id ∉ lines ∧ w.slotAt s id = some k := by
  induction lines generalizing w with
  | nil => simp [cutAll]
  | cons line rest ih =>
      rw [cutAll, ih, slotAt_cut, List.mem_cons, not_or, ← and_assoc]
      constructor
      · rintro ⟨⟨later, other⟩, named⟩
        exact ⟨⟨Ne.symm other, later⟩, named⟩
      · rintro ⟨⟨other, later⟩, named⟩
        exact ⟨⟨later, Ne.symm other⟩, named⟩

theorem cutAll_append (others : List (Subscription σ)) :
    cutAll (lines ++ others) w = cutAll others (cutAll lines w) := by
  induction lines generalizing w with
  | nil => rfl
  | cons line rest ih => exact ih _

/-- Ending subscriptions that are connections runs no client code. -/
theorem releaseAll_append (run : Runner σ ε)
    (connections : ∀ line ∈ lines, line.isConnection = true) (others : List (Subscription σ)) :
    releaseAll run (lines ++ others) w = releaseAll run others (cutAll lines w) := by
  induction lines generalizing w with
  | nil => rfl
  | cons line rest ih =>
      have here := connections line List.mem_cons_self
      have later := ih (cut line w) fun x member => connections x (List.mem_cons_of_mem _ member)
      cases line with
      | connection s id => exact later
      | client code => cases here

theorem releaseAll_connections (run : Runner σ ε)
    (connections : ∀ line ∈ lines, line.isConnection = true) :
    releaseAll run lines w = some ((), cutAll lines w) := by
  have := releaseAll_append lines w run connections []
  rwa [List.append_nil] at this

end Cut

/-! ## Plugging -/

section Plug

variable (d : Delivery) (port : SignalRef × Slot σ) (ports : List (SignalRef × Slot σ))
  (w : Ensemble σ ε)

theorem onlySignals_plug : OnlySignals w (plug d port w).2 := .setSignal w port.1 _

theorem closed_plug (s : SignalRef) :
    ((plug d port w).2.signal s).closed = (w.signal s).closed := by
  simp only [plug, signal_setSignal]
  split
  · next same => rw [Signal.closed_connect, same]
  · rfl

theorem settled_plug (sound : ∀ s, (w.signal s).Sound) {P : Slot σ → Prop} {s : SignalRef}
    {id : ConnectionId} (settled : (w.signal s).Settled P id) :
    ((plug d port w).2.signal s).Settled P id := by
  simp only [plug, signal_setSignal]
  split
  · next same => exact (same ▸ settled).connect (sound _) port.2 d
  · exact settled

theorem sound_plug (sound : ∀ s, (w.signal s).Sound) (s : SignalRef) :
    ((plug d port w).2.signal s).Sound := by
  simp only [plug, signal_setSignal]
  split
  · exact (sound _).connect port.2 d
  · exact sound s

/-- Only the new id comes to name something, and it names the slot. -/
theorem slotAt_plug (sound : ∀ s, (w.signal s).Sound) {s : SignalRef} {id : ConnectionId}
    {k : Slot σ} : (plug d port w).2.slotAt s id = some k ↔ w.slotAt s id = some k ∨
      ((w.signal s).closed = false ∧ (plug d port w).1 = .connection s id ∧ port = (s, k)) := by
  obtain ⟨t, slot⟩ := port
  simp only [plug, slotAt_setSignal, Subscription.connection.injEq, Prod.mk.injEq]
  by_cases signal : s = t
  · subst signal
    rw [if_pos rfl]
    cases closed : (w.signal s).closed with
    | true => simp [Signal.connect_of_closed closed, slotAt]
    | false =>
        rw [Signal.slot?_connect (sound s) closed]
        by_cases new : id = ((w.signal s).connect slot d).1
        · have vacant := Signal.slot?_connect_self (sound s) closed slot d
          rw [← new] at vacant
          simp [← new, slotAt, vacant]
        · simp [new, Ne.symm new, slotAt]
  · simp [signal, Ne.symm signal]

theorem onlySignals_plugAll : OnlySignals w (plugAll d ports w).2 := by
  induction ports generalizing w with
  | nil => exact .refl w
  | cons port rest ih => exact (onlySignals_plug d port w).trans (ih _)

theorem closed_plugAll (s : SignalRef) :
    ((plugAll d ports w).2.signal s).closed = (w.signal s).closed := by
  induction ports generalizing w with
  | nil => rfl
  | cons port rest ih => exact (ih _).trans (closed_plug d port w s)

theorem settled_plugAll (sound : ∀ s, (w.signal s).Sound) {P : Slot σ → Prop} {s : SignalRef}
    {id : ConnectionId} (settled : (w.signal s).Settled P id) :
    ((plugAll d ports w).2.signal s).Settled P id := by
  induction ports generalizing w with
  | nil => exact settled
  | cons port rest ih =>
      exact ih _ (sound_plug d port w sound) (settled_plug d port w sound settled)

theorem sound_plugAll (sound : ∀ s, (w.signal s).Sound) (s : SignalRef) :
    ((plugAll d ports w).2.signal s).Sound := by
  induction ports generalizing w with
  | nil => exact sound s
  | cons port rest ih => exact ih _ (sound_plug d port w sound)

theorem slotAt_plugAll_kept (sound : ∀ s, (w.signal s).Sound) {s : SignalRef}
    {id : ConnectionId} {k : Slot σ} (named : w.slotAt s id = some k) :
    (plugAll d ports w).2.slotAt s id = some k := by
  induction ports generalizing w with
  | nil => exact named
  | cons port rest ih =>
      exact ih _ (sound_plug d port w sound) ((slotAt_plug d port w sound).mpr (.inl named))

theorem slotAt_plugAll_made (sound : ∀ s, (w.signal s).Sound) {s : SignalRef}
    {id : ConnectionId} {k : Slot σ} (named : (plugAll d ports w).2.slotAt s id = some k) :
    w.slotAt s id = some k ∨
      ((s, k) ∈ ports ∧ .connection s id ∈ (plugAll d ports w).1) := by
  induction ports generalizing w with
  | nil => exact .inl named
  | cons port rest ih =>
      rcases ih _ (sound_plug d port w sound) named with before | ⟨later, line⟩
      · rcases (slotAt_plug d port w sound).mp before with before | ⟨-, line, same⟩
        · exact .inl before
        · refine .inr ⟨List.mem_cons.mpr (.inl same.symm), ?_⟩
          exact List.mem_cons.mpr (.inl line.symm)
      · exact .inr ⟨List.mem_cons_of_mem _ later, List.mem_cons_of_mem _ line⟩

/-- The new lines plug the ports. -/
theorem plugged_plugAll (sound : ∀ s, (w.signal s).Sound) {l : Link}
    (link : ∀ port ∈ ports, port.2.link? = some l) :
    List.Forall₂ ((plugAll d ports w).2.Plugged l) ports (plugAll d ports w).1 := by
  induction ports generalizing w with
  | nil => exact .nil
  | cons port rest ih =>
      have sound' := sound_plug d port w sound
      refine .cons ?_ (ih _ sound' fun p member => link p (List.mem_cons_of_mem _ member))
      refine ⟨link port List.mem_cons_self, _, rfl, ?_⟩
      cases closed : (w.signal port.1).closed with
      | true => exact .inl (by rw [closed_plugAll, closed])
      | false =>
          refine .inr (slotAt_plugAll_kept d rest _ sound' ?_)
          exact (slotAt_plug d port w sound).mpr (.inr ⟨closed, rfl, rfl⟩)

end Plug

/-! ## Links that are cut and plugged -/

namespace Wired

variable {torn torn' : Option Link} {w w' : Ensemble σ ε}

/-- Some links give up their lines, these are cut, and some signals are closed. -/
theorem cutLinks (wired : Wired torn w) (relinked : Link → Prop) {cleared : Ensemble σ ε}
    {lines : List (Subscription σ)}
    (signals : ∀ s, cleared.signal s = w.signal s ∨ cleared.signal s = (w.signal s).close)
    (same : ∀ l, ¬relinked l → SameLink w cleared l ∧ (torn' = some l ↔ torn = some l))
    (bare : ∀ l, relinked l →
      cleared.lines l = [] ∧ (torn' ≠ some l → cleared.ports l = []))
    (all : ∀ line, line ∈ lines ↔ ∃ l, relinked l ∧ line ∈ w.lines l) :
    Wired torn' (cutAll lines cleared) := by
  have links := (onlySignals_cutAll lines cleared).sameLink
  have before : ∀ s id k, cleared.slotAt s id = some k → w.slotAt s id = some k := by
    intro s id k named
    rcases signals s with same | shut
    · rwa [slotAt, same] at named
    · rw [slotAt, shut, Signal.slot?_close] at named
      cases named
  refine wired.change relinked ?_ ?_ ?_ ?_ ?_ ?_ ?_ ?_
  · refine sound_cutAll lines cleared fun s => ?_
    rcases signals s with same | shut
    · rw [same]
      exact wired.sound s
    · rw [shut]
      exact Signal.sound_close _
  · intro s closed
    rw [closed_cutAll]
    rcases signals s with same | shut
    · rw [same, closed]
    · rw [shut]
      rfl
  · intro l other
    obtain ⟨⟨ports, lines⟩, tearing⟩ := same l other
    exact ⟨⟨(links l).1.trans ports, (links l).2.trans lines⟩, tearing⟩
  · intro s id k l named link other
    rcases signals s with same | shut
    · refine .inr ((slotAt_cutAll lines cleared).mpr ⟨?_, by rw [slotAt, same]; exact named⟩)
      intro member
      -- A line that is cut names a slot of its own link, which this one is not of.
      obtain ⟨l', relinked', line⟩ := (all _).mp member
      have own := (wired.port_of_line line named).2
      rw [link] at own
      cases own
      exact other relinked'
    · exact .inl (by rw [closed_cutAll, shut]; rfl)
  · intro s id k l named _ _
    exact before s id k ((slotAt_cutAll lines cleared).mp named).2
  · intro s id k l named link here
    obtain ⟨uncut, named⟩ := (slotAt_cutAll lines cleared).mp named
    exact absurd ((all _).mpr ⟨l, here, wired.booked (before s id k named) link⟩) uncut
  · intro l here untorn
    rw [(links l).1, (links l).2, (bare l here).1, (bare l here).2 untorn]
    exact .nil
  · intro l here _
    rw [(links l).2, (bare l here).1]

/-- A link without lines is plugged and given its lines. -/
theorem plugLink (wired : Wired torn w) {l : Link} {d : Delivery}
    {ports : List (SignalRef × Slot σ)} (vacant : w.lines l = [])
    (link : ∀ port ∈ ports, port.2.link? = some l)
    (signals : ∀ s, w'.signal s = (plugAll d ports w).2.signal s)
    (same : ∀ l', l' ≠ l → SameLink w w' l' ∧ (torn' = some l' ↔ torn = some l'))
    (untorn : torn' ≠ some l) (bound : w'.ports l = ports)
    (lines : w'.lines l = (plugAll d ports w).1) : Wired torn' w' := by
  have slots : ∀ s id, w'.slotAt s id = (plugAll d ports w).2.slotAt s id := by
    intro s id
    rw [slotAt, signals s]
    rfl
  refine wired.change (· = l) ?_ ?_ same ?_ ?_ ?_ ?_ ?_
  · exact fun s => signals s ▸ sound_plugAll d ports w wired.sound s
  · exact fun s closed => by rw [signals s, closed_plugAll, closed]
  · intro s id k l' named _ _
    rw [slots]
    exact .inr (slotAt_plugAll_kept d ports w wired.sound named)
  · intro s id k l' named link' other
    rw [slots] at named
    rcases slotAt_plugAll_made d ports w wired.sound named with before | ⟨port, -⟩
    · exact before
    · have own := link _ port
      rw [link'] at own
      cases own
      exact absurd rfl other
  · rintro s id k l' named link' rfl
    rw [slots] at named
    rcases slotAt_plugAll_made d ports w wired.sound named with before | ⟨-, line⟩
    · have line := wired.booked before link'
      rw [vacant] at line
      cases line
    · rwa [lines]
  · rintro l' rfl _
    rw [bound, lines]
    refine (plugged_plugAll d ports w wired.sound link).imp fun _ _ plugged => ?_
    refine plugged.imp (fun s closed => by rw [signals s, closed]) fun s id k _ named _ => ?_
    exact .inr (by rw [slots, named])
  · rintro l' rfl torn
    exact absurd torn untorn

end Wired

end Mvc.Ensemble
