import Mvc.Proofs.Company
import Mvc.Proofs.Slots

/-! # How user actions are routed

A user action that a view reports goes to the controllers that are bound to the view, one after
another, and what they answer goes back to the views that are attached to them. Each of them may
bind, free and drop others while it is at it, so whoever has its turn later may have gone by
then, and is passed over.

What happens is told as a relation between the states before and after. `Round` gives everybody
on a list one turn, `Turn` is the turn of one connection, and `Answer` is what one controller
does with the action. Client code appears in it where it runs, from the state in which it runs
to the one that it leaves behind. Links that stay are those that no client code ends, and
whoever listens by one of them is never passed over. That every report from a company goes like
this is `action_routed`.
-/

namespace Mvc

variable {σ ε : Type}

/-- What a controller has to tell. -/
inductive Tone where
  /-- Something failed. -/
  | error
  /-- Something is done. -/
  | done
  deriving DecidableEq

namespace Tone

/-- The signal by which a controller tells it. -/
def signal (c : Nat) : Tone → SignalRef
  | error => .controllerError c
  | done => .controllerDone c

/-- The slot by which a view hears it. -/
def slot (v : Nat) : Tone → Slot σ
  | error => .viewError v
  | done => .viewInfo v

/-- How a view shows it. -/
def hook (β : Behaviour σ ε) (v : Nat) (message : String) : Tone → Client σ ε Unit
  | error => β.showError v message
  | done => β.showInfo v message

/-- Whether it is shown: empty completions are not. -/
def isShown (message : String) : Tone → Bool
  | error => true
  | done => !message.isEmpty

/-- The action by which client code has a controller tell it. -/
def report (c : Nat) (message : String) : Tone → Action σ ε
  | error => .reportError c message
  | done => .reportDone c message

theorem signal_mem (c : Nat) (tone : Tone) : tone.signal c ∈ Ensemble.controllerSignals c := by
  cases tone <;> simp [signal, Ensemble.controllerSignals]

theorem port_mem (v c : Nat) (tone : Tone) :
    (tone.signal c, (tone.slot v : Slot σ)) ∈ Ensemble.attachmentPorts v c := by
  cases tone <;> simp [signal, slot, Ensemble.attachmentPorts]

theorem link_slot (v : Nat) (tone : Tone) :
    (tone.slot v : Slot σ).link? = some (.attachment v) := by
  cases tone <;> rfl

end Tone

namespace Family

variable {α : Type}

theorem set_set (f : Family α) (i : Nat) (a b : α) : (f.set i a).set i b = f.set i b := by
  obtain ⟨members⟩ := f
  simp only [set, mk.injEq]
  induction members with
  | nil => simp [replace]
  | cons first rest ih =>
      obtain ⟨j, c⟩ := first
      by_cases here : i = j
      · simp [replace, here]
      · simp [replace, here, ih]

theorem set_get [Inhabited α] {f : Family α} {i : Nat} (listed : (i, f.get i) ∈ f.members) :
    f.set i (f.get i) = f := by
  obtain ⟨members⟩ := f
  simp only [set, get, mk.injEq] at listed ⊢
  induction members with
  | nil => cases listed
  | cons first rest ih =>
      obtain ⟨j, c⟩ := first
      by_cases here : i = j
      · simp [lookup, replace, here]
      · simp only [lookup, replace, List.mem_cons, Prod.mk.injEq, here, false_and, false_or,
          if_false] at listed ⊢
        rw [ih listed]

end Family

namespace Ensemble

open Proc

/-! ## What happens -/

/-- A procedure leads from one state to another, if calls may nest deep enough. -/
def Comes {α : Type} (β : Behaviour σ ε) (p : Runner σ ε → Proc (Ensemble σ ε) α)
    (w : Ensemble σ ε) (r : α) (w' : Ensemble σ ε) : Prop :=
  ∃ depth, p (run β depth) w = some (r, w')

/-- Everybody on a list has one turn, in order. -/
inductive Round {ι ω : Type} (turn : ι → ω → ω → Prop) : List ι → ω → ω → Prop where
  | over (w : ω) : Round turn [] w w
  | next {i : ι} {rest : List ι} {w w₁ w' : ω} (now : turn i w w₁) (later : Round turn rest w₁ w') :
      Round turn (i :: rest) w w'

/-- The turn of a connection. Whoever listens by it is served if it still has the subscription,
    and passed over if it has ended it, but not if its link stays. What the client has connected
    runs as it may. -/
inductive Turn (β : Behaviour σ ε) (stays : List Link) (s : SignalRef) (notice : Notice)
    (link : Nat → Link) (serves : Nat → Ensemble σ ε → Ensemble σ ε → Prop) :
    ConnectionId × Connection (Slot σ) → Ensemble σ ε → Ensemble σ ε → Prop where
  | served {id k i w w'} (listens : k.slot.link? = some (link i))
      (subscribed : .connection s id ∈ w.lines (link i)) (served : serves i w w') :
      Turn β stays s notice link serves (id, k) w w'
  | passed {id k i w} (listens : k.slot.link? = some (link i)) (leaves : link i ∉ stays)
      (ended : .connection s id ∉ w.lines (link i)) : Turn β stays s notice link serves (id, k) w w
  | client {id k code w w'} (listens : k.slot = .client code)
      (ran : Comes β (fun run => visit run s notice [(id, k)]) w () w') :
      Turn β stays s notice link serves (id, k) w w'

/-- Nothing happens if the signal is blocked, else every connection that it has has its turn. -/
def Emitted (β : Behaviour σ ε) (stays : List Link) (s : SignalRef) (notice : Notice)
    (link : Nat → Link) (serves : Nat → Ensemble σ ε → Ensemble σ ε → Prop)
    (w w' : Ensemble σ ε) : Prop :=
  if (w.signal s).blocked then w' = w
  else Round (Turn β stays s notice link serves) (w.signal s).connections w w'

/-- A view that is attached to a controller shows what the controller tells, once, if there is
    something to show and the view is alive. -/
def Shown (β : Behaviour σ ε) (tone : Tone) (c : Nat) (message : String) (v : Nat)
    (w w' : Ensemble σ ε) : Prop :=
  w.viewController? v = some c ∧
    if tone.isShown message ∧ w.isViewAlive v then
      Comes β (fun run => holdingView run v (run.client (tone.hook β v message))) w () w'
    else w' = w

/-- A controller tells something: each view that is attached to it listens by one connection,
    no other view does, and all of them have their turns. -/
structure Conveyed (β : Behaviour σ ε) (stays : List Link) (tone : Tone) (c : Nat)
    (message : String) (w w' : Ensemble σ ε) : Prop where
  listeners : ∀ v, w.viewSlots (tone.signal c) v =
    if w.viewController? v = some c then [tone.slot v] else []
  emitted : Emitted β stays (tone.signal c) (.text message) .attachment (Shown β tone c message)
    w w'

/-- A controller's own view is shown anew, once, if it has one. -/
def Refreshed (β : Behaviour σ ε) (c : Nat) (w w' : Ensemble σ ε) : Prop :=
  match (w.controller c).view with
  | none => w' = w
  | some v => Comes β (fun run => holdingView run v do
      run.client (β.derive c)
      run.client (β.display v)) w () w'

/-- What a controller does with a user action. -/
inductive Answer (β : Behaviour σ ε) (stays : List Link) (c : Nat) (name : String) (data : Value) :
    Ensemble σ ε → Ensemble σ ε → Prop where
  | refused {w w'} (phase : (w.controller c).phase ≠ .initialized)
      (conveyed : Conveyed β stays .error c notInitialized w w') : Answer β stays c name data w w'
  | handled {w w'} (phase : (w.controller c).phase = .initialized)
      (hook : Comes β (fun run => run.client (β.handles c name data)) w true w') :
      Answer β stays c name data w w'
  | refreshed {w w₁ w₂ w'} (phase : (w.controller c).phase = .initialized)
      (hook : Comes β (fun run => run.client (β.handles c name data)) w false w₁)
      (known : name = "refresh" ∨ name = "update") (refreshed : Refreshed β c w₁ w₂)
      (conveyed : Conveyed β stays .done c viewUpdated w₂ w') : Answer β stays c name data w w'
  | ignored {w w'} (phase : (w.controller c).phase = .initialized)
      (hook : Comes β (fun run => run.client (β.handles c name data)) w false w')
      (unknown : ¬(name = "refresh" ∨ name = "update")) : Answer β stays c name data w w'

/-- A controller that is alive and bound to a view is held while it answers, and is taken apart
    then if it has lost its last holder meanwhile. -/
def Answered (β : Behaviour σ ε) (stays : List Link) (v : Nat) (name : String) (data : Value)
    (c : Nat) (w w' : Ensemble σ ε) : Prop :=
  w.isControllerAlive c = true ∧ (w.controller c).view = some v ∧
    ∃ w₁, Answer β stays c name data (holders c (·.held) (·.pins + 1) w) w₁ ∧
      Comes β (fun run => collectController run c) (holders c (·.held) (·.pins - 1) w₁) () w'

/-- A view reports a user action: each controller that is bound to it listens by one connection,
    and all of them have their turns. -/
structure Routed (β : Behaviour σ ε) (stays : List Link) (v : Nat) (name : String) (data : Value)
    (w w' : Ensemble σ ε) : Prop where
  listeners : ∀ c, w.controllerSlots (.viewAction v) c =
    if w.isControllerAlive c ∧ (w.controller c).view = some v then [.controllerAction c] else []
  emitted : ∃ w₁, Emitted β stays (.viewAction v) (.action name data) .view
    (Answered β stays v name data) (pinView v w) w₁ ∧ w' = withoutView v (unpinView v w₁)

variable {β : Behaviour σ ε} {w w' : Ensemble σ ε} {depth : Nat} {stays : List Link}

/-! ## Who listens -/

/-- A slot that is connected is on one of its link's lines. -/
theorem line_of_connected (intact : Intact none w) {s : SignalRef} {id : ConnectionId}
    {k : Slot σ} {l : Link} (settled : (w.signal s).Settled (· = k) id) (link : k.link? = some l)
    (connected : (w.signal s).isConnected id = true) : .connection s id ∈ w.lines l := by
  obtain ⟨entry, named⟩ := Option.isSome_iff_exists.mp connected
  have named : w.slotAt s id = some entry.slot := Option.map_eq_some_iff.mpr ⟨entry, named, rfl⟩
  obtain rfl : entry.slot = k := settled.property (intact.wired.sound s) named
  exact intact.wired.booked named link

/-- A line leads to a port, and ends nowhere else unless the port's signal is closed. -/
theorem port_of_member {l : Link} {ports : List (SignalRef × Slot σ)}
    {lines : List (Subscription σ)} (plugged : List.Forall₂ (w.Plugged l) ports lines)
    {s : SignalRef} {id : ConnectionId} (member : .connection s id ∈ lines) :
    ∃ k, (s, k) ∈ ports ∧ ((w.signal s).closed = true ∨ w.slotAt s id = some k) := by
  induction plugged with
  | nil => cases member
  | @cons port _ _ _ here _ ih =>
      rcases List.mem_cons.mp member with same | later
      · obtain ⟨-, _, rfl, there⟩ := here
        cases same
        exact ⟨port.2, List.mem_cons_self, there⟩
      · obtain ⟨k, port, there⟩ := ih later
        exact ⟨k, List.mem_cons_of_mem _ port, there⟩

/-- And a line to an open signal is connected. -/
theorem connected_of_line (intact : Intact none w) {s : SignalRef} {id : ConnectionId} {l : Link}
    (opened : (w.signal s).closed = false) (member : .connection s id ∈ w.lines l) :
    (w.signal s).isConnected id = true := by
  obtain ⟨k, -, there⟩ := port_of_member (intact.wired.plugged l nofun) member
  exact Signal.contains_of_slot? (there.resolve_left (by simp [opened]))

/-- Whoever has a line to a view is alive and bound to it. -/
theorem bound_of_line (intact : Intact none w) {v c : Nat} {id : ConnectionId}
    (member : .connection (.viewAction v) id ∈ w.lines (.view c)) :
    w.isControllerAlive c = true ∧ (w.controller c).view = some v := by
  obtain ⟨k, port, -⟩ := port_of_member (intact.wired.plugged _ nofun) member
  cases bound : (w.controller c).view with
  | none => simp [ports, bound] at port
  | some u =>
      simp only [ports, bound, Option.map_some, Option.getD_some, viewPorts, List.mem_cons,
        Prod.mk.injEq, SignalRef.viewAction.injEq, reduceCtorEq, false_and, List.not_mem_nil,
        or_false] at port
      refine ⟨?_, by rw [port.1]⟩
      cases alive : w.isControllerAlive c with
      | true => rfl
      | false => simp [(intact.idle c alive).2.1] at bound

/-- Whoever has a line to a controller that is alive is attached to it. -/
theorem attached_of_line (intact : Intact none w) {tone : Tone} {v c : Nat} {id : ConnectionId}
    (alive : w.isControllerAlive c = true)
    (member : .connection (tone.signal c) id ∈ w.lines (.attachment v)) :
    w.viewController? v = some c := by
  obtain ⟨k, port, -⟩ := port_of_member (intact.wired.plugged _ nofun) member
  unfold viewController?
  cases attached : (w.view v).attachment with
  | none => simp [ports, attached] at port
  | some a =>
      have same : a.controller = c := by
        cases tone <;> simp [ports, attached, attachmentPorts, Tone.signal] at port <;>
          exact port.1.symm
      simp [same, alive]

/-- On a view's user actions listen controllers and the client. -/
theorem listener_of_action (wired : Wired none w) {v : Nat} {id : ConnectionId} {k : Slot σ}
    (named : w.slotAt (.viewAction v) id = some k) :
    (∃ code, k = .client code) ∨ ∃ c, k = .controllerAction c := by
  cases link : k.link? with
  | none =>
      cases k with
      | client code => exact .inl ⟨code, rfl⟩
      | _ => cases link
  | some l =>
      have port := wired.port_of_slot named link
      cases l with
      | model c => cases bound : (w.controller c).model <;> simp [ports, modelPorts, bound] at port
      | view c =>
          cases bound : (w.controller c).view <;> simp [ports, viewPorts, bound] at port
          exact .inr ⟨c, port.2⟩
      | attachment u =>
          cases bound : (w.view u).attachment <;> simp [ports, attachmentPorts, bound] at port

/-- And to what a controller tells listen views and the client. -/
theorem listener_of_tone (wired : Wired none w) {tone : Tone} {c : Nat} {id : ConnectionId}
    {k : Slot σ} (named : w.slotAt (tone.signal c) id = some k) :
    (∃ code, k = .client code) ∨ ∃ v, k = tone.slot v := by
  cases link : k.link? with
  | none =>
      cases k with
      | client code => exact .inl ⟨code, rfl⟩
      | _ => cases link
  | some l =>
      have port := wired.port_of_slot named link
      cases l with
      | model c =>
          cases bound : (w.controller c).model <;> cases tone <;>
            simp [ports, modelPorts, bound, Tone.signal] at port
      | view c =>
          cases bound : (w.controller c).view <;> cases tone <;>
            simp [ports, viewPorts, bound, Tone.signal] at port
      | attachment u =>
          cases bound : (w.view u).attachment <;> cases tone <;>
            simp [ports, attachmentPorts, bound, Tone.signal] at port
          · exact .inr ⟨u, port.2⟩
          · exact .inr ⟨u, port.2⟩

/-- A view listens to a controller that is alive by one connection if it is attached to it, and
    by none if it is not. -/
theorem Social.tone_listeners (social : Social w) {c : Nat} (alive : w.isControllerAlive c = true)
    (tone : Tone) (v : Nat) : w.viewSlots (tone.signal c) v =
      if w.viewController? v = some c then [tone.slot v] else [] := by
  have belong : ∀ id k, w.slotAt (tone.signal c) id = some k →
      (decide (k.view? = some v)) = true → k.link? = some (.attachment v) :=
    fun id k _ holds => Slot.view?_eq_some.mp (of_decide_eq_true holds)
  split
  · next attached =>
      refine social.wired.slots_port belong ?_ (by cases tone <;> simp [Tone.slot, Slot.view?])
        (social.open_of_alive alive (tone.signal_mem c))
      cases linked : (w.view v).attachment with
      | none => simp [viewController?, linked] at attached
      | some a =>
          have same : a.controller = c := by
            simp only [viewController?, linked] at attached
            split at attached
            · exact Option.some.inj attached
            · cases attached
          simpa [ports, linked, same] using tone.port_mem v c
  · next other =>
      refine social.wired.slots_none belong fun id k named port => other ?_
      have link : k.link? = some (.attachment v) := by
        cases linked : (w.view v).attachment with
        | none => simp [ports, linked] at port
        | some a =>
            simp only [ports, linked, Option.map_some, Option.getD_some] at port
            exact link_attachmentPorts v _ _ port
      exact attached_of_line social.toIntact alive (social.wired.booked named link)

/-! ## Turns -/

/-- What holds at any moment of a call, once it was made. -/
structure Since (stays : List Link) (w w' : Ensemble σ ε) : Prop where
  social : Social w'
  held : ∀ l ∈ stays, w'.isHeld l = true
  tame : Tame stays w w'
  settled : StaySettled w w'

theorem Since.civil {w₁ : Ensemble σ ε} (since : Since stays w w₁) (civil : Civil stays w₁ w') :
    Since stays w w' := by
  obtain ⟨social, tame, settled⟩ := civil since.social
  exact ⟨social, fun l spared => (tame.tied l spared (since.held l spared)).1,
    tame_composes.trans since.tame tame, since.settled.trans settled⟩

theorem Since.refl (social : Social w) (held : ∀ l ∈ stays, w.isHeld l = true) :
    Since stays w w :=
  ⟨social, held, tame_composes.refl w, fun _ _ _ h => h⟩

theorem Since.alive (since : Since stays w w') {c : Nat} (pinned : 0 < (w.controller c).pins) :
    w'.isControllerAlive c = true := by
  simp [isControllerAlive, Controller.isAlive, since.tame.pins c, pinned]

section Turns

variable {s : SignalRef} {notice : Notice} {link : Nat → Link}
  {serves : Nat → Ensemble σ ε → Ensemble σ ε → Prop}

/-- What the client connected has its turn as it may. -/
theorem turn_of_client {entry : ConnectionId × Connection (Slot σ)} {code : σ}
    (listens : entry.2.slot = .client code) (d : Discipline σ ε) :
    Ends (visit (runUnder β depth d) s notice [entry]) w fun _ w' =>
      Turn β stays s notice link serves entry w w' := by
  intro _ w' h
  have covers := covers_runUnder β depth d
  refine .client listens ⟨depth, ?_⟩
  exact (visit_tracks anyhow_composes s notice [entry] (fun _ _ => covers _)
    (fun _ _ _ => trivial) w _ w' h).1

/-- Whoever listens has its turn if it still has the subscription. -/
theorem turn_of_link {run : Runner σ ε} {entry : ConnectionId × Connection (Slot σ)} {i : Nat}
    (intact : Intact none w) (listens : entry.2.slot.link? = some (link i))
    (direct : entry.2.delivery = .direct)
    (settled : (w.signal s).Settled (· = entry.2.slot) entry.1)
    (remains : link i ∈ stays → .connection s entry.1 ∈ w.lines (link i))
    (served : .connection s entry.1 ∈ w.lines (link i) → (w.signal s).closed = false ∧
      Ends (run (.slot entry.2.slot notice)) w fun _ w' => serves i w w') :
    Ends (visit run s notice [entry]) w fun _ w' =>
      Turn β stays s notice link serves entry w w' := by
  refine .get_bind ?_
  split
  · next connected =>
      have line := line_of_connected intact settled listens connected
      have delivered : deliver run s notice entry.1 entry.2 = run (.slot entry.2.slot notice) := by
        unfold deliver
        rw [direct]
      rw [delivered]
      refine .bind (((served line).2).mono fun _ w' serves => ?_)
      exact (ends_pure () w' _).mpr (.served listens line serves)
  · next missing =>
      have ended : .connection s entry.1 ∉ w.lines (link i) := fun line =>
        missing (connected_of_line intact (served line).1 line)
      exact (ends_pure () w _).mpr (.passed listens (fun stays => ended (remains stays)) ended)

variable (own : BindsOwn β)
include own

/-- The induction is on who still has to have a turn. -/
theorem round_of_visit {connections : List (ConnectionId × Connection (Slot σ))} {w₀ : Ensemble σ ε}
    (since : Since stays w₀ w)
    (turns : ∀ entry ∈ connections, ∀ w, Since stays w₀ w →
      Ends (visit (runUnder β depth (mingling stays)) s notice [entry]) w fun _ w' =>
        Turn β stays s notice link serves entry w w') :
    Ends (visit (runUnder β depth (mingling stays)) s notice connections) w fun _ w' =>
      Round (Turn β stays s notice link serves) connections w w' := by
  induction connections generalizing w with
  | nil => exact (ends_pure () w _).mpr (.over w)
  | cons entry rest ih =>
      have civil : Keeps (Civil stays)
          (visit (runUnder β depth (mingling stays)) s notice [entry]) :=
        (visit_tracks civil_composes s notice [entry]
          (fun _ _ => (tracks_self _).mpr (mingling_civil own depth _)) civil_post).keeps
      rw [← List.singleton_append, visit_append]
      have now := turns entry List.mem_cons_self w since
      refine .bind ((now.and (civil w)).mono fun _ w₁ ⟨turn, between⟩ => ?_)
      have later := ih (since.civil between) fun e member => turns e (List.mem_cons_of_mem _ member)
      exact later.mono fun _ _ round => .next turn round

/-- Everybody who listens when a notice is emitted has one turn. -/
theorem emitted_of_emit (slot : Nat → Slot σ) (social : Social w)
    (held : ∀ l ∈ stays, w.isHeld l = true)
    (links : ∀ i, (slot i).link? = some (link i)) (aside : ∀ i c, slot i ≠ .controllerData c)
    (listeners : ∀ id k, w.slotAt s id = some k → (∃ code, k = .client code) ∨ ∃ i, k = slot i)
    (served : ∀ w₁ i id, Since stays w w₁ → .connection s id ∈ w₁.lines (link i) →
      (w₁.signal s).closed = false ∧
      Ends (runUnder β depth (mingling stays) (.slot (slot i) notice)) w₁
        fun _ w' => serves i w₁ w') :
    Ends (emit (runUnder β depth (mingling stays)) s notice) w fun _ w' =>
      Emitted β stays s notice link serves w w' := by
  refine .get_bind ?_
  dsimp only
  unfold Emitted
  split
  · exact (ends_pure () w _).mpr rfl
  · refine round_of_visit own (.refl social held) fun entry member w₁ since => ?_
    rcases listeners entry.1 entry.2.slot (slotAt_of_mem member) with ⟨code, client⟩ | ⟨i, same⟩
    · exact turn_of_client client (mingling stays)
    · have listens : entry.2.slot.link? = some (link i) := by rw [same, links]
      have direct : entry.2.delivery = .direct := by
        refine (social.prompt s entry.2 (Signal.has_of_mem member)).resolve_right ?_
        rintro (client | ⟨c, data⟩)
        · rw [Slot.not_isClient_of_link listens] at client
          cases client
        · exact aside i c (same.symm.trans data)
      have settled := settled_of_connection member
      have remains : link i ∈ stays → .connection s entry.1 ∈ w₁.lines (link i) := by
        intro spared
        have connected : (w.signal s).isConnected entry.1 = true :=
          Signal.contains_of_slot? (slotAt_of_mem member)
        rw [(since.tame.tied _ spared (held _ spared)).2.2]
        exact line_of_connected social.toIntact settled listens connected
      refine turn_of_link since.social.toIntact listens direct (since.settled _ s _ settled) remains
        fun line => ?_
      rw [same]
      exact served w₁ i entry.1 since line

end Turns

/-! ## What controllers tell -/

theorem comes_of_covered {α : Type} {p : Runner σ ε → Proc (Ensemble σ ε) α}
    {q : Proc (Ensemble σ ε) α} {r : α} (covered : Tracks Anyhow q (p (run β depth)))
    (ended : q w = some (r, w')) : Comes β p w r w' :=
  ⟨depth, (covered w r w' ended).1⟩

theorem shown_of_serve {run : Runner σ ε} (covers : Covers run (Ensemble.run β depth)) {tone : Tone}
    {c : Nat} {message : String} {v : Nat} (attached : w.viewController? v = some c) :
    Ends (serve run β (tone.slot v) (.text message)) w fun _ w' =>
      Shown β tone c message v w w' := by
  have shows : tone.isShown message = true →
      Ends (ifViewAlive run v (run.client (tone.hook β v message))) w fun _ w' =>
        Shown β tone c message v w w' := by
    intro shown
    refine .get_bind ?_
    split
    · next alive =>
        intro _ w' h
        refine ⟨attached, ?_⟩
        rw [if_pos ⟨shown, alive⟩]
        exact comes_of_covered (p := fun run => holdingView run v (run.client _))
          (covers.holdingView v (covers.client _)) h
    · next dead =>
        refine (ends_pure () w _).mpr ⟨attached, ?_⟩
        rw [if_neg fun both => dead both.2]
  cases tone with
  | error => exact shows rfl
  | done =>
      by_cases empty : message.isEmpty = true
      · have silent : serve run β (Tone.slot v .done) (.text message) = pure () := if_pos empty
        rw [silent]
        refine (ends_pure () w _).mpr ⟨attached, ?_⟩
        rw [if_neg fun both => by simp [Tone.isShown, empty] at both]
      · have heard : serve run β (Tone.slot v .done) (.text message) =
            ifViewAlive run v (run.client (Tone.hook β v message .done)) := if_neg empty
        rw [heard]
        exact shows (by simpa [Tone.isShown] using empty)

variable (own : BindsOwn β)
include own

theorem conveyed_of_emit (social : Social w) (held : ∀ l ∈ stays, w.isHeld l = true) {c : Nat}
    (pinned : 0 < (w.controller c).pins) (tone : Tone) (message : String) :
    Ends (emit (runUnder β depth (mingling stays)) (tone.signal c) (.text message)) w fun _ w' =>
      Conveyed β stays tone c message w w' := by
  have alive : w.isControllerAlive c = true := by
    simp [isControllerAlive, Controller.isAlive, pinned]
  have emitted : Ends (emit (runUnder β depth (mingling stays)) (tone.signal c) (.text message)) w
      fun _ w' => Emitted β stays (tone.signal c) (.text message) .attachment
        (Shown β tone c message) w w' :=
    emitted_of_emit own (fun v => tone.slot v) social held (fun v => tone.link_slot v)
      (fun v b => by cases tone <;> simp [Tone.slot])
      (fun id k named => listener_of_tone social.wired named)
      fun w₁ v id since line => by
        have alive₁ := since.alive pinned
        have attached := attached_of_line since.social.toIntact alive₁ line
        exact ⟨since.social.open_of_alive alive₁ (tone.signal_mem c), ends_runUnder fun depth =>
          shown_of_serve (covers_runUnder β depth _) attached⟩
  exact emitted.mono fun _ w' emitted => ⟨social.tone_listeners alive tone, emitted⟩

/-! ## What controllers answer -/

omit own in
theorem refreshed_of_refresh (c : Nat) :
    Ends (refresh (runUnder β depth (mingling stays)) β c) w fun _ w' => Refreshed β c w w' := by
  have covers := covers_runUnder β depth (mingling stays)
  refine .get_bind ?_
  unfold Refreshed
  cases (w.controller c).view with
  | none => exact (ends_pure () w _).mpr rfl
  | some v =>
      have shown := covers.holdingView v
        (.bind anyhow_composes (covers.client (β.derive c)) fun _ => covers.client (β.display v))
      exact fun _ w' h => comes_of_covered (p := fun run => holdingView run v do
        run.client (β.derive c)
        run.client (β.display v)) shown h

theorem answer_of_handleAction (social : Social w) (held : ∀ l ∈ stays, w.isHeld l = true)
    {c : Nat} (pinned : 0 < (w.controller c).pins)
    (name : String) (data : Value) :
    Ends (handleAction (runUnder β depth (mingling stays)) β c name data) w fun _ w' =>
      Answer β stays c name data w w' := by
  have covers := covers_runUnder β depth (mingling stays)
  refine .get_bind ?_
  split
  · next phase =>
      exact (conveyed_of_emit own social held pinned .error notInitialized).mono fun _ _ =>
        .refused phase
  · next phase =>
      have phase := not_not.mp phase
      refine .bind fun handled w₁ h => ?_
      have hook := comes_of_covered (p := fun run => run.client (β.handles c name data))
        (covers.client _) h
      have since := (Since.refl social held).civil (client_civil own depth _ _ _ _ h)
      cases handled with
      | true => exact (ends_pure () w₁ _).mpr (.handled phase hook)
      | false =>
          dsimp only
          rw [if_neg Bool.false_ne_true]
          split
          · next known =>
              refine .bind (((refreshed_of_refresh c).and (refresh_civil own depth c w₁)).mono
                fun _ w₂ ⟨refreshed, civil⟩ => ?_)
              have since₂ := since.civil civil
              have pinned₂ : 0 < (w₂.controller c).pins := by rwa [since₂.tame.pins c]
              exact (conveyed_of_emit own since₂.social since₂.held pinned₂ .done viewUpdated).mono
                fun _ _ => .refreshed phase hook known refreshed
          · next unknown => exact (ends_pure () w₁ _).mpr (.ignored phase hook unknown)

theorem answered_of_serve (social : Social w) (held : ∀ l ∈ stays, w.isHeld l = true) {v c : Nat}
    {name : String} {data : Value} (alive : w.isControllerAlive c = true)
    (bound : (w.controller c).view = some v) :
    Ends (runUnder β depth (mingling stays) (.slot (.controllerAction c) (.action name data))) w
      fun _ w' => Answered β stays v name data c w w' := by
  refine ends_runUnder fun depth => ?_
  have served : serve (runUnder β depth (mingling stays)) β (.controllerAction c)
      (.action name data) w = holdingController (runUnder β depth (mingling stays)) c
        (handleAction (runUnder β depth (mingling stays)) β c name data) w := by
    show ifControllerAlive _ c _ w = _
    unfold ifControllerAlive
    rw [get_bind, if_pos alive]
  intro _ w' h
  obtain ⟨w₁, handling, collected⟩ := holdingController_steps (served.symm.trans h)
  have pinned : 0 < ((holders c (·.held) (·.pins + 1) w).controller c).pins := by simp [holders]
  have held : ∀ l ∈ stays, (holders c (·.held) (·.pins + 1) w).isHeld l = true :=
    fun l spared => (isHeld_hold w c _ l).trans (held l spared)
  have answer := answer_of_handleAction own (social.hold alive) held pinned name data _ w₁ handling
  have collects := (covers_runUnder β depth (mingling stays)).collectController c
  exact ⟨alive, bound, w₁, answer, comes_of_covered collects collected⟩

/-! ## From the view and back -/

omit own in
/-- A view that is not new is as it was once it was held and let go. -/
theorem unpinView_pinView {v : Nat} (used : w.view v ≠ default) :
    unpinView v (pinView v w) = w := by
  have listed := (w.views.get_cases v).resolve_left used
  have same : w.views.set v (w.view v) = w.views := Family.set_get listed
  simp only [unpinView, pinView, updateView, Family.set_set]
  simp only [view, Family.get_set, if_true, Nat.add_sub_cancel] at same ⊢
  rw [same]

theorem emitted_of_action (social : Social w) (held : ∀ l ∈ stays, w.isHeld l = true) (v : Nat)
    (name : String) (data : Value) :
    Ends (emit (runUnder β depth (mingling stays)) (.viewAction v) (.action name data)) w
      fun _ w' => Emitted β stays (.viewAction v) (.action name data) .view
        (Answered β stays v name data) w w' ∧ Since stays w w' := by
  have emitted : Ends (emit (runUnder β depth (mingling stays)) (.viewAction v)
      (.action name data)) w fun _ w' => Emitted β stays (.viewAction v) (.action name data) .view
        (Answered β stays v name data) w w' :=
    emitted_of_emit own .controllerAction social held (fun _ => rfl)
      (fun _ _ same => by cases same) (fun id k named => listener_of_action social.wired named)
      fun w₁ c id since line => by
        obtain ⟨living, bound⟩ := bound_of_line since.social.toIntact line
        exact ⟨since.social.standing _ (.view bound List.mem_cons_self),
          answered_of_serve own since.social since.held living bound⟩
  have civil : Keeps (Civil stays) (emit (runUnder β depth (mingling stays)) (.viewAction v)
      (.action name data)) :=
    (emit_tracks civil_composes _ _
      (fun _ => (tracks_self _).mpr (mingling_civil own depth _)) civil_post).keeps
  exact (emitted.and (civil w)).mono fun _ _ both =>
    ⟨both.1, (Since.refl social held).civil both.2⟩

theorem routed_of_report (social : Social w) (held : ∀ l ∈ stays, w.isHeld l = true) {v : Nat}
    {name : String} {data : Value} (alive : w.isViewAlive v = true) :
    Ends (runUnder β depth (mingling stays) (.action (.report v name data))) w fun _ w' =>
      ((w.view v).enabled = false → w' = w) ∧
        ((w.view v).enabled = true → Routed β stays v name data w w') := by
  refine ends_runUnder fun depth => ?_
  show Ends (holdingView (runUnder β depth (mingling stays)) v
    (report (runUnder β depth (mingling stays)) v name data)) w _
  have enabled : ((pinView v w).view v).enabled = (w.view v).enabled := by simp [pinView]
  refine .modify_bind (.bind (.get_bind ?_))
  change Ends (if ((pinView v w).view v).enabled then _ else _) (pinView v w) _
  rw [enabled]
  split
  · next passed =>
      have held : ∀ l ∈ stays, (pinView v w).isHeld l = true := fun l spared =>
        (isHeld_viewPins w v _ l).trans (held l spared)
      have pinned : Social (pinView v w) := social.viewPins v (·.pins + 1)
      refine (emitted_of_action own pinned held v name data).mono fun _ w₁ both => ?_
      obtain ⟨emitted, since⟩ := both
      have unpinned := since.social.viewPins v (·.pins - 1)
      refine .modify_bind (.bind_of_eq (collectView_eq _ (unpinned.wired.isConnection _)) ?_)
      refine (ends_pure () _ _).mpr ⟨fun shut => by simp [passed] at shut,
        fun _ => ⟨fun c => ?_, w₁, emitted, rfl⟩⟩
      exact views_of_intact social.toIntact c v (.viewAction v, .controllerAction c)
        List.mem_cons_self
  · next shut =>
      -- A view that is disabled is not new, so that it is as before when it is let go.
      have used : w.view v ≠ default := fun new => shut (by rw [new]; rfl)
      refine (ends_pure () _ _).mpr (.modify_bind ?_)
      change Ends _ (unpinView v (pinView v w)) _
      rw [unpinView_pinView used]
      refine .bind_of_eq (collectView_eq _ (social.wired.isConnection _)) ?_
      refine (ends_pure () _ _).mpr ⟨fun _ => ?_, fun passed => absurd passed shut⟩
      unfold withoutView
      rw [if_pos alive]

theorem conveyed_of_report (social : Social w) (held : ∀ l ∈ stays, w.isHeld l = true) {tone : Tone}
    {c : Nat} {message : String} (alive : w.isControllerAlive c = true) :
    Ends (runUnder β depth (mingling stays) (.action (tone.report c message))) w fun _ w' =>
      ∃ w₁, Conveyed β stays tone c message (holders c (·.held) (·.pins + 1) w) w₁ ∧
        Comes β (fun run => collectController run c) (holders c (·.held) (·.pins - 1) w₁) ()
          w' := by
  have pinned : 0 < ((holders c (·.held) (·.pins + 1) w).controller c).pins := by simp [holders]
  have held : ∀ l ∈ stays, (holders c (·.held) (·.pins + 1) w).isHeld l = true :=
    fun l spared => (isHeld_hold w c _ l).trans (held l spared)
  refine ends_runUnder fun depth r w' h => ?_
  have conveyed : Ends (emit (runUnder β depth (mingling stays)) (tone.signal c) (.text message))
      (holders c (·.held) (·.pins + 1) w) fun _ w₁ =>
        Conveyed β stays tone c message (holders c (·.held) (·.pins + 1) w) w₁ :=
    conveyed_of_emit own (social.hold alive) held pinned tone message
  have collects := (covers_runUnder β depth (mingling stays)).collectController c
  cases tone with
  | error | done =>
      obtain ⟨w₁, emitted, collected⟩ := holdingController_steps h
      exact ⟨w₁, conveyed _ w₁ emitted, comes_of_covered collects collected⟩

/-- Whatever a company has come to, a report of a view that is disabled changes nothing, a report
    of an enabled one is routed, and whatever a living controller tells is conveyed. -/
theorem action_routed (company : Company β w) (held : ∀ l ∈ stays, w.isHeld l = true) :
    (∀ depth v name data w', w.isViewAlive v = true →
      runUnder β depth (mingling stays) (.action (.report v name data)) w = some ((), w') →
      ((w.view v).enabled = false → w' = w) ∧
        ((w.view v).enabled = true → Routed β stays v name data w w')) ∧
    ∀ depth tone c message r w', w.isControllerAlive c = true →
      runUnder β depth (mingling stays) (.action (Tone.report c message tone)) w = some (r, w') →
      ∃ w₁, Conveyed β stays tone c message (holders c (·.held) (·.pins + 1) w) w₁ ∧
        Comes β (fun run => collectController run c) (holders c (·.held) (·.pins - 1) w₁) () w' :=
  have social := company.social own
  ⟨fun _ _ _ _ w' alive done => routed_of_report own social held alive () w' done,
    fun _ _ _ _ r w' alive done => conveyed_of_report own social held alive r w' done⟩

/-! ## Controllers that share a view -/

omit own

/-- The first controller handles all actions, the second one unbinds the third, and the fourth
    unbinds itself. The sixth is bound to the eighth view whenever its bindings end, and the tenth
    view has the eleventh detached before it shows anything. What views are shown is written
    down. -/
def wilful : Behaviour Unit (List (Nat × String)) :=
  { Behaviour.plain with
    handles := fun c _ _ =>
      match c with
      | 1 => pure true
      | 2 => do
        let _ ← Program.perform (Action.setView 3 none)
        return false
      | 4 => do
        let _ ← Program.perform (Action.setView 4 none)
        return false
      | _ => pure false
    connect := fun c => pure (if c = 6 then [.client ()] else [])
    job := fun _ => .perform (Action.setView 6 (some 8))
    display := fun v => .perform (Action.change (· ++ [(v, "")]))
    showError := fun v message => .perform (Action.change (· ++ [(v, message)]))
    showInfo := fun v message => do
      if v = 10 then
        let _ ← Program.perform (Action.attach 11 none)
      Program.perform (Action.change (· ++ [(v, message)])) }

theorem bindsOwn_wilful : BindsOwn wilful := by
  intro depth c w bindings w' _ h s id member
  cases h
  split at member <;> simp at member

/-- Four controllers share a view, and all but the first are initialized. Two of them have another
    view attached, too. -/
def sharing : List (Action Unit (List (Nat × String))) :=
  [.initializeController 1, .initializeController 2, .initializeController 3,
    .setView 0 (some 0), .setView 1 (some 0), .setView 2 (some 0), .setView 3 (some 0),
    .attach 1 (some 0), .attach 2 (some 2), .change fun _ => []]

/-- What becomes of it. -/
def shared : Ensemble Unit (List (Nat × String)) :=
  ((performAll (runUnder wilful 9 (mingling [])) sharing (new [])).get (by decide +kernel)).2

/-- All but the last controller stay bound, and the other two views stay attached. -/
def staying : List Link := [.view 0, .view 1, .view 2, .attachment 1, .attachment 2]

/-- The first one refuses the action, the second one handles it, and the third one unbinds the
    last and is refreshed. Later the third one tells something by itself. -/
theorem routed_through_shared_view :
    Company wilful shared ∧ (∀ l ∈ staying, shared.isHeld l = true) ∧
      shared.isViewAlive 0 = true ∧ (shared.view 0).enabled = true ∧
      (∀ c ∈ [0, 1, 2, 3], (shared.controller c).view = some 0) ∧ shared.client = [] ∧
      (∃ w', Routed wilful staying 0 "refresh" .null shared w' ∧
        w'.client = [(1, notInitialized), (0, ""), (2, viewUpdated)]) ∧
      ∃ w₁, Conveyed wilful staying .done 2 "Saved" (holders 2 (·.held) (·.pins + 1) shared)
        w₁ := by
  have company : Company wilful shared := Company.next (.start (fresh_new [])) 9 sharing _
  have held : ∀ l ∈ staying, shared.isHeld l = true := by decide +kernel
  have told : (runUnder wilful 9 (mingling staying) (.action (.report 0 "refresh" .null))
      shared).map (·.2.client) = some [(1, notInitialized), (0, ""), (2, viewUpdated)] := by
    decide +kernel
  obtain ⟨⟨⟨⟩, w'⟩, reported, told⟩ := Option.map_eq_some_iff.mp told
  have saved : (runUnder wilful 9 (mingling staying) (.action (Tone.report 2 "Saved" .done))
      shared).isSome = true := by decide +kernel
  obtain ⟨⟨r, w''⟩, saved⟩ := Option.isSome_iff_exists.mp saved
  obtain ⟨routes, tells⟩ := action_routed bindsOwn_wilful company held
  have routed := (routes 9 0 "refresh" .null w' (by decide +kernel) reported).2 (by decide +kernel)
  obtain ⟨w₁, done, -⟩ := tells 9 .done 2 "Saved" r w'' (by decide +kernel) saved
  exact ⟨company, held, by decide +kernel, by decide +kernel, by decide +kernel, by decide +kernel,
    ⟨w', routed, told⟩, w₁, done⟩

/-- A controller is initialized and bound to a model and a view of its number. The next view is
    attached, too. -/
def alone (c : Nat) : List (Action Unit (List (Nat × String))) :=
  [.initializeController c, .setModel c (some c), .setView c (some c), .attach (c + 1) (some c),
    .change fun _ => []]

/-- What becomes of a controller: to which view it is bound and whether that one is enabled, in
    what phase it is, and what was written down. -/
def outcome (c : Nat) (actions : List (Action Unit (List (Nat × String)))) :
    Option (Option (Nat × Bool) × Phase × List (Nat × String)) :=
  (performAll (run wilful 9) actions (new [])).map fun (_, w) =>
    ((w.controller c).view.map fun v => (v, (w.view v).enabled), (w.controller c).phase, w.client)

/-- A refresh that is asked for comes to nothing if the signal is blocked or has no connections
    any more, a controller that unbinds itself completes it without a view, and one that is bound
    while it binds something else does not hear of it. And a view that is detached by one that
    hears of a completion first does not show it. -/
theorem refresh_without_update :
    outcome 0 (alone 0 ++ [.report 0 "refresh" .null]) =
      some (some (0, true), .initialized, [(0, ""), (0, viewUpdated), (1, viewUpdated)]) ∧
    outcome 0 (alone 0 ++ [.block (.viewAction 0) true, .report 0 "refresh" .null]) =
      some (some (0, true), .initialized, []) ∧
    outcome 0 (alone 0 ++ [.disconnectAll (.viewAction 0), .report 0 "refresh" .null]) =
      some (some (0, true), .initialized, []) ∧
    outcome 4 (alone 4) = some (some (4, true), .initialized, []) ∧
    outcome 4 (alone 4 ++ [.report 4 "refresh" .null]) =
      some (none, .initialized, [(5, ""), (5, viewUpdated)]) ∧
    outcome 6 (alone 6 ++ [.setView 6 (some 9), .change fun _ => [], .report 8 "refresh" .null]) =
      some (some (8, true), .initialized, []) ∧
    outcome 10 (alone 10 ++ [.reportDone 10 "Saved"]) =
      some (some (10, true), .initialized, [(10, "Saved")]) :=
  ⟨by decide +kernel, by decide +kernel, by decide +kernel, by decide +kernel, by decide +kernel,
    by decide +kernel, by decide +kernel⟩

end Ensemble

end Mvc
