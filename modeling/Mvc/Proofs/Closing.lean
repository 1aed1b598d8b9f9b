import Mvc.Proofs.Rebinding

/-! # Whose closing it is

A controller is in the closing phase on account of a view. If closing is announced by views
only, and if no hook that runs when a view closes leaves another view bound that has not
announced closing to the controller, then a controller that closes is bound to a view that
has, however its hooks and slots rebind it otherwise.

`heard` says which announcements count: wherever a view announces closing for the first time,
it is heard by every controller that is bound to it then. What is shown for every such `heard`
is shown for the one that holds of nothing else, that is, of the views that have announced
closing while they were bound.
-/

namespace Mvc.Ensemble

open Proc

variable {σ ε : Type}

/-- A controller is bound to a view that it heard. -/
def Warned (heard : Nat → Nat → Bool) (w : Ensemble σ ε) (c : Nat) : Prop :=
  ∃ v, (w.controller c).view = some v ∧ heard c v = true

/-- Whether all controllers that are bound to a view hear it, if it has not announced closing
    before. -/
def isHeard (heard : Nat → Nat → Bool) (w : Ensemble σ ε) (v : Nat) : Bool :=
  (w.view v).closing || w.controllers.members.all fun (c, o) => o.view != some v || heard c v

/-- Traffic in which only views announce that they close. -/
def heeds (heard : Nat → Nat → Bool) (w : Ensemble σ ε) : Action σ ε → Bool
  | .emit (.viewClosing _) _ | .handleClosing _ => false
  | .announceClosing v => w.isHeard heard v
  | a => w.traffic a

/-- And binding what is still there. -/
def rebinds (heard : Nat → Nat → Bool) (w : Ensemble σ ε) : Action σ ε → Bool
  | .setModel c m => w.isControllerAlive c && m.all fun i => !(w.signal (.modelData i)).closed
  | .setView c v => w.isControllerAlive c &&
      v.all fun u => (viewSignals u).all fun s => !(w.signal s).closed
  | a => w.heeds heard a

/-- Client code at the ends of subscriptions. -/
def quietly (heard : Nat → Nat → Bool) : Discipline σ ε := ⟨heeds heard, heeds heard⟩

/-- Client code that may bind, except at the ends of subscriptions. -/
def freely (heard : Nat → Nat → Bool) : Discipline σ ε := ⟨rebinds heard, heeds heard⟩

/-- Runs from new objects on in which hooks and slots may bind. -/
inductive Course (β : Behaviour σ ε) (heard : Nat → Nat → Bool) : Ensemble σ ε → Prop where
  | start {w} (fresh : Fresh w) : Course β heard w
  | step {w w'} {a : Action σ ε} {r : a.Result} (depth : Nat) (course : Course β heard w)
      (done : runUnder β depth (freely heard) (.action a) w = some (r, w')) : Course β heard w'

variable {heard : Nat → Nat → Bool} {torn : Option Link} {w w' : Ensemble σ ε}

theorem traffic_of_heeds {a : Action σ ε} (allowed : w.heeds heard a = true) :
    w.traffic a = true := by
  cases a with
  | emit s notice => rfl
  | handleClosing | announceClosing => rfl
  | _ => exact allowed

theorem heard_of_isHeard {c v : Nat} (hears : w.isHeard heard v = true)
    (first : (w.view v).closing = false) (bound : (w.controller c).view = some v) :
    heard c v = true := by
  rcases w.controllers.get_cases c with new | listed
  · rw [controller, new] at bound
    cases bound
  · rw [isHeard, first, Bool.false_or, List.all_eq_true] at hears
    have := hears _ listed
    simp only [controller] at bound
    simpa [bound] using this

/-! ## The law -/

/-- What a waiting task serves is settled, and no controller hears of a view by it that it has
    not heard. -/
def Timely (heard : Nat → Nat → Bool) (w : Ensemble σ ε) : Task σ → Prop
  | .delivery s id k _ => (w.signal s).Settled (· = k) id ∧
      ∀ c v, s = .viewClosing v → k = .controllerClosing c → heard c v = true
  | .client _ => True

/-- Controllers close only when they were warned, now and when what waits is served. -/
structure Heeded (heard : Nat → Nat → Bool) (w : Ensemble σ ε) : Prop where
  phases : ∀ c, (w.controller c).held = true → (w.controller c).closing = true → Warned heard w c
  queues : ∀ d t, t ∈ (w.dispatcher d).queue → Timely heard w t

/-- What has to hold where a call is run. -/
def Due (heard : Nat → Nat → Bool) (w : Ensemble σ ε) : Call σ ε → Prop
  | .slot (.controllerClosing c) .closing => Warned heard w c
  | .task t => Timely heard w t
  | _ => True

theorem Timely.mono {t : Task σ} (timely : Timely heard w t) (settled : StaySettled w w') :
    Timely heard w' t := by
  cases t with
  | delivery s id k notice => exact ⟨settled _ s id timely.1, timely.2⟩
  | client code => trivial

theorem Heeded.untouched (heeded : Heeded heard w) (untouched : Untouched w w') :
    Heeded heard w' where
  phases c held closing := by
    obtain ⟨held, same⟩ := untouched.views c held
    obtain ⟨v, bound, hears⟩ := heeded.phases c held ((untouched.phases c).symm.trans closing)
    exact ⟨v, same.trans bound, hears⟩
  queues d t waits := by
    rcases untouched.queues d t waits with before | ⟨code, rfl⟩
    · exact (heeded.queues d t before).mono untouched.settled
    · trivial

/-- The law, where what is bound may change. -/
def heeding (heard : Nat → Nat → Bool) : Regime σ ε where
  law := Heeded heard
  bond := StaySettled
  lasts untouched heeded := heeded.untouched untouched
  of_frame frame := frame.staySettled
  trans first second P s id h := second P s id (first P s id h)
  settled h := h
  around := by
    intro c w w₂ w' bond frame _ P s id h
    refine frame.settled P s id ?_
    rw [signal_holders]
    refine bond P s id ?_
    rwa [signal_holders]

/-- What is connected to a signal is settled. -/
theorem settled_of_connection {s : SignalRef} {entry : ConnectionId × Connection (Slot σ)}
    (member : entry ∈ (w.signal s).connections) :
    (w.signal s).Settled (· = entry.2.slot) entry.1 := by
  refine .inr (.inr ⟨entry.2.slot, ?_, rfl⟩)
  exact Option.map_eq_some_iff.mpr ⟨entry.2, Registry.mem_entries.mp member, rfl⟩

/-- A slot that is still connected may be served. -/
theorem due_of_timely (wired : Wired torn w) {s : SignalRef} {id : ConnectionId} {k : Slot σ}
    {notice : Notice} (timely : Timely heard w (.delivery s id k notice))
    (connected : (w.signal s).isConnected id = true) : Due heard w (.slot k notice) := by
  obtain ⟨settled, hears⟩ := timely
  obtain ⟨entry, named⟩ := Option.isSome_iff_exists.mp connected
  have named : w.slotAt s id = some entry.slot := Option.map_eq_some_iff.mpr ⟨entry, named, rfl⟩
  have same : entry.slot = k := settled.property (wired.sound s) named
  rw [same] at named
  cases k with
  | controllerClosing c =>
      cases notice with
      | closing =>
          have port := wired.port_of_slot named (l := .view c) rfl
          cases bound : (w.controller c).view with
          | none => simp [ports, bound] at port
          | some v =>
              simp [ports, bound, viewPorts] at port
              exact ⟨v, bound, hears c v port rfl⟩
      | _ => trivial
  | _ => trivial

/-- A task that is timely may wait. -/
theorem Heeded.post (heeded : Heeded heard w) (d : Nat) {t : Task σ} (timely : Timely heard w t) :
    Heeded heard (updateDispatcher d (fun q => q.post t) w) where
  phases := heeded.phases
  queues e t' waits := by
    have settled : StaySettled w (updateDispatcher d (fun q => q.post t) w) := by
      intro P s id h
      rwa [signal_updateDispatcher]
    rw [dispatcher_updateDispatcher] at waits
    split at waits
    · rcases List.mem_append.mp waits with before | last
      · exact (heeded.queues d t' before).mono settled
      · rw [List.mem_singleton.mp last]
        exact timely.mono settled
    · exact (heeded.queues e t' waits).mono settled

theorem Warned.of_view {c : Nat} (warned : Warned heard w c)
    (same : (w'.controller c).view = (w.controller c).view) : Warned heard w' c := by
  obtain ⟨v, bound, hears⟩ := warned
  exact ⟨v, same.trans bound, hears⟩

/-- A controller that was warned may close. -/
theorem Heeded.close {c : Nat} (heeded : Heeded heard w) (warned : Warned heard w c) :
    Heeded heard (updateController c (fun o => { o with closing := true }) w) where
  phases b held closing := by
    have view := blind_updateController w c (fun o => { o with closing := true }) (·.view)
      (fun _ => rfl) b
    by_cases here : b = c
    · exact (here ▸ warned).of_view view
    · rw [controller_updateController_ne w c _ here] at held closing
      exact (heeded.phases b held closing).of_view view
  queues d t waits := (heeded.queues d t waits).mono fun P s id h => by
    rwa [signal_updateController w c (by exact fun _ => ⟨rfl, rfl, rfl⟩)]

/-- Whoever leaves a view does not close any more. -/
theorem Heeded.tearView (heeded : Heeded heard w) (c : Nat) (v : Option Nat) :
    Heeded heard (tearView c v w) := by
  refine Heeded.untouched ⟨fun b held closing => ?_, fun d t waits => ?_⟩ (untouched_cutAll _ _)
  · by_cases here : b = c
    · subst here
      simp [rebindView] at closing
    · have same := controller_updateController_ne w c (rebindView v) here
      rw [same] at held closing
      exact (heeded.phases b held closing).of_view (by rw [same])
  · exact (heeded.queues d t waits).mono fun P s id h => by
      rwa [signal_updateController w c (by exact fun _ => ⟨rfl, rfl, rfl⟩)]

theorem leaving_of_heeded {g : Regime σ ε} (law : ∀ w, g.law w ↔ Heeded heard w)
    {w : Ensemble σ ε} (c : Nat) (v : Option Nat) (lawful : g.law w) : g.law (tearView c v w) :=
  (law _).mpr (((law w).mp lawful).tearView c v)

/-! ## What calls set off -/

section Calls

variable {g : Regime σ ε} {β : Behaviour σ ε} {run : Runner σ ε}
  (law : ∀ w, g.law w ↔ Heeded heard w)
  (calls : ∀ call w, Due heard w call → Ends (run call) w fun _ w' => Calm g torn w w')

section Emission

include law calls

theorem deliver_kept {s : SignalRef} {notice : Notice} {id : ConnectionId}
    {connection : Connection (Slot σ)} (intact : Intact torn w) (lawful : g.law w)
    (timely : Timely heard w (.delivery s id connection.slot notice))
    (connected : (w.signal s).isConnected id = true) :
    Ends (deliver run s notice id connection) w fun _ w' => Kept g torn w w' := by
  have served : Ends (run (.slot connection.slot notice)) w fun _ w' => Kept g torn w w' :=
    (calls _ w (due_of_timely intact.wired timely connected)).mono fun _ _ calm =>
      calm intact lawful
  unfold deliver
  cases connection.delivery with
  | direct => exact served
  | dispatched mode d =>
      refine .get_bind ?_
      split
      · exact served
      · refine (ends_modify _ _ _).mpr ?_
        obtain ⟨intact', frame⟩ := intact.of_same (signal_updateDispatcher w d _) (fun _ => rfl)
          (fun _ h => h) fun _ => rfl
        exact ⟨intact', g.of_frame frame, (law _).mpr (((law w).mp lawful).post d timely)⟩

/-- The induction is on what is still to be visited. What is settled stays so. -/
theorem visit_kept {s : SignalRef} {notice : Notice}
    {connections : List (ConnectionId × Connection (Slot σ))} (intact : Intact torn w)
    (lawful : g.law w)
    (timely : ∀ entry ∈ connections, Timely heard w (.delivery s entry.1 entry.2.slot notice)) :
    Ends (visit run s notice connections) w fun _ w' => Kept g torn w w' := by
  induction connections generalizing w with
  | nil => exact (ends_pure () w _).mpr (.refl intact lawful)
  | cons first rest ih =>
      have others : ∀ w₁, Kept g torn w w₁ →
          Ends (visit run s notice rest) w₁ fun _ w' => Kept g torn w₁ w' := by
        intro w₁ kept
        refine ih kept.1 kept.2.2 fun entry member => ?_
        exact (timely entry (List.mem_cons_of_mem _ member)).mono (g.settled kept.2.1)
      refine .get_bind ?_
      split
      · next connected =>
          have now := timely first List.mem_cons_self
          exact Kept.bind ((deliver_kept law calls intact lawful now connected).mono
            fun _ w₁ kept => ⟨kept, others w₁ kept⟩)
      · exact others w (.refl intact lawful)

theorem emit_kept {s : SignalRef} {notice : Notice} (intact : Intact torn w) (lawful : g.law w)
    (hears : ∀ c v, s = .viewClosing v → (w.controller c).view = some v → heard c v = true) :
    Ends (emit run s notice) w fun _ w' => Kept g torn w w' := by
  refine .get_bind ?_
  dsimp only
  split
  · exact (ends_pure () w _).mpr (.refl intact lawful)
  · refine visit_kept law calls intact lawful fun entry member => ?_
    have settled := settled_of_connection member
    refine ⟨settled, ?_⟩
    rintro c v rfl slot
    have named : w.slotAt (.viewClosing v) entry.1 = some entry.2.slot :=
      Option.map_eq_some_iff.mpr ⟨entry.2, Registry.mem_entries.mp member, rfl⟩
    rw [slot] at named
    have port := intact.wired.port_of_slot named (l := .view c) rfl
    cases bound : (w.controller c).view with
    | none => simp [ports, bound] at port
    | some u =>
        simp only [ports, bound, viewPorts, Option.map_some, Option.getD_some, List.mem_cons,
          Prod.mk.injEq, reduceCtorEq, false_and, SignalRef.viewClosing.injEq, and_true,
          List.not_mem_nil, or_false, false_or] at port
        exact hears c v rfl (port ▸ bound)

theorem emit_calm (s : SignalRef) (notice : Notice) (other : ∀ v, s ≠ .viewClosing v) :
    Keeps (Calm g torn) (emit run s notice) :=
  keeps_calm.mpr fun _ intact lawful => emit_kept law calls intact lawful fun _ v same =>
    absurd same (other v)

theorem drain_calm (d fuel : Nat) : Keeps (Calm g torn) (drain run d fuel) := by
  induction fuel with
  | zero => exact fun _ _ _ h => by cases h
  | succ fuel ih =>
      refine keeps_calm.mpr fun w intact lawful => ?_
      refine .get_bind ?_
      cases queue : (w.dispatcher d).queue with
      | nil =>
          simp only [Dispatcher.next?, queue]
          exact (ends_pure 0 w _).mpr (.refl intact lawful)
      | cons t rest =>
          simp only [Dispatcher.next?, queue]
          have timely : Timely heard w t :=
            ((law w).mp lawful).queues d t (by rw [queue]; exact List.mem_cons_self)
          have taken := intact.updateDispatcher d
            (f := fun _ => { w.dispatcher d with queue := rest }) fun t waits =>
              .inl (by rw [queue]; exact List.mem_cons_of_mem _ waits)
          have kept₁ := Kept.of_routine lawful taken
          refine Kept.bind ((ends_modify _ _ _).mpr ⟨kept₁, ?_⟩)
          have served := calls (.task t) _ (timely.mono taken.2.settled)
          refine Kept.bind (served.mono fun _ w₂ calm => ?_)
          have kept₂ := calm kept₁.1 kept₁.2.2
          refine ⟨kept₂, ?_⟩
          have kept₃ := Kept.of_routine kept₂.2.2
            (kept₂.1.updateDispatcher d (f := Dispatcher.finish) fun t waits => .inl waits)
          refine Kept.bind ((ends_modify _ _ _).mpr ⟨kept₃, ?_⟩)
          refine Kept.bind ((keeps_calm.mp ih _ kept₃.1 kept₃.2.2).mono fun n w₄ kept₄ => ?_)
          exact ⟨kept₄, (ends_pure _ w₄ _).mpr (.refl kept₄.1 kept₄.2.2)⟩

end Emission

variable (ending : ∀ code, Keeps (Calm g.framed torn) (run (.subscription code)))

section Keeper

include law calls ending

theorem keeper_heeded (own : BindsOwnBy β run) : Keeper (Calm g torn) β run run :=
  keeper_calm ending (fun a w => calls (.action a) w trivial) (emit_calm law calls)
    (drain_calm law calls) own

end Keeper

variable (k : Keeper (Calm g torn) β run run)

section Serving

variable (hooks : ∀ c w, Intact torn w → Heeded heard w → 0 < (w.controller c).pins →
  (w.controller c).closing = false → Warned heard w c →
  Ends (run.client (β.closing c)) w fun _ w' => Warned heard w' c)

include law k hooks

theorem handleClosing_kept {c : Nat} (intact : Intact torn w) (lawful : g.law w)
    (pinned : 0 < (w.controller c).pins) (warned : Warned heard w c) :
    Ends (handleClosing run β c) w fun _ w' => Kept g torn w w' := by
  refine .get_bind ?_
  split
  · exact (ends_pure () w _).mpr (.refl intact lawful)
  · next first =>
      have hooked := hooks c w intact ((law w).mp lawful) pinned (eq_false_of_ne_true first) warned
      have calm := keeps_calm.mp (k.client (β.closing c)).keeps w intact lawful
      refine Kept.bind ((calm.and hooked).mono fun _ w₁ ⟨kept, warned₁⟩ => ⟨kept, ?_⟩)
      obtain ⟨intact₂, frame⟩ := kept.1.closing c
      have kept₂ : Kept g torn w₁ _ :=
        ⟨intact₂, g.of_frame frame, (law _).mpr (((law w₁).mp kept.2.2).close warned₁)⟩
      refine Kept.bind ((ends_modify _ _ _).mpr ⟨kept₂, ?_⟩)
      exact keeps_calm.mp (k.emitPhase c).keeps _ kept₂.1 kept₂.2.2

include ending

theorem serve_kept {slot : Slot σ} {notice : Notice} (intact : Intact torn w)
    (lawful : g.law w) (due : Due heard w (.slot slot notice)) :
    Ends (serve run β slot notice) w fun _ w' => Kept g torn w w' := by
  by_cases closing : ∃ c, slot = .controllerClosing c ∧ notice = .closing
  · obtain ⟨c, rfl, rfl⟩ := closing
    refine .get_bind ?_
    split
    · refine holdingController_kept ending intact lawful c fun intact₁ lawful₁ => ?_
      refine handleClosing_kept law k hooks intact₁ lawful₁ (by simp [holders]) ?_
      exact Warned.of_view due (blind_holders w c _ _ (·.view) (fun _ _ _ => rfl) c)
    · exact (ends_pure () w _).mpr (.refl intact lawful)
  · intro r w' h
    exact (k.serve slot notice (fun c same same' => absurd ⟨c, same, same'⟩ closing) w r w' h).2
      intact lawful

end Serving

include calls k in
theorem task_kept {t : Task σ} (intact : Intact torn w) (lawful : g.law w)
    (timely : Timely heard w t) : Ends (runTask run β t) w fun _ w' => Kept g torn w w' := by
  cases t with
  | delivery s id slot notice =>
      refine .get_bind ?_
      split
      · next connected =>
          exact (calls _ w (due_of_timely intact.wired timely connected)).mono fun _ _ calm =>
            calm intact lawful
      · exact (ends_pure () w _).mpr (.refl intact lawful)
  | client code => exact keeps_calm.mp (k.client _).keeps w intact lawful

section Actions

include law calls

theorem announceClosing_kept {v : Nat} (intact : Intact torn w) (lawful : g.law w)
    (hears : w.isHeard heard v = true) :
    Ends (holdingView run v (announceClosing run v)) w fun _ w' => Kept g torn w w' := by
  refine holdingView_kept intact lawful v fun intact₁ lawful₁ => ?_
  refine .get_bind ?_
  split
  · exact (ends_pure () _ _).mpr (.refl intact₁ lawful₁)
  · next first =>
      have announced := Kept.of_routine lawful₁ (intact₁.updateView v
        (f := fun o => { o with closing := true }) (fun _ => ⟨rfl, rfl, rfl⟩) fun _ => rfl)
      refine Kept.bind ((ends_modify _ _ _).mpr ⟨announced, ?_⟩)
      refine emit_kept law calls announced.1 announced.2.2 fun c u same bound => ?_
      cases same
      refine heard_of_isHeard hears ?_ bound
      rw [view_updateView_self] at first
      exact eq_false_of_ne_true first

include k ending

theorem performAction_kept {fuel : Nat} {a : Action σ ε} (intact : Intact torn w)
    (lawful : g.law w) (allowed : w.heeds heard a = true) :
    Ends (performAction run β fuel a) w fun _ w' => Kept g torn w w' := by
  intro r w' h
  refine (performAction_calm ending k fuel (traffic_of_heeds allowed) (fun closing => ?_) r w' h).2
    intact lawful
  cases a with
  | announceClosing v =>
      refine fun r w' h => ⟨h, fun intact lawful => ?_⟩
      exact announceClosing_kept law calls intact lawful allowed r w' h
  | emit s notice =>
      cases s with
      | viewClosing v => cases allowed
      | _ => cases closing
  | handleClosing c => cases allowed
  | _ => cases closing

end Actions

end Calls

/-! ## Binding -/

section Binding

variable {g : Regime σ ε} {β : Behaviour σ ε} {run : Runner σ ε}
  (leaving : ∀ {w} c v, g.law w → g.law (tearView c v w))
  (loose : ∀ {w w'}, Untouched w w' → g.bond w w')
  (ending : ∀ torn code, Keeps (Calm g.framed torn) (run (.subscription code)))
  (k : Keeper (Calm g none) β run run)

include loose k

/-- After a link was tied again, the phase is announced. -/
theorem announce_kept {w₀ w₁ w₂ : Ensemble σ ε} {c : Nat} {r : Unit} (torn : g.bond w w₀)
    (frame : Frame w₀ w₁) (lawful : g.law w₁) (tied : Intact none w₂) (joined : Untouched w₁ w₂)
    (announced : announce run β c w₂ = some (r, w')) : Kept g none w w' := by
  have calm := (Tracks.bind k.order (k.rebindIfReady c) fun _ => k.emitPhase c).keeps
  obtain ⟨intact', bond, lawful'⟩ := calm w₂ r w' announced tied (g.lasts joined lawful)
  exact ⟨intact', g.trans (g.trans torn (g.of_frame frame)) (g.trans (loose joined) bond), lawful'⟩

include ending

theorem setModel_kept {c : Nat} {m : Option Nat} (intact : Intact none w) (lawful : g.law w)
    (pinned : 0 < (w.controller c).pins)
    (opened : ∀ i, m = some i → (w.signal (.modelData i)).closed = false) :
    Ends (setModel run β c m) w fun _ w' => Kept g none w w' := by
  intro r w' h
  by_cases same : (w.controller c).model = m
  · unfold setModel at h
    rw [get_bind] at h
    dsimp only at h
    rw [if_pos same] at h
    cases h
    exact .refl intact lawful
  · obtain ⟨w₂, -, frame, -, lawful₂, tied, joined, announced⟩ :=
      setModel_steps (ending (some (.model c))) intact lawful pinned opened same h
    exact announce_kept loose k (loose (untouched_tearModel c m w)) frame lawful₂ tied joined
      announced

include leaving

theorem setView_kept {c : Nat} {v : Option Nat} (intact : Intact none w) (lawful : g.law w)
    (pinned : 0 < (w.controller c).pins)
    (opened : ∀ u, v = some u → ∀ s ∈ viewSignals u, (w.signal s).closed = false)
    (tears : (w.controller c).view ≠ v → ∀ w₁, (∀ b, w₁.controller b = w.controller b) →
      g.bond w₁ (tearView c v w₁)) :
    Ends (setView run β c v) w fun _ w' => Kept g none w w' := by
  intro r w' h
  by_cases same : (w.controller c).view = v
  · unfold setView at h
    rw [get_bind] at h
    dsimp only at h
    rw [if_pos same] at h
    cases h
    exact .refl intact lawful
  · have holding := untouched_holdOld (w.controller c).view w
    have torn := tears same _ (controller_holdOld (w.controller c).view w)
    obtain ⟨w₂, -, frame, -, lawful₂, tied, joined, announced⟩ := setView_steps
      (ending (some (.view c))) intact (leaving c v (g.lasts holding lawful)) pinned opened same h
    exact announce_kept loose k (g.trans (loose holding) torn) frame lawful₂ tied joined announced

/-- What may be bound is bound while the controller is held, and the view too. -/
theorem bind_kept {fuel : Nat} {a : Action σ ε} (intact : Intact none w) (lawful : g.law w)
    (allowed : w.rebinds heard a = true) (binds : a.isBinding = true)
    (tears : ∀ c v, a = .setView c v → (w.controller c).view ≠ v → ∀ w₁ : Ensemble σ ε,
      (∀ b, (w₁.controller b).view = (w.controller b).view) → g.bond w₁ (tearView c v w₁)) :
    Ends (performAction run β fuel a) w fun _ w' => Kept g none w w' := by
  have pinned : ∀ c, 0 < ((holders c (·.held) (·.pins + 1) w).controller c).pins := by
    simp [holders]
  cases a with
  | setModel c m =>
      simp only [rebinds, Bool.and_eq_true] at allowed
      refine holdingController_kept (ending none) intact lawful c fun intact₁ lawful₁ => ?_
      refine setModel_kept loose ending k intact₁ lawful₁ (pinned c) fun i bound => ?_
      rw [signal_holders]
      simpa [bound] using allowed.2
  | setView c v =>
      simp only [rebinds, Bool.and_eq_true] at allowed
      refine holdingController_kept (ending none) intact lawful c fun intact₁ lawful₁ => ?_
      have opened : ∀ u, v = some u → ∀ s ∈ viewSignals u,
          ((holders c (·.held) (·.pins + 1) w).signal s).closed = false := by
        intro u bound s member
        rw [signal_holders]
        have opened := allowed.2
        rw [bound] at opened
        simpa using List.all_eq_true.mp opened s member
      have views : ∀ b, ((holders c (·.held) (·.pins + 1) w).controller b).view =
          (w.controller b).view := blind_holders w c _ _ (·.view) fun _ _ _ => rfl
      have tears : ((holders c (·.held) (·.pins + 1) w).controller c).view ≠ v →
          ∀ w₁ : Ensemble σ ε, (∀ b, w₁.controller b =
            (holders c (·.held) (·.pins + 1) w).controller b) → g.bond w₁ (tearView c v w₁) :=
        fun other w₁ same => tears c v rfl (views c ▸ other) w₁ fun b =>
          (congrArg _ (same b)).trans (views b)
      cases v with
      | none => exact setView_kept leaving loose ending k intact₁ lawful₁ (pinned c) opened tears
      | some x =>
          refine holdingView_kept intact₁ lawful₁ x fun intact₂ lawful₂ => ?_
          refine setView_kept leaving loose ending k intact₂ lawful₂ (pinned c)
            (fun u bound s member => ?_) tears
          rw [signal_updateView _ x (by exact fun _ => ⟨rfl, rfl, rfl⟩)]
          exact opened u bound s member
  | _ => cases binds

end Binding

/-! ## Whole runs -/

/-- Whoever is warned when it runs its hook is warned when the hook ends. -/
def LeavesHeard (β : Behaviour σ ε) (heard : Nat → Nat → Bool) : Prop :=
  ∀ depth c w, Intact none w → Heeded heard w → 0 < (w.controller c).pins →
    (w.controller c).closing = false → Warned heard w c →
    Ends ((runUnder β depth (freely heard)).client (β.closing c)) w fun _ w' => Warned heard w' c

section Runs

variable {β : Behaviour σ ε}

/-- At the ends of subscriptions the law is kept within a frame, with any link torn. -/
theorem quietly_calm (own : BindsOwn β) (depth : Nat) (call : Call σ ε) (w : Ensemble σ ε)
    (due : Due heard w call) : Ends (runUnder β depth (quietly heard) call) w
      fun _ w' => Calm (heeding heard).framed torn w w' := by
  induction depth generalizing call w with
  | zero => exact fun _ _ h => by cases h
  | succ depth ih =>
      have inside : (quietly heard).inside call = quietly heard := by cases call <;> rfl
      have law : ∀ w : Ensemble σ ε, (heeding heard).framed.law w ↔ Heeded heard w :=
        fun _ => .rfl
      have ending : ∀ code, Keeps (Calm (heeding heard).framed.framed torn)
          (runUnder β depth (quietly heard) (.subscription code)) := fun code w => ih _ w trivial
      have k := keeper_heeded law ih ending (own.runUnder depth (quietly heard))
      intro r w' h intact heeded
      simp only [runUnder, inside] at h
      split at h
      · next admitted =>
          cases call with
          | slot slot notice =>
              -- A hook that binds nothing leaves the view bound that the controller was warned of.
              refine serve_kept law ending k (fun c w intact heeded pinned _ warned => ?_) intact
                heeded due r w' h
              refine (keeps_calm.mp (k.client (β.closing c)).keeps w intact heeded).mono ?_
              intro _ w₁ kept
              exact warned.of_view (bonds_of_pinned kept.2.1 pinned).1.2.1
          | task t => exact task_kept ih k intact heeded due r w' h
          | subscription code => exact (k.client _ w r w' h).2 intact heeded
          | action a => exact performAction_kept law ih ending k intact heeded admitted r w' h
      · cases h

/-- And so it is kept under every regime with this law. -/
theorem calm_of_quietly {g : Regime σ ε} (law : ∀ w, g.law w ↔ Heeded heard w)
    (own : BindsOwn β) (depth : Nat) (call : Call σ ε) (w : Ensemble σ ε)
    (due : Due heard w call) :
    Ends (runUnder β depth (quietly heard) call) w fun _ w' => Calm g torn w w' := by
  intro r w' h intact lawful
  have calm : Calm (heeding heard).framed torn w w' := quietly_calm own depth call w due r w' h
  obtain ⟨intact', frame, heeded⟩ := calm intact ((law w).mp lawful)
  exact ⟨intact', g.of_frame frame, (law w').mpr heeded⟩

/-- Hooks and slots that may bind keep the law. -/
theorem freely_calm (own : BindsOwn β) (leaves : LeavesHeard β heard) (depth : Nat)
    (call : Call σ ε) (w : Ensemble σ ε) (due : Due heard w call) :
    Ends (runUnder β depth (freely heard) call) w
      fun _ w' => Calm (heeding heard) none w w' := by
  induction depth generalizing call w with
  | zero => exact fun _ _ h => by cases h
  | succ depth ih =>
      have law : ∀ w : Ensemble σ ε, (heeding heard).law w ↔ Heeded heard w := fun _ => .rfl
      have ending : ∀ torn code, Keeps (Calm (heeding heard).framed torn)
          (runUnder β depth (freely heard) (.subscription code)) := by
        intro torn code w
        cases depth with
        | zero => exact fun _ _ h => by cases h
        | succ depth => exact quietly_calm own (depth + 1) (.subscription code) w trivial
      have k := keeper_heeded law ih (ending none) (own.runUnder depth (freely heard))
      intro r w' h intact heeded
      cases call with
      | slot slot notice =>
          exact serve_kept law (ending none) k (leaves depth) intact heeded due r w' h
      | task t => exact task_kept ih k intact heeded due r w' h
      | subscription code =>
          have quiet : Calm (heeding heard).framed none w w' :=
            quietly_calm own (depth + 1) (.subscription code) w trivial r w' h
          exact quiet.of_framed intact heeded
      | action a =>
          simp only [runUnder] at h
          split at h
          · next admitted =>
              by_cases binds : a.isBinding = true
              · exact bind_kept (leaving_of_heeded law) (fun untouched => untouched.settled) ending k
                  intact heeded admitted binds (fun c v _ _ w₁ _ => settled_tearView c v w₁) r w' h
              · refine performAction_kept law ih (ending none) k intact heeded ?_ r w' h
                cases a with
                | setModel | setView => exact absurd rfl binds
                | _ => exact admitted
          · cases h

theorem Fresh.heeded (fresh : Fresh w) : Heeded heard w where
  phases c _ closing := by
    rw [fresh.phases c] at closing
    cases closing
  queues d t waits := by
    rw [fresh.queues d] at waits
    cases waits

/-- After every step of a course, the law holds. -/
theorem Course.heeded (own : BindsOwn β) (leaves : LeavesHeard β heard)
    (course : Course β heard w) : Intact none w ∧ Heeded heard w := by
  induction course with
  | start fresh => exact ⟨fresh.intact, fresh.heeded⟩
  | step depth _ done ih =>
      have calm := freely_calm own leaves depth (.action _) _ trivial _ _ done
      obtain ⟨intact, -, heeded⟩ := calm ih.1 ih.2
      exact ⟨intact, heeded⟩

/-- After every step of a course, a controller that is in the closing phase is bound to a view
    that has announced closing while it was bound. -/
theorem announced_of_closing (own : BindsOwn β) (leaves : LeavesHeard β heard)
    (course : Course β heard w) {c : Nat} (held : (w.controller c).held = true)
    (closing : (w.controller c).phase = .viewClosing) :
    ∃ v, (w.controller c).view = some v ∧ heard c v = true :=
  (course.heeded own leaves).2.phases c held (Controller.phase_eq_viewClosing.mp closing)

theorem Course.next (course : Course β heard w) (depth : Nat) (a : Action σ ε)
    (ends : (runUnder β depth (freely heard) (.action a) w).isSome = true) :
    Course β heard ((runUnder β depth (freely heard) (.action a) w).get ends).2 :=
  course.step depth (Option.some_get ends).symm

end Runs

/-- Hooks that do nothing leave the view bound that closes. -/
theorem leavesHeard_plain : LeavesHeard (Behaviour.plain : Behaviour σ ε) heard :=
  fun _ _ w _ _ _ _ warned => (ends_pure () w _).mpr warned

/-- Only the view 0 is ever heard, and it closes while it is bound. -/
theorem announced_of_closed_view : ∃ w : Ensemble Unit Unit,
    Course Behaviour.plain (fun _ v => v == 0) w ∧ (w.controller 0).held = true ∧
      (w.controller 0).phase = .viewClosing ∧
      ∃ v, (w.controller 0).view = some v ∧ (v == 0) = true := by
  have start : Course (Behaviour.plain : Behaviour Unit Unit) (fun _ v => v == 0) (new ()) :=
    .start (fresh_new ())
  have bound := start.next 2 (.setView 0 (some 0)) (by decide +kernel)
  have closed := bound.next 3 (.announceClosing 0) (by decide +kernel)
  refine ⟨_, closed, by decide +kernel, by decide +kernel, ?_⟩
  exact announced_of_closing bindsOwn_plain leavesHeard_plain closed (by decide +kernel)
    (by decide +kernel)

/-- A controller whose hook binds the view 1 when its view closes. -/
def replacing : Behaviour Unit Unit :=
  { Behaviour.plain with closing := fun c => .perform (Action.setView c (some 1)) }

/-- The replacement is bound, has not announced closing, and yet the controller closes. -/
theorem closing_of_replaced_view : ∃ w : Ensemble Unit Unit,
    Course replacing (fun _ v => v == 0) w ∧ (w.controller 0).held = true ∧
      (w.controller 0).phase = .viewClosing ∧ (w.controller 0).view = some 1 ∧
      (w.view 1).closing = false := by
  have start : Course replacing (fun _ v => v == 0) (new ()) := .start (fresh_new ())
  have bound := start.next 2 (.setView 0 (some 0)) (by decide +kernel)
  have closed := bound.next 5 (.announceClosing 0) (by decide +kernel)
  exact ⟨_, closed, by decide +kernel, by decide +kernel, by decide +kernel, by decide +kernel⟩

end Mvc.Ensemble
