import Mathlib.Data.List.Forall2
import Mvc.Proofs.History
import Mvc.Proofs.Order

/-! # Recorded runs have lawful histories

As long as slots use one signal only, and in whatever way, the history of the signal is lawful
and agrees with the signal: the connections that are present are those of the registry, and the
queues hold what was posted and is not taken, in this order, each task with the slot and the
notice that it was posted with.

A call leaves the emissions under way as it found them, so an emission that it sets off is over
when the call returns.
-/

namespace Mvc

variable {σ ε : Type}

/-- What code may do that uses one signal. -/
def Action.Uses (s : SignalRef) : Action σ ε → Prop
  | .connect t slot _ => t = s ∧ ∃ code, slot = .client code
  | .disconnect t _ | .disconnectAll t | .block t _ | .emit t _ | .close t => t = s
  | .drain _ | .change _ => True
  | .inBackground a => a.Uses s
  | _ => False

/-- All slots use one signal only. -/
def Behaviour.Uses (β : Behaviour σ ε) (s : SignalRef) : Prop :=
  ∀ code notice, (β.slot code notice).All (Action.Uses s)

theorem Program.all_within {ω ω' κ ρ : Type} {R : κ → Type} {P : κ → Prop} (part : ω' → ω)
    {code : Program ω R ρ} (allowed : code.All P) : (code.within part).All P := by
  induction code with
  | done r => trivial
  | look next ih => exact fun c => ih (part c) (allowed (part c))
  | act a next ih => exact ⟨allowed.1, fun r => ih r (allowed.2 r)⟩

/-- An event that changes neither connections nor queues. -/
def Event.IsQuiet : Event σ → Prop
  | .dropped _ | .began _ | .ended _ | .turn _ _ .passed | .turn _ _ (.served _ _) => True
  | _ => False

theorem Event.IsQuiet.same {event : Event σ} (quiet : event.IsQuiet) (past : List (Event σ)) :
    (∀ id, present (event :: past) id = present past id) ∧
      isBlocked (event :: past) = isBlocked past ∧ isClosed (event :: past) = isClosed past ∧
      (∀ d, waiting d (event :: past) = waiting d past) ∧ ∀ id k, event ≠ .connected id k := by
  cases event with
  | turn e id fate =>
      cases fate with
      | posted d => exact quiet.elim
      | _ => exact ⟨fun _ => rfl, rfl, rfl, fun _ => rfl, by simp⟩
  | dropped | began | ended => exact ⟨fun _ => rfl, rfl, rfl, fun _ => rfl, by simp⟩
  | _ => exact quiet.elim

namespace Record

open Event Proc

variable {s : SignalRef} {c c₁ c' : Record σ ε}

/-- A task that was posted by an emission for one of its connections. -/
def Awaits (s : SignalRef) (past : List (Event σ)) (task : Task σ) (x : Nat × ConnectionId) :
    Prop :=
  ∃ em k code, emission? x.1 past = some em ∧ (x.2, k) ∈ em.table ∧ k.slot = .client code ∧
    task = .delivery s x.2 k.slot em.notice

/-- The history is lawful and agrees with the state. -/
structure Kept (s : SignalRef) (c : Record σ ε) : Prop where
  lawful : Lawful c.past
  sound : (c.now.signal s).Sound
  present : ∀ id, (c.now.signal s).registry.get? id = present c.past id
  blocked : (c.now.signal s).blocked = isBlocked c.past
  closed : (c.now.signal s).closed = isClosed c.past
  /-- The id of a connection that was removed is not given out again. -/
  spent : ∀ id k, .connected id k ∈ c.past →
    (Event.present c.past id).isSome = true ∨ isClosed c.past = true ∨
      (c.now.signal s).registry.Past id
  clients : ∀ id k, .connected id k ∈ c.past → ∃ code, k.slot = .client code
  queues : ∀ d, List.Forall₂ (Awaits s c.past) (c.now.dispatcher d).queue (waiting d c.past)

/-- Later the history is kept, and the emissions under way are as said. -/
structure Stage (s : SignalRef)
    (inner : List (Nat × List (ConnectionId × Connection (Slot σ)))) (c c' : Record σ ε) :
    Prop where
  kept : Kept s c'
  grown : c.past <:+ c'.past
  thread : c'.now.thread = c.now.thread
  underway : underway c'.past = inner

/-- What a call does to a kept history. -/
def Records (s : SignalRef) (c c' : Record σ ε) : Prop :=
  Kept s c → Stage s (underway c.past) c c'

section Stage

variable {inner inner' : List (Nat × List (ConnectionId × Connection (Slot σ)))}

theorem Stage.trans (first : Stage s inner c c₁) (second : Stage s inner' c₁ c') :
    Stage s inner' c c' :=
  ⟨second.kept, first.grown.trans second.grown, second.thread.trans first.thread,
    second.underway⟩

theorem Stage.records (first : Stage s inner c c₁) (second : Records s c₁ c') :
    Stage s inner c c' := first.underway ▸ first.trans (second first.kept)

theorem records_composes : Composes (Records (σ := σ) (ε := ε) s) where
  refl _ kept := ⟨kept, List.suffix_refl _, rfl, rfl⟩
  trans first second kept := (first kept).records second

end Stage

theorem ends_silently {α : Type} {p : Proc (Ensemble σ ε) α} {post : α → Record σ ε → Prop} :
    Ends (silently p) c post ↔ Ends p c.now fun r now => post r { c with now } := by
  constructor
  · intro ends r now h
    exact ends r { c with now } (by simp [silently, h])
  · intro ends r c' h
    cases same : p c.now with
    | none => simp [silently, same] at h
    | some x =>
        simp only [silently, same, Option.map_some, Option.some.injEq, Prod.mk.injEq] at h
        obtain ⟨rfl, rfl⟩ := h
        exact ends x.1 x.2 same

theorem ends_note {event : Event σ} {post : Unit → Record σ ε → Prop} :
    Ends (note event) c post ↔ post () { c with past := event :: c.past } :=
  ends_modify _ _ _

theorem Awaits.cons {past : List (Event σ)} {task : Task σ} {x : Nat × ConnectionId}
    (awaits : Awaits s past task x) (event : Event σ) : Awaits s (event :: past) task x := by
  obtain ⟨em, k, code, listed, rest⟩ := awaits
  exact ⟨em, k, code, emission?_cons event listed, rest⟩

theorem queues_cons {past : List (Event σ)} {queue : List (Task σ)}
    {l : List (Nat × ConnectionId)} (queues : List.Forall₂ (Awaits s past) queue l)
    (event : Event σ) : List.Forall₂ (Awaits s (event :: past)) queue l :=
  queues.imp fun _ _ awaits => awaits.cons event

/-! ## What single events do -/

theorem Kept.of_same (kept : Kept s c) {now : Ensemble σ ε}
    (signal : now.signal s = c.now.signal s)
    (queues : ∀ d, (now.dispatcher d).queue = (c.now.dispatcher d).queue) :
    Kept s { c with now } where
  lawful := kept.lawful
  sound := signal ▸ kept.sound
  present := signal ▸ kept.present
  blocked := signal ▸ kept.blocked
  closed := signal ▸ kept.closed
  spent := signal ▸ kept.spent
  clients := kept.clients
  queues d := queues d ▸ kept.queues d

theorem Kept.quiet (kept : Kept s c) {event : Event σ} (quiet : event.IsQuiet)
    (admits : Admits c.past event) : Kept s { c with past := event :: c.past } := by
  obtain ⟨present, blocked, closed, waiting, other⟩ := quiet.same c.past
  have before : ∀ {id k}, .connected id k ∈ event :: c.past → .connected id k ∈ c.past :=
    fun member => (List.mem_cons.mp member).resolve_left fun same => other _ _ same.symm
  refine ⟨⟨admits, kept.lawful⟩, kept.sound, ?_, ?_, ?_, ?_, ?_, ?_⟩
  · intro id
    exact (kept.present id).trans (present id).symm
  · exact kept.blocked.trans blocked.symm
  · exact kept.closed.trans closed.symm
  · intro id k member
    show (Event.present (event :: c.past) id).isSome = true ∨ isClosed (event :: c.past) = true ∨ _
    rw [present, closed]
    exact kept.spent id k (before member)
  · intro id k member
    exact kept.clients id k (before member)
  · intro d
    show List.Forall₂ _ _ (Event.waiting d (event :: c.past))
    rw [waiting]
    exact queues_cons (kept.queues d) event

/-- The connections of the signal change, and nothing else. -/
theorem Kept.rewire (kept : Kept s c) {event : Event σ} {x : Signal (Slot σ)}
    (admits : Admits c.past event) (sound : x.Sound)
    (present : ∀ id, x.registry.get? id = Event.present (event :: c.past) id)
    (blocked : x.blocked = isBlocked (event :: c.past))
    (closed : x.closed = isClosed (event :: c.past))
    (spent : ∀ id k, .connected id k ∈ c.past →
      (Event.present (event :: c.past) id).isSome = true ∨ isClosed (event :: c.past) = true ∨
        x.registry.Past id)
    (new : ∀ id k, event = .connected id k →
      Event.present (event :: c.past) id = some k ∧ ∃ code, k.slot = .client code)
    (waiting : ∀ d, Event.waiting d (event :: c.past) = Event.waiting d c.past) :
    Kept s ⟨Ensemble.setSignal s x c.now, event :: c.past⟩ := by
  have here : (Ensemble.setSignal s x c.now).signal s = x := by simp [Ensemble.signal_setSignal]
  refine ⟨⟨admits, kept.lawful⟩, ?_, ?_, ?_, ?_, ?_, ?_, ?_⟩
  · exact here.symm ▸ sound
  · exact here.symm ▸ present
  · exact here.symm ▸ blocked
  · exact here.symm ▸ closed
  · intro id k member
    show _ ∨ _ ∨ ((Ensemble.setSignal s x c.now).signal s).registry.Past id
    rw [here]
    rcases List.mem_cons.mp member with same | before
    · rw [(new id k same.symm).1]
      exact .inl rfl
    · exact spent id k before
  · intro id k member
    rcases List.mem_cons.mp member with same | before
    · exact (new id k same.symm).2
    · exact kept.clients id k before
  · intro d
    show List.Forall₂ _ _ (Event.waiting d (event :: c.past))
    rw [Ensemble.dispatcher_setSignal, waiting]
    exact queues_cons (kept.queues d) event

/-! ## Connections -/

theorem connect_eq (slot : Slot σ) (delivery : Delivery) (w : Ensemble σ ε) :
    Ensemble.connect s slot delivery w =
      some (((w.signal s).connect slot delivery).1,
        Ensemble.setSignal s ((w.signal s).connect slot delivery).2 w) := rfl

theorem disconnect_eq (id : ConnectionId) (w : Ensemble σ ε) :
    Ensemble.disconnect s id w =
      some (((w.signal s).disconnect id).1,
        Ensemble.setSignal s ((w.signal s).disconnect id).2 w) := rfl

theorem connect_records (code : σ) (delivery : Delivery) :
    Keeps (Records (ε := ε) s) (connect s (.client code) delivery) := by
  intro c
  refine .get_bind ?_
  refine .bind (ends_silently.mpr ((ends_of_eq (connect_eq _ _ _)).mpr ?_))
  cases closed : (c.now.signal s).closed with
  | true =>
      refine (ends_pure _ _ _).mpr fun kept => ⟨?_, List.suffix_refl _, by simp, rfl⟩
      rw [Signal.connect_of_closed closed]
      exact kept.of_same (by simp [Ensemble.signal_setSignal]) (by simp)
  | false =>
      refine .bind (ends_note.mpr ((ends_pure _ _ _).mpr fun kept => ?_))
      have opened : isClosed c.past = false := kept.closed.symm.trans closed
      refine ⟨?_, List.suffix_cons _ _, by simp, rfl⟩
      rw [Signal.connect_of_open closed]
      have registry := kept.sound.registry
      have fresh := Registry.get?_insert_self registry ⟨.client code, delivery⟩
      refine kept.rewire ⟨opened, fun k before => ?_⟩ ?_ (fun id => ?_) kept.blocked kept.closed
        (fun id k before => ?_) ?_ fun _ => rfl
      · rcases kept.spent _ k before with there | gone | past
        · rw [← kept.present, fresh] at there
          cases there
        · rw [opened] at gone
          cases gone
        · exact Registry.not_past_insert registry _ past
      · have sound := kept.sound.connect (.client code) delivery
        rwa [Signal.connect_of_open closed] at sound
      · rw [Event.present, ← kept.present]
        exact Registry.get?_insert registry _ id
      · rw [Event.present]
        split
        · exact .inl rfl
        · exact (kept.spent id k before).imp_right fun h => h.imp_right fun past =>
            past.insert registry _
      · intro id k same
        cases same
        exact ⟨by simp [Event.present], code, rfl⟩

theorem disconnect_records (id : ConnectionId) :
    Keeps (Records (σ := σ) (ε := ε) s) (disconnect s id) := by
  intro c
  refine .bind (ends_silently.mpr ((ends_of_eq (disconnect_eq _ _)).mpr ?_))
  cases found : (c.now.signal s).registry.contains id with
  | false =>
      have same : (c.now.signal s).disconnect id = (false, c.now.signal s) := by
        simp [Signal.disconnect, Registry.erase, found]
      rw [same]
      refine (ends_pure _ _ _).mpr fun kept => ⟨?_, List.suffix_refl _, by simp, rfl⟩
      exact kept.of_same (by simp [Ensemble.signal_setSignal]) (by simp)
  | true =>
      have told : ((c.now.signal s).disconnect id).1 = true := by
        simp [Signal.disconnect, Registry.erase, found]
      rw [told]
      refine .bind (ends_note.mpr ((ends_pure _ _ _).mpr fun kept => ?_))
      refine ⟨?_, List.suffix_cons _ _, by simp, rfl⟩
      refine kept.rewire ?_ (kept.sound.disconnect id) (fun other => ?_) kept.blocked kept.closed
        (fun other k before => ?_) (by simp) fun _ => rfl
      · show (Event.present c.past id).isSome = true
        rw [← kept.present]
        exact found
      · rw [Event.present, ← kept.present]
        exact Registry.get?_erase _ id other
      · rw [Event.present]
        rcases kept.spent other k before with there | gone | past
        · split
          · next same =>
              subst same
              exact .inr (.inr (Registry.past_erase found))
          · exact .inl there
        · exact .inr (.inl gone)
        · exact .inr (.inr (past.erase id))

theorem clear_records :
    Keeps (Records (σ := σ) (ε := ε) s) (change s Signal.disconnectAll .cleared) := by
  intro c
  refine .bind (ends_silently.mpr ((ends_of_eq rfl).mpr ?_))
  refine ends_note.mpr fun kept => ⟨?_, List.suffix_cons _ _, by simp, rfl⟩
  have registry := kept.sound.registry
  refine kept.rewire trivial kept.sound.disconnectAll (fun id => ?_) kept.blocked kept.closed
    (fun id k before => ?_) (by simp) fun _ => rfl
  · exact Registry.get?_clear registry id
  · rcases kept.spent id k before with there | gone | past
    · rw [← kept.present] at there
      exact .inr (.inr (Registry.past_clear registry there))
    · exact .inr (.inl gone)
    · exact .inr (.inr (past.clear registry))

theorem close_records :
    Keeps (Records (σ := σ) (ε := ε) s) (change s Signal.close .closed) := by
  intro c
  refine .bind (ends_silently.mpr ((ends_of_eq rfl).mpr ?_))
  refine ends_note.mpr fun kept => ⟨?_, List.suffix_cons _ _, by simp, rfl⟩
  exact kept.rewire trivial (Signal.sound_close _) (fun _ => rfl) kept.blocked rfl
    (fun _ _ _ => .inr (.inl rfl)) (by simp) fun _ => rfl

theorem block_records (b : Bool) :
    Keeps (Records (σ := σ) (ε := ε) s) (change s (fun x => x.setBlocked b) (.blocked b)) := by
  intro c
  refine .bind (ends_silently.mpr ((ends_of_eq rfl).mpr ?_))
  refine ends_note.mpr fun kept => ⟨?_, List.suffix_cons _ _, by simp, rfl⟩
  exact kept.rewire trivial ⟨kept.sound.registry, kept.sound.closed⟩ kept.present rfl kept.closed
    kept.spent (by simp) fun _ => rfl

/-! ## Emissions -/

theorem Kept.isConnected (kept : Kept s c) (id : ConnectionId) :
    (c.now.signal s).isConnected id = (Event.present c.past id).isSome :=
  congrArg Option.isSome (kept.present id)

section Turn

variable {e d : Nat} {em : Emission σ} {id : ConnectionId} {k : Connection (Slot σ)}
  {rest : List (ConnectionId × Connection (Slot σ))}
  {outer : List (Nat × List (ConnectionId × Connection (Slot σ)))}

/-- The turn of the next connection of the innermost emission, unless its slot has to wait. -/
theorem Kept.turn (kept : Kept s c) (listed : emission? e c.past = some em)
    (here : underway c.past = (e, (id, k) :: rest) :: outer) {fate : Fate σ}
    (quiet : (Event.turn e id fate).IsQuiet)
    (due : fate = Fate.due em k (Event.present c.past id).isSome) :
    Stage s ((e, rest) :: outer) c { c with past := .turn e id fate :: c.past } := by
  have admits : Admits c.past (.turn e id fate) := ⟨em, k, rest, outer, listed, here, due⟩
  refine ⟨kept.quiet quiet admits, List.suffix_cons _ _, rfl, ?_⟩
  simp [underway, here]

theorem Kept.post (kept : Kept s c) (listed : emission? e c.past = some em)
    (member : (id, k) ∈ em.table) (here : underway c.past = (e, (id, k) :: rest) :: outer)
    (due : .posted d = Fate.due em k (Event.present c.past id).isSome)
    (client : ∃ code, k.slot = .client code) :
    Stage s ((e, rest) :: outer) c
      ⟨Ensemble.updateDispatcher d (fun q => q.post (.delivery s id k.slot em.notice)) c.now,
        .turn e id (.posted d) :: c.past⟩ := by
  have admits : Admits c.past (.turn e id (.posted d)) :=
    ⟨em, k, rest, outer, listed, here, due⟩
  refine ⟨⟨⟨admits, kept.lawful⟩, ?_, ?_, ?_, ?_, ?_, ?_, ?_⟩, List.suffix_cons _ _, by simp, ?_⟩
  · simpa using kept.sound
  · simpa [Event.present] using kept.present
  · simpa [isBlocked] using kept.blocked
  · simpa [isClosed] using kept.closed
  · simpa [Event.present, isClosed] using kept.spent
  · simpa using kept.clients
  · intro d'
    simp only [Ensemble.dispatcher_updateDispatcher, waiting]
    by_cases same : d' = d
    · subst same
      rw [if_pos rfl, if_pos rfl]
      refine List.rel_append (queues_cons (kept.queues d') _) (.cons ?_ .nil)
      obtain ⟨code, slot⟩ := client
      exact ⟨em, k, code, emission?_cons _ listed, member, slot, rfl⟩
    · rw [if_neg same, if_neg (Ne.symm same)]
      exact queues_cons (kept.queues d') _
  · simp [underway, here]

variable {run : Recorder σ ε}
  (slots : ∀ code notice, Keeps (Records s) (run (.slot (.client code) notice)))
include slots

theorem deliver_stage (kept : Kept s c) (listed : emission? e c.past = some em)
    (member : (id, k) ∈ em.table) (here : underway c.past = (e, (id, k) :: rest) :: outer)
    (thread : c.now.thread = em.thread) (there : (Event.present c.past id).isSome = true) :
    Ends (deliver run s e em.notice id k) c fun _ c' => Stage s ((e, rest) :: outer) c c' := by
  obtain ⟨k', named⟩ := Option.isSome_iff_exists.mp there
  obtain rfl : k' = k := kept.lawful.present_of_listed listed member named
  obtain ⟨code, slot⟩ := kept.clients id k' (connected_of_present named)
  have served : Fate.due em k' (Event.present c.past id).isSome = .served k'.slot em.notice →
      Ends (note (.turn e id (.served k'.slot em.notice)) >>= fun _ =>
        run (.slot k'.slot em.notice)) c fun _ c' => Stage s ((e, rest) :: outer) c c' := by
    intro due
    have stage := kept.turn listed here (by trivial) due.symm
    refine .bind (ends_note.mpr ?_)
    rw [slot] at stage ⊢
    exact (slots code em.notice _).mono fun _ c' later => stage.records later
  unfold deliver
  cases way : k'.delivery with
  | direct => exact served (by simp [Fate.due, there, way])
  | dispatched mode d =>
      refine .get_bind ?_
      rw [thread]
      split
      · next inline => exact served (by simp [Fate.due, there, way, inline])
      · next waits =>
          refine .bind (ends_note.mpr ?_)
          refine ends_silently.mpr ((ends_modify _ _ _).mpr ?_)
          exact kept.post listed member here (by simp [Fate.due, there, way, waits]) ⟨code, slot⟩

/-- All turns of an emission, and its end. -/
theorem visit_stage (kept : Kept s c) (listed : emission? e c.past = some em)
    (members : ∀ x ∈ rest, x ∈ em.table) (here : underway c.past = (e, rest) :: outer)
    (thread : c.now.thread = em.thread) :
    Ends (visit run s e em.notice rest) c fun _ c' => Stage s outer c c' := by
  induction rest generalizing c with
  | nil =>
      refine ends_note.mpr ⟨kept.quiet trivial ⟨outer, here⟩, List.suffix_cons _ _, rfl, ?_⟩
      simp [underway, here]
  | cons first rest ih =>
      obtain ⟨id, k⟩ := first
      have member := members (id, k) List.mem_cons_self
      -- What is left to do after the turn of the first connection.
      have later : ∀ c₁, Stage s ((e, rest) :: outer) c c₁ →
          Ends (visit run s e em.notice rest) c₁ fun _ c' => Stage s outer c c' := by
        intro c₁ stage
        refine (ih stage.kept (emission?_of_suffix listed stage.grown)
          (fun x member => members x (List.mem_cons_of_mem _ member)) stage.underway
          (stage.thread.trans thread)).mono ?_
        intro _ c' stage'
        exact stage.trans stage'
      refine .get_bind ?_
      rw [kept.isConnected]
      split
      · next there =>
          refine .bind ?_
          exact (deliver_stage slots kept listed member here thread there).mono fun _ => later
      · next gone =>
          refine .bind (ends_note.mpr (later _ ?_))
          exact kept.turn listed here trivial (by simp [Fate.due, gone])

theorem emit_records (notice : Notice) : Keeps (Records s) (emit run s notice) := by
  intro c
  refine .get_bind ?_
  dsimp only
  split
  · next blocked =>
      refine ends_note.mpr fun kept => ⟨kept.quiet trivial ?_, List.suffix_cons _ _, rfl, rfl⟩
      exact kept.blocked.symm.trans blocked
  · next opened =>
      refine .bind (ends_note.mpr ?_)
      intro r c' h kept
      have admits : Admits c.past
          (.began ⟨notice, c.now.thread, (c.now.signal s).connections⟩) := by
        refine ⟨?_, Signal.connections_ascending _, ?_⟩
        · rw [← kept.blocked]
          simpa using opened
        · intro id k
          rw [← kept.present]
          exact Registry.mem_entries
      have began := kept.quiet (by trivial) admits
      have stage := visit_stage slots began (emission?_of_began (List.suffix_refl _))
        (fun x member => member) rfl rfl r c' h
      exact ⟨stage.kept, (List.suffix_cons _ _).trans stage.grown, stage.thread, stage.underway⟩

end Turn

/-! ## Queues -/

/-- The first task of a queue is what waits longest. -/
theorem noteTaken_stage (kept : Kept s c) {d : Nat} {task : Task σ} {rest : List (Task σ)}
    (queue : (c.now.dispatcher d).queue = task :: rest) {q : Dispatcher (Task σ)}
    (left : q.queue = rest) :
    Ends (noteTaken s d task) { c with now := Ensemble.updateDispatcher d (fun _ => q) c.now }
      fun _ c' => Stage s (underway c.past) c c' := by
  have queues := queue ▸ kept.queues d
  obtain ⟨⟨e, id⟩, others, ⟨em, k, code, listed, member, slot, rfl⟩, later, waits⟩ :=
    List.forall₂_cons_left_iff.mp queues
  have late : ∀ fate, fate = Fate.late em k (Event.present c.past id).isSome →
      Stage s (underway c.past) c ⟨Ensemble.updateDispatcher d (fun _ => q) c.now,
        .taken d e id fate :: c.past⟩ := by
    intro fate due
    have admits : Admits c.past (.taken d e id fate) :=
      ⟨em, k, others, waits, listed, member, due⟩
    refine ⟨⟨⟨admits, kept.lawful⟩, ?_, ?_, ?_, ?_, ?_, ?_, ?_⟩, List.suffix_cons _ _, rfl, rfl⟩
    · simpa using kept.sound
    · simpa [Event.present] using kept.present
    · simpa [isBlocked] using kept.blocked
    · simpa [isClosed] using kept.closed
    · simpa [Event.present, isClosed] using kept.spent
    · simpa using kept.clients
    · intro d'
      simp only [Ensemble.dispatcher_updateDispatcher, waiting]
      by_cases same : d' = d
      · subst same
        rw [if_pos rfl, if_pos rfl, left, waits]
        exact queues_cons later _
      · rw [if_neg same, if_neg (Ne.symm same)]
        exact queues_cons (kept.queues d') _
  refine .get_bind ?_
  have connected := kept.isConnected id
  simp only [if_true, waits, Ensemble.signal_updateDispatcher, connected]
  split
  · next there => exact ends_note.mpr (late _ (by simp [Fate.late, there]))
  · next gone => exact ends_note.mpr (late _ (by simp [Fate.late, gone]))

theorem records_silently {f : Ensemble σ ε → Ensemble σ ε}
    (signal : ∀ w, (f w).signal s = w.signal s) (thread : ∀ w, (f w).thread = w.thread)
    (queues : ∀ w d, ((f w).dispatcher d).queue = (w.dispatcher d).queue) :
    Keeps (Records s) (silently (modify f)) := by
  intro c
  refine ends_silently.mpr ((ends_modify _ _ _).mpr fun kept => ?_)
  exact ⟨kept.of_same (signal _) (queues _), List.suffix_refl _, thread _, rfl⟩

theorem drain_records {run : Recorder σ ε}
    (tasks : ∀ id code notice,
      Keeps (Records s) (run (.task (.delivery s id (.client code) notice))))
    (d fuel : Nat) : Keeps (Records s) (drain run s d fuel) := by
  have order := records_composes (σ := σ) (ε := ε) (s := s)
  have finish : Keeps (Records (σ := σ) (ε := ε) s)
      (silently (modify (Ensemble.updateDispatcher d Dispatcher.finish))) := by
    refine records_silently (by simp) (by simp) fun w d' => ?_
    rw [Ensemble.dispatcher_updateDispatcher]
    split
    · next same => rw [same]; rfl
    · rfl
  induction fuel with
  | zero =>
      intro c r c' h
      cases h
  | succ fuel ih =>
      intro c
      refine .get_bind ?_
      cases queue : (c.now.dispatcher d).queue with
      | nil =>
          simp only [Dispatcher.next?, queue]
          exact (ends_pure _ _ _).mpr (order.refl c)
      | cons task rest =>
          simp only [Dispatcher.next?, queue]
          refine .bind (ends_silently.mpr ((ends_modify _ _ _).mpr ?_))
          intro r c' h kept
          obtain ⟨x, -, ⟨em, k, code, -, -, slot, rfl⟩, -⟩ :=
            List.forall₂_cons_left_iff.mp (queue ▸ kept.queues d)
          have run := tasks x.2 code em.notice
          rw [← slot] at run
          obtain ⟨_, c₁, taken, h⟩ := bind_eq_some.mp h
          have stage := noteTaken_stage kept queue rfl _ _ taken
          have others : Keeps (Records s) _ :=
            run.bind order fun _ => finish.bind order fun _ =>
              ih.bind order fun n => (Tracks.pure order (n + 1)).keeps
          exact stage.records (others c₁ r c' h)

/-! ## Recorded calls -/

theorem inBackground_records {α : Type} {p : Proc (Record σ ε) α} (inner : Keeps (Records s) p) :
    Keeps (Records s) (inBackground p) := by
  intro c
  refine .get_bind ?_
  refine .bind (ends_silently.mpr ((ends_modify _ _ _).mpr ?_))
  refine .bind ((inner _).mono fun r c₁ stage => ?_)
  refine .bind (ends_silently.mpr ((ends_modify _ _ _).mpr ?_))
  refine (ends_pure _ _ _).mpr fun kept => ?_
  have sent := stage (kept.of_same (Ensemble.signal_setThread c.now .background s) fun _ => rfl)
  refine ⟨?_, sent.grown, rfl, sent.underway⟩
  exact sent.kept.of_same (Ensemble.signal_setThread c₁.now c.now.thread s) fun _ => rfl

variable {β : Behaviour σ ε} (uses : β.Uses s)
include uses

/-- Recorded calls that use one signal keep its history. -/
theorem recorded_records (depth : Nat) :
    (∀ code notice, Keeps (Records s) (recorded β s depth (.slot (.client code) notice))) ∧
      (∀ id code notice,
        Keeps (Records s) (recorded β s depth (.task (.delivery s id (.client code) notice)))) ∧
      ∀ a, a.Uses s → Keeps (Records s) (recorded β s depth (.action a)) := by
  have order := records_composes (σ := σ) (ε := ε) (s := s)
  induction depth with
  | zero =>
      have never : ∀ call, Keeps (Records s) (recorded β s 0 call) := by
        intro call c r c' h
        cases h
      exact ⟨fun _ _ => never _, fun _ _ _ => never _, fun _ _ => never _⟩
  | succ depth ih =>
      obtain ⟨slots, tasks, actions⟩ := ih
      refine ⟨?_, ?_, ?_⟩
      · intro code notice
        exact .program order actions (Program.all_within _ (uses code notice))
      · intro id code notice
        refine .bind order (Tracks.get order).keeps fun c => ?_
        split
        · exact slots code notice
        · exact (Tracks.pure order ()).keeps
      · intro a concerns
        simp only [recorded]
        cases a with
        | connect t slot delivery =>
            obtain ⟨rfl, code, rfl⟩ := concerns
            simpa only [performAction, if_true] using connect_records code delivery
        | disconnect t id =>
            obtain rfl : t = s := concerns
            simpa only [performAction, if_true] using disconnect_records id
        | disconnectAll t =>
            obtain rfl : t = s := concerns
            simpa only [performAction, if_true] using clear_records
        | block t b =>
            obtain rfl : t = s := concerns
            simpa only [performAction, if_true] using block_records b
        | emit t notice =>
            obtain rfl : t = s := concerns
            simpa only [performAction, if_true] using emit_records slots notice
        | close t =>
            obtain rfl : t = s := concerns
            simpa only [performAction, if_true] using close_records
        | drain d => exact drain_records tasks d depth
        | change f =>
            refine records_silently (fun w => ?_) (fun _ => rfl) fun _ _ => rfl
            exact Ensemble.signal_setClient w (f w.client) s
        | inBackground a => exact inBackground_records (actions a concerns)
        | _ => exact concerns.elim

end Record

/-! ## Sessions -/

/-- What comes of actions from outside that use one signal, done one after another. -/
inductive Ran (β : Behaviour σ ε) (s : SignalRef) (start : Ensemble σ ε) : Ensemble σ ε → Prop where
  | start : Ran β s start start
  | act {w w' : Ensemble σ ε} (depth : Nat) {a : Action σ ε} {r : a.Result} :
      Ran β s start w → a.Uses s → Ensemble.run β depth (.action a) w = some (r, w') →
      Ran β s start w'

/-- The same with a record. -/
inductive Recorded (β : Behaviour σ ε) (s : SignalRef) (start : Ensemble σ ε) :
    Record σ ε → Prop where
  | start : Recorded β s start ⟨start, []⟩
  | act {c c' : Record σ ε} (depth : Nat) {a : Action σ ε} {r : a.Result} :
      Recorded β s start c → a.Uses s → recorded β s depth (.action a) c = some (r, c') →
      Recorded β s start c'

/-- A signal that nobody has used, and no task in any queue. -/
structure Unused (s : SignalRef) (w : Ensemble σ ε) : Prop where
  signal : w.signal s = .new
  queues : ∀ d, (w.dispatcher d).queue = []

section Session

variable {β : Behaviour σ ε} {s : SignalRef} {start w : Ensemble σ ε} {c : Record σ ε}

/-- Every session can be recorded. -/
theorem Ran.recorded (ran : Ran β s start w) : ∃ past, Recorded β s start ⟨w, past⟩ := by
  induction ran with
  | start => exact ⟨[], .start⟩
  | act depth _ uses same ih =>
      obtain ⟨past, before⟩ := ih
      have erased := (recorded_run β s depth _ ⟨_, past⟩).trans same
      obtain ⟨⟨r, now, past'⟩, same', result⟩ := Option.map_eq_some_iff.mp erased
      cases result
      exact ⟨past', before.act depth uses same'⟩

theorem Ran.next {a : Action σ ε} (ran : Ran β s start w) (depth : Nat) (uses : a.Uses s)
    (ends : (Ensemble.run β depth (.action a) w).isSome = true) :
    Ran β s start ((Ensemble.run β depth (.action a) w).get ends).2 :=
  ran.act depth uses (Option.some_get ends).symm

open Event Record in
/-- A recorded session keeps its history, and leaves no emission under way. -/
theorem Recorded.kept (uses : β.Uses s) (unused : Unused s start)
    (recorded : Recorded β s start c) : Kept s c ∧ underway c.past = [] := by
  induction recorded with
  | start =>
      obtain ⟨signal, queues⟩ := unused
      refine ⟨⟨trivial, ?_, ?_, ?_, ?_, by simp, by simp, ?_⟩, rfl⟩
      · rw [signal]
        exact Signal.sound_new
      · intro id
        rw [signal]
        rfl
      · rw [signal]
        rfl
      · rw [signal]
        rfl
      · intro d
        rw [queues]
        exact .nil
  | act depth before using_s same ih =>
      obtain ⟨kept, idle⟩ := ih
      have stage := (recorded_records uses depth).2.2 _ using_s _ _ _ same kept
      exact ⟨stage.kept, stage.underway.trans idle⟩

end Session

end Mvc
