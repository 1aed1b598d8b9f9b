import Mvc.Proofs.Recording

/-! # Delivery

Of one emission a connection has at most one turn, and at most one task is taken that was posted
at this turn. So an emission reaches a connection at most once, and it does if the connection is
there at its turn and, where its slot has to wait, also when its task is taken. That the signal
is blocked in the meantime makes no difference.

Tasks are taken in the order in which they were posted, and none is lost. A connection that was
removed is never reached again, since its id is not given to another one.
-/

namespace Mvc

variable {σ ε : Type}

/-- What a slot is run with, if it is run. -/
def Fate.invocation? : Fate σ → Option (Slot σ × Notice)
  | .served slot notice => some (slot, notice)
  | _ => none

@[simp] theorem Fate.invocation?_passed : (Fate.passed : Fate σ).invocation? = none := rfl

@[simp] theorem Fate.invocation?_posted (d : Nat) :
    (Fate.posted d : Fate σ).invocation? = none := rfl

@[simp] theorem Fate.invocation?_served (slot : Slot σ) (notice : Notice) :
    (Fate.served slot notice).invocation? = some (slot, notice) := rfl

theorem Fate.invocation?_due (em : Emission σ) (k : Connection (Slot σ)) (there : Bool) :
    (Fate.due em k there).invocation? =
      if there && Ensemble.servesInline k.delivery em.thread then some (k.slot, em.notice)
      else none := by
  cases there with
  | false => rfl
  | true =>
      cases inline : Ensemble.servesInline k.delivery em.thread with
      | true => simp [due_of_inline inline]
      | false =>
          obtain ⟨mode, d, -, due⟩ := due_of_waits inline
          simp [due]

namespace Event

/-- What became of a connection in an emission: at its turn, and later when its task was taken.
    The latest comes first. -/
def fates (e : Nat) (id : ConnectionId) : List (Event σ) → List (Fate σ)
  | [] => []
  | .turn e' i fate :: past | .taken _ e' i fate :: past =>
    if e' = e ∧ i = id then fate :: fates e id past else fates e id past
  | _ :: past => fates e id past

/-- With what an emission has reached a connection. -/
def reached (e : Nat) (id : ConnectionId) (past : List (Event σ)) : List (Slot σ × Notice) :=
  (fates e id past).filterMap Fate.invocation?

/-- What was posted to a dispatcher, the oldest first. -/
def sent (d : Nat) : List (Event σ) → List (Nat × ConnectionId)
  | [] => []
  | .turn e id (.posted d') :: past => if d' = d then sent d past ++ [(e, id)] else sent d past
  | _ :: past => sent d past

/-- What was taken from the queue of a dispatcher, the oldest first. -/
def handled (d : Nat) : List (Event σ) → List (Nat × ConnectionId)
  | [] => []
  | .taken d' e id _ :: past => if d' = d then handled d past ++ [(e, id)] else handled d past
  | _ :: past => handled d past

attribute [grind =] fates sent handled

variable {past log : List (Event σ)} {e d : Nat} {id : ConnectionId} {fate : Fate σ}
  {em : Emission σ} {k : Connection (Slot σ)}

/-- Tasks are taken in the order in which they were posted. -/
theorem Lawful.sent_eq (lawful : Lawful log) (d : Nat) :
    sent d log = handled d log ++ waiting d log := by
  induction log with
  | nil => rfl
  | cons event past ih =>
      have before := ih lawful.2
      cases event with
      | turn e id fate =>
          cases fate with
          | posted d' =>
              simp only [sent, handled, waiting]
              split
              · rw [before, List.append_assoc]
              · exact before
          | _ => exact before
      | taken d' e id fate =>
          obtain ⟨em, k, rest, waits, -⟩ := lawful.1
          simp only [sent, handled, waiting]
          split
          · next same =>
              subst same
              rw [before, waits]
              simp
          · exact before
      | _ => exact before

/-- The fates that a connection can have in one emission. -/
inductive Course : List (Fate σ) → Prop where
  | awaiting : Course []
  | turned (fate : Fate σ) : Course [fate]
  | taken (d : Nat) {fate : Fate σ} : (∀ d', fate ≠ .posted d') → Course [fate, .posted d]

/-- Where a connection stands in an emission. -/
structure InCourse (past : List (Event σ)) (e : Nat) (id : ConnectionId) : Prop where
  course : Course (fates e id past)
  turned : fates e id past = [] ↔ id ∉ turned e past
  waiting : ∀ d, fates e id past = [.posted d] ∧ (waiting d past).count (e, id) = 1 ∨
    fates e id past ≠ [.posted d] ∧ (waiting d past).count (e, id) = 0

theorem Fate.late_ne_posted (there : Bool) (d : Nat) : Fate.late em k there ≠ .posted d := by
  cases there <;> simp [Fate.late]

theorem Lawful.not_turned (lawful : Lawful past) {rest : List (ConnectionId × Connection (Slot σ))}
    {outer : List (Nat × List (ConnectionId × Connection (Slot σ)))}
    (listed : emission? e past = some em) (here : underway past = (e, (id, k) :: rest) :: outer) :
    id ∉ Event.turned e past := by
  obtain ⟨-, -, -, -, ascending, -⟩ := lawful.began listed
  have nodup := ids_nodup ascending
  rw [← lawful.turned_append_left listed, left, here] at nodup
  intro member
  exact List.disjoint_of_nodup_append nodup member (by simp)

section InCourse

variable {e' d' : Nat} {i : ConnectionId} {rest : List (Nat × ConnectionId)}

theorem InCourse.turn (before : InCourse past e id) (new : id ∉ Event.turned e past)
    (fate : Fate σ) : InCourse (.turn e id fate :: past) e id := by
  have none := before.turned.mpr new
  have now : fates e id (.turn e id fate :: past) = [fate] := by simp [fates, none]
  refine ⟨now ▸ .turned fate, by simp [now, Event.turned], fun d => ?_⟩
  have idle : (Event.waiting d past).count (e, id) = 0 := by
    refine (before.waiting d).elim (fun h => ?_) fun h => h.2
    rw [none] at h
    cases h.1
  rw [now]
  cases fate with
  | posted d' =>
      by_cases same : d' = d
      · exact .inl (by simp [Event.waiting, same, idle])
      · exact .inr (by simp [Event.waiting, same, idle])
  | _ => exact .inr (by simp [Event.waiting, idle])

/-- What is taken was posted at its turn, and nothing else has become of it. -/
theorem InCourse.posted (before : InCourse past e id)
    (waits : Event.waiting d past = (e, id) :: rest) : fates e id past = [.posted d] := by
  refine ((before.waiting d).resolve_right fun h => ?_).1
  simp [waits] at h

theorem InCourse.taken (before : InCourse past e id)
    (waits : Event.waiting d past = (e, id) :: rest) (final : ∀ d', fate ≠ .posted d') :
    InCourse (.taken d e id fate :: past) e id := by
  have posted := before.posted waits
  have now : fates e id (.taken d e id fate :: past) = [fate, .posted d] := by
    simp [fates, posted]
  refine ⟨now ▸ .taken d final, ?_, fun d' => .inr ?_⟩
  · have turned : ¬ id ∉ Event.turned e past := by
      rw [← before.turned, posted]
      simp
    simpa [now, Event.turned] using turned
  · rw [now]
    refine ⟨by simp, ?_⟩
    by_cases same : d = d'
    · subst same
      have once := ((before.waiting d).resolve_right fun h => h.1 posted).2
      simp only [waits, List.count_cons_self] at once
      simp only [Event.waiting, if_true, waits, List.tail_cons]
      omega
    · have idle := ((before.waiting d').resolve_left fun h => same (by simpa [posted] using h.1)).2
      simpa [Event.waiting, same] using idle

theorem InCourse.turn_other (before : InCourse past e id) (other : (e', i) ≠ (e, id)) :
    InCourse (.turn e' i fate :: past) e id := by
  have different : ¬ (e' = e ∧ i = id) := by simpa using other
  have now : fates e id (.turn e' i fate :: past) = fates e id past := by
    simp [fates, different]
  refine ⟨now ▸ before.course, ?_, fun d => ?_⟩
  · rw [now, before.turned, Event.turned]
    split
    · next number =>
        have apart : id ≠ i := fun same => different ⟨number, same.symm⟩
        simp [apart]
    · rfl
  · rw [now]
    cases fate with
    | posted d' =>
        by_cases same : d' = d
        · simpa [Event.waiting, same, List.count_singleton, other] using before.waiting d
        · simpa [Event.waiting, same] using before.waiting d
    | _ => exact before.waiting d

theorem InCourse.taken_other (before : InCourse past e id)
    (waits : Event.waiting d past = (e', i) :: rest) (other : (e', i) ≠ (e, id)) :
    InCourse (.taken d e' i fate :: past) e id := by
  have different : ¬ (e' = e ∧ i = id) := by simpa using other
  have now : fates e id (.taken d e' i fate :: past) = fates e id past := by
    simp [fates, different]
  refine ⟨now ▸ before.course, now ▸ before.turned, fun d' => ?_⟩
  rw [now]
  by_cases same : d = d'
  · subst same
    have waiting := before.waiting d
    rw [waits, List.count_cons_of_ne other] at waiting
    simpa [Event.waiting, waits] using waiting
  · simpa [Event.waiting, same] using before.waiting d'

end InCourse

theorem Lawful.inCourse (lawful : Lawful past) (e : Nat) (id : ConnectionId) :
    InCourse past e id := by
  induction past with
  | nil =>
      refine ⟨.awaiting, by simp [fates, Event.turned], fun d => .inr ?_⟩
      simp [fates, Event.waiting]
  | cons event past ih =>
      have before := ih lawful.2
      cases event with
      | turn e' i fate =>
          obtain ⟨em, k, rest, outer, listed, here, -⟩ := lawful.1
          by_cases same : (e', i) = (e, id)
          · cases same
            exact before.turn (lawful.2.not_turned listed here) fate
          · exact before.turn_other same
      | taken d e' i fate =>
          obtain ⟨em, k, rest, waits, -, -, late⟩ := lawful.1
          by_cases same : (e', i) = (e, id)
          · cases same
            exact before.taken waits (late ▸ Fate.late_ne_posted _)
          · exact before.taken_other waits same
      | _ => exact ⟨before.course, before.turned, before.waiting⟩

/-! ## What has become of a connection -/

theorem fates_suffix (e : Nat) (id : ConnectionId) (earlier : past <:+ log) :
    fates e id past <:+ fates e id log := by
  refine grow (P := fun log => fates e id past <:+ fates e id log) earlier
    (List.suffix_refl _) ?_
  intro event past' _ _ before
  cases event with
  | turn | taken =>
      simp only [fates]
      split
      · exact before.trans (List.suffix_cons _ _)
      · exact before
  | _ => exact before

/-- What became of a connection at its turn is the first thing that became of it. -/
theorem Lawful.fates_of_turn (lawful : Lawful log) (turn : .turn e id fate :: past <:+ log) :
    fates e id log = [fate] ∨
      ∃ d f, fate = .posted d ∧ fates e id log = [f, .posted d] := by
  obtain ⟨em, k, rest, outer, listed, here, -⟩ := lawful.admits turn
  have before := lawful.suffix ((List.suffix_cons _ _).trans turn)
  have none := (before.inCourse e id).turned.mpr (before.not_turned listed here)
  have first := fates_suffix e id turn
  simp only [fates, and_self, if_true, none] at first
  cases course : fates e id log with
  | nil => simp [course] at first
  | cons f others =>
      have shape := (lawful.inCourse e id).course
      rw [course] at shape first
      cases shape with
      | turned => exact .inl (first.eq_of_length rfl).symm
      | taken d final =>
          obtain ⟨later, same⟩ := first
          have last := congrArg List.getLast? same
          exact .inr ⟨d, f, by simpa using last, rfl⟩

/-- What becomes of a task when it is taken is the last thing. -/
theorem Lawful.fates_of_taken (lawful : Lawful log)
    (taken : .taken d e id fate :: past <:+ log) : fates e id log = [fate, .posted d] := by
  obtain ⟨em, k, rest, waits, -⟩ := lawful.admits taken
  have before := lawful.suffix ((List.suffix_cons _ _).trans taken)
  have posted := (before.inCourse e id).posted waits
  have last := fates_suffix e id taken
  simp only [fates, and_self, if_true, posted] at last
  have shape := (lawful.inCourse e id).course
  cases course : fates e id log with
  | nil => simp [course] at last
  | cons f others =>
      rw [course] at shape last
      cases shape with
      | turned => exact absurd last.length_le (by simp)
      | taken d' final => exact (last.eq_of_length rfl).symm

theorem exists_of_mem_fates (member : fate ∈ fates e id log) :
    (∃ past, .turn e id fate :: past <:+ log) ∨
      ∃ d past, .taken d e id fate :: past <:+ log := by
  induction log with
  | nil => cases member
  | cons event rest ih =>
      have later : fate ∈ fates e id rest →
          (∃ past, .turn e id fate :: past <:+ event :: rest) ∨
            ∃ d past, .taken d e id fate :: past <:+ event :: rest := by
        intro member
        rcases ih member with ⟨past, turn⟩ | ⟨d, past, taken⟩
        · exact .inl ⟨past, turn.trans (List.suffix_cons _ _)⟩
        · exact .inr ⟨d, past, taken.trans (List.suffix_cons _ _)⟩
      cases event with
      | turn e' i f =>
          simp only [fates] at member
          split at member
          · next same =>
              obtain ⟨rfl, rfl⟩ := same
              rcases List.mem_cons.mp member with rfl | member
              · exact .inl ⟨rest, List.suffix_refl _⟩
              · exact later member
          · exact later member
      | taken d e' i f =>
          simp only [fates] at member
          split at member
          · next same =>
              obtain ⟨rfl, rfl⟩ := same
              rcases List.mem_cons.mp member with rfl | member
              · exact .inr ⟨d, rest, List.suffix_refl _⟩
              · exact later member
          · exact later member
      | _ => exact later member

theorem Lawful.fates_eq_nil (lawful : Lawful log) (listed : emission? e log = some em)
    (member : ∀ k, (id, k) ∉ em.table) : fates e id log = [] := by
  refine (lawful.inCourse e id).turned.mpr fun turned => ?_
  obtain ⟨k, there⟩ := lawful.listed_of_turned listed turned
  exact member k there

/-- Whatever becomes of a listed connection, its own slot is run with the emission's notice or
    nothing is run. -/
theorem Lawful.invocation (lawful : Lawful log) (listed : emission? e log = some em)
    (member : (id, k) ∈ em.table) (fated : fate ∈ fates e id log) :
    fate.invocation? = none ∨ fate.invocation? = some (k.slot, em.notice) := by
  rcases exists_of_mem_fates fated with ⟨past, turn⟩ | ⟨d, past, taken⟩
  · rw [lawful.due_of_turn listed member turn, Fate.invocation?_due]
    split
    · exact .inr rfl
    · exact .inl rfl
  · rw [lawful.late_of_taken listed member taken]
    cases (present past id).isSome with
    | true => exact .inr rfl
    | false => exact .inl rfl

theorem Lawful.reached_once (lawful : Lawful log) (listed : emission? e log = some em)
    (member : (id, k) ∈ em.table) :
    reached e id log = [] ∨ reached e id log = [(k.slot, em.notice)] := by
  have invocation : ∀ fate ∈ fates e id log, _ := fun _ => lawful.invocation listed member
  have course := (lawful.inCourse e id).course
  unfold reached
  generalize fates e id log = l at invocation course
  cases course with
  | awaiting => exact .inl rfl
  | turned fate =>
      rcases invocation fate List.mem_cons_self with none | some
      · exact .inl (by simp [none])
      · exact .inr (by simp [some])
  | taken d final =>
      rcases invocation _ List.mem_cons_self with none | some
      · exact .inl (by simp [none])
      · exact .inr (by simp [some])

/-- Whoever is served at its turn, or is gone by then, is served there or never. -/
theorem Lawful.reached_of_turn (lawful : Lawful log) (turn : .turn e id fate :: past <:+ log)
    (final : ∀ d, fate ≠ .posted d) : reached e id log = fate.invocation?.toList := by
  rcases lawful.fates_of_turn turn with alone | ⟨d, f, posted, -⟩
  · cases run : fate.invocation? <;> simp [reached, alone, run]
  · exact absurd posted (final d)

/-- Whoever has to wait waits, or its task has been taken. -/
theorem Lawful.waits_or_taken (lawful : Lawful log)
    (turn : .turn e id (.posted d) :: past <:+ log) :
    (e, id) ∈ waiting d log ∧ fates e id log = [.posted d] ∨
      ∃ f past', .taken d e id f :: past' <:+ log ∧ fates e id log = [f, .posted d] := by
  have inCourse := lawful.inCourse e id
  rcases lawful.fates_of_turn turn with alone | ⟨d', f, same, both⟩
  · refine .inl ⟨?_, alone⟩
    have once := ((inCourse.waiting d).resolve_right fun h => h.1 alone).2
    exact List.count_pos_iff.mp (by omega)
  · cases same
    refine .inr ?_
    have shape := inCourse.course
    rw [both] at shape
    cases shape with
    | taken _ final =>
        rcases exists_of_mem_fates (both ▸ List.mem_cons_self) with
          ⟨past', again⟩ | ⟨d', past', taken⟩
        · rcases lawful.fates_of_turn again with alone | ⟨d', f', posted, -⟩
          · simp [both] at alone
          · exact absurd posted (final d')
        · have last := lawful.fates_of_taken taken
          rw [both] at last
          cases last
          exact ⟨f, past', taken, both⟩

theorem Lawful.reached_of_gone (lawful : Lawful log) (turn : .turn e id fate :: past <:+ log)
    (gone : present past id = none) : reached e id log = [] := by
  obtain ⟨em, k, -, -, due⟩ := lawful.turn turn
  rw [gone] at due
  obtain rfl : fate = .passed := due
  exact lawful.reached_of_turn turn (by simp)

section Listed

variable (lawful : Lawful log) (turn : .turn e id fate :: past <:+ log)
  (listed : emission? e log = some em) (member : (id, k) ∈ em.table)
  (there : (present past id).isSome = true)
include lawful turn listed member there

theorem Lawful.reached_of_inline (inline : Ensemble.servesInline k.delivery em.thread = true) :
    reached e id log = [(k.slot, em.notice)] := by
  have due := lawful.due_of_turn listed member turn
  rw [there, Fate.due_of_inline inline] at due
  subst due
  exact lawful.reached_of_turn turn (by simp)

theorem Lawful.reached_of_waits (waits : Ensemble.servesInline k.delivery em.thread = false) :
    ∃ mode d, k.delivery = .dispatched mode d ∧ fate = .posted d ∧
      ((e, id) ∈ waiting d log ∧ reached e id log = [] ∨
        ∃ f past', .taken d e id f :: past' <:+ log ∧ reached e id log =
          if (present past' id).isSome then [(k.slot, em.notice)] else []) := by
  have due := lawful.due_of_turn listed member turn
  obtain ⟨mode, d, way, posted⟩ := Fate.due_of_waits waits
  rw [there, posted] at due
  subst due
  refine ⟨mode, d, way, rfl, ?_⟩
  rcases lawful.waits_or_taken turn with ⟨waiting, alone⟩ | ⟨f, past', taken, both⟩
  · exact .inl ⟨waiting, by simp [reached, alone, List.filterMap_cons]⟩
  · refine .inr ⟨f, past', taken, ?_⟩
    have late := lawful.late_of_taken listed member taken
    cases still : (present past' id).isSome <;>
      simp [reached, both, late, Fate.late, still, List.filterMap_cons]

end Listed

theorem Lawful.reached_of_removed (lawful : Lawful log) (was : .connected id k ∈ past)
    (gone : present past id = none) (earlier : past <:+ log) (e : Nat) :
    reached e id log = reached e id past := by
  refine grow (P := fun log => reached e id log = reached e id past) earlier rfl ?_
  intro event past' later suffix before
  have still : present past' id = none :=
    (lawful.suffix ((List.suffix_cons _ _).trans suffix)).stays_removed was gone later
  cases event with
  | turn e' i fate =>
      obtain ⟨em, k', rest, outer, -, -, due⟩ := lawful.admits suffix
      simp only [reached, fates] at before ⊢
      split
      · next same =>
          obtain ⟨rfl, rfl⟩ := same
          simp only [still, Option.isSome_none, Fate.due, Bool.false_eq_true, if_false] at due
          simpa [due, List.filterMap_cons] using before
      · exact before
  | taken d e' i fate =>
      obtain ⟨em, k', rest, -, -, -, late⟩ := lawful.admits suffix
      simp only [reached, fates] at before ⊢
      split
      · next same =>
          obtain ⟨rfl, rfl⟩ := same
          simp only [still, Option.isSome_none, Fate.late, Bool.false_eq_true, if_false] at late
          simpa [late, List.filterMap_cons] using before
      · exact before
  | _ => exact before

/-- What a history promises about who is served, how often, and in which order. -/
structure Reliable (log : List (Event σ)) : Prop where
  /-- An emission that is not dropped lists the connections that are present. -/
  lists : ∀ {em past}, .began em :: past <:+ log →
    isBlocked past = false ∧ ∀ id k, (id, k) ∈ em.table ↔ present past id = some k
  /-- Every listed connection has its turn, once. -/
  turns : ∀ {e em}, emission? e log = some em →
    turned e log = em.table.map (·.1) ∧ (turned e log).Nodup
  /-- An emission reaches a listed connection at most once, with its own notice. -/
  once : ∀ {e em id k}, emission? e log = some em → (id, k) ∈ em.table →
    reached e id log = [] ∨ reached e id log = [(k.slot, em.notice)]
  /-- It reaches no other connection. -/
  others : ∀ {e em id}, emission? e log = some em → (∀ k, (id, k) ∉ em.table) →
    reached e id log = []
  /-- A connection that is gone at its turn is passed over. -/
  passed : ∀ {e id fate past}, .turn e id fate :: past <:+ log → present past id = none →
    reached e id log = []
  /-- A connection that is there at its turn is reached, if it is served at once. -/
  inline : ∀ {e em id k fate past}, .turn e id fate :: past <:+ log →
    emission? e log = some em → (id, k) ∈ em.table → (present past id).isSome = true →
    Ensemble.servesInline k.delivery em.thread = true → reached e id log = [(k.slot, em.notice)]
  /-- If it is not, it is posted. Then it waits, or its task has been taken, and it is reached
      if and only if it was still there. -/
  queued : ∀ {e em id k fate past}, .turn e id fate :: past <:+ log →
    emission? e log = some em → (id, k) ∈ em.table → (present past id).isSome = true →
    Ensemble.servesInline k.delivery em.thread = false →
    ∃ mode d, k.delivery = .dispatched mode d ∧ fate = .posted d ∧
      ((e, id) ∈ waiting d log ∧ reached e id log = [] ∨
        ∃ f past', .taken d e id f :: past' <:+ log ∧ reached e id log =
          if (present past' id).isSome then [(k.slot, em.notice)] else [])
  /-- Tasks are taken in the order in which they were posted, and those that are not taken
      wait. -/
  order : ∀ d, sent d log = handled d log ++ waiting d log
  /-- A connection that was removed does not come back and is not reached any more. -/
  removed : ∀ {id k past}, past <:+ log → .connected id k ∈ past → present past id = none →
    present log id = none ∧ ∀ e, reached e id log = reached e id past
  /-- A new connection has an id that none has had before. -/
  fresh : ∀ {id k past}, .connected id k :: past <:+ log → ∀ k', .connected id k' ∉ past

theorem Lawful.reliable (lawful : Lawful log) (idle : underway log = []) : Reliable log where
  lists began := ⟨(lawful.admits began).1, (lawful.admits began).2.2⟩
  turns listed := by
    obtain ⟨-, -, -, -, ascending, -⟩ := lawful.began listed
    have all := lawful.turned_append_left listed
    rw [left, idle, List.lookup_nil, Option.getD_none, List.map_nil, List.append_nil] at all
    exact ⟨all, all ▸ ids_nodup ascending⟩
  once listed member := lawful.reached_once listed member
  others listed stranger := by
    rw [reached, lawful.fates_eq_nil listed stranger]
    rfl
  passed turn gone := lawful.reached_of_gone turn gone
  inline turn listed member there inline :=
    lawful.reached_of_inline turn listed member there inline
  queued turn listed member there waits :=
    lawful.reached_of_waits turn listed member there waits
  order d := lawful.sent_eq d
  removed earlier was gone :=
    ⟨lawful.stays_removed was gone earlier, lawful.reached_of_removed was gone earlier⟩
  fresh connected := (lawful.admits connected).2

end Event

open Event Record

variable {β : Behaviour σ ε} {s : SignalRef} {start w : Ensemble σ ε}

/-- Whatever is done with one signal, from outside and by its slots, there is a history of it
    whose deliveries are reliable. It tells what is connected, and the queues hold the tasks
    that wait, each for a listed connection with the notice of its emission. -/
theorem reliable_of_ran (uses : β.Uses s) (unused : Unused s start) (ran : Ran β s start w) :
    ∃ log, Recorded β s start ⟨w, log⟩ ∧ Reliable log ∧
      (∀ id, (w.signal s).registry.get? id = present log id) ∧
      ∀ d, List.Forall₂ (Awaits s log) (w.dispatcher d).queue (waiting d log) := by
  obtain ⟨log, recorded⟩ := ran.recorded
  obtain ⟨kept, idle⟩ := recorded.kept uses unused
  exact ⟨log, recorded, kept.lawful.reliable idle, kept.present, kept.queues⟩

theorem uses_noting : Ensemble.noting.Uses s := fun _ _ => ⟨trivial, fun _ => trivial⟩

theorem unused_new (client : ε) : Unused s (.new client : Ensemble σ ε) := by
  refine ⟨?_, fun _ => rfl⟩
  cases s <;> rfl

/-- Two of three slots wait for a dispatcher. One of them is disconnected before the queue is
    drained, and its index is taken by a fourth. -/
theorem reliable_of_reused_index :
    ∃ w, Ran Ensemble.noting (.channel 0) (.new []) w ∧ w.client = [1, 3] ∧
      ∃ log, Recorded Ensemble.noting (.channel 0) (.new []) ⟨w, log⟩ ∧ Reliable log ∧
        (∀ id, (w.signal (.channel 0)).registry.get? id = present log id) ∧
        ∀ d, List.Forall₂ (Awaits (.channel 0) log) (w.dispatcher d).queue (waiting d log) := by
  have unused : Ran Ensemble.noting (.channel 0) (.new []) (.new []) := .start
  have first := unused.next 1 (a := .connect (.channel 0) (.client 1) .direct) ⟨rfl, 1, rfl⟩
    (by decide +kernel)
  have second := first.next 1 (a := .connect (.channel 0) (.client 2) (.dispatched .queued 0))
    ⟨rfl, 2, rfl⟩ (by decide +kernel)
  have third := second.next 1 (a := .connect (.channel 0) (.client 3) (.dispatched .auto 0))
    ⟨rfl, 3, rfl⟩ (by decide +kernel)
  have emitted := third.next 5 (a := .inBackground (.emit (.channel 0) .plain)) rfl
    (by decide +kernel)
  have removed := emitted.next 1 (a := .disconnect (.channel 0) ⟨1, 1⟩) rfl (by decide +kernel)
  have fourth := removed.next 1 (a := .connect (.channel 0) (.client 4) .direct) ⟨rfl, 4, rfl⟩
    (by decide +kernel)
  have drained := fourth.next 5 (a := .drain 0) trivial (by decide +kernel)
  exact ⟨_, drained, by decide +kernel, reliable_of_ran uses_noting (unused_new []) drained⟩

end Mvc
