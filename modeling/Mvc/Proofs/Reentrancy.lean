import Mvc.Proofs.Delivery

/-! # Emissions within emissions

The slots that an emission runs may connect and disconnect, block the signal and emit again. The
emission goes through the table that it found at its start all the same, and runs those that are
still there at their turn. What a slot emits is over before the next turn comes.
-/

namespace Mvc

variable {σ ε : Type}

namespace Event

/-- Whom an emission has run at their turns, and with what, the first at the front. -/
def invoked (e : Nat) : List (Event σ) → List (ConnectionId × Slot σ × Notice)
  | [] => []
  | .turn e' id fate :: past =>
    if e' = e then invoked e past ++ fate.invocation?.toList.map (id, ·) else invoked e past
  | _ :: past => invoked e past

/-- Whether a connection was there when its turn came in an emission. -/
def remained (e : Nat) (id : ConnectionId) : List (Event σ) → Bool
  | [] => false
  | .turn e' i _ :: past =>
    if e' = e ∧ i = id then (present past id).isSome else remained e id past
  | _ :: past => remained e id past

/-- An emission goes on: a turn comes in it, or it ends. -/
inductive Advances (e : Nat) : Event σ → Prop where
  | turn (id : ConnectionId) (fate : Fate σ) : Advances e (.turn e id fate)
  | ended : Advances e (.ended e)

variable {past log : List (Event σ)} {event : Event σ} {e : Nat} {id : ConnectionId}
  {em : Emission σ}

/-! ## Whom an emission runs -/

theorem invoked_sublist (e : Nat) (past : List (Event σ)) :
    ((invoked e past).map (·.1)).Sublist (turned e past) := by
  induction past with
  | nil => exact .refl _
  | cons event past ih =>
      cases event with
      | turn e' id fate =>
          simp only [invoked, turned]
          split
          · rw [List.map_append]
            refine ih.append ?_
            cases fate.invocation? with
            | none => exact List.nil_sublist _
            | some run => exact .refl _
          · exact ih
      | _ => exact ih

/-- Those of a list whom an emission runs, and with what: who is there at its turn and need not
    wait. -/
def runsOf (e : Nat) (em : Emission σ) (past : List (Event σ))
    (l : List (ConnectionId × Connection (Slot σ))) : List (ConnectionId × Slot σ × Notice) :=
  (l.filter fun x => remained e x.1 past && Ensemble.servesInline x.2.delivery em.thread).map
    fun x => (x.1, x.2.slot, em.notice)

theorem runsOf_append (l l' : List (ConnectionId × Connection (Slot σ))) :
    runsOf e em past (l ++ l') = runsOf e em past l ++ runsOf e em past l' := by
  simp [runsOf]

/-- One more turn changes nothing for those who had theirs. -/
theorem runsOf_turn_of_not_mem {l : List (ConnectionId × Connection (Slot σ))} {fate : Fate σ}
    (new : id ∉ l.map (·.1)) : runsOf e em (.turn e id fate :: past) l = runsOf e em past l := by
  unfold runsOf
  rw [List.filter_congr]
  intro x member
  have other : id ≠ x.1 := by
    rintro rfl
    exact new (List.mem_map.mpr ⟨x, member, rfl⟩)
  simp [remained, other]

theorem runsOf_turn_self (k : Connection (Slot σ)) :
    runsOf e em (.turn e id (.due em k (present past id).isSome) :: past) [(id, k)] =
      (Fate.due em k (present past id).isSome).invocation?.toList.map (id, ·) := by
  rw [Fate.invocation?_due]
  cases run : (present past id).isSome && Ensemble.servesInline k.delivery em.thread <;>
    simp [runsOf, remained, run]

/-- An emission has run those of whom this is due, of those whose turn has come. -/
theorem Lawful.invoked_eq (lawful : Lawful past) (listed : emission? e past = some em)
    {done : List (ConnectionId × Connection (Slot σ))} (members : ∀ x ∈ done, x ∈ em.table)
    (turns : done.map (·.1) = turned e past) : invoked e past = runsOf e em past done := by
  induction past generalizing done with
  | nil => cases listed
  | cons event past ih =>
      cases event with
      | began em' =>
          simp only [emission?] at listed
          split at listed
          · next here =>
              -- Nobody has had a turn yet.
              have none := lawful.2.turned_of_le (Nat.le_of_eq here.symm)
              have nobody := invoked_sublist e past
              rw [none, List.sublist_nil, List.map_eq_nil_iff] at nobody
              obtain rfl := List.map_eq_nil_iff.mp (turns.trans none)
              exact nobody
          · exact ih lawful.2 listed members turns
      | turn e' id fate =>
          by_cases same : e' = e
          · subst same
            obtain ⟨em', k, rest, outer, listed', here, due⟩ := lawful.1
            obtain rfl : em' = em := Option.some.inj (listed'.symm.trans listed)
            rw [turned, if_pos rfl] at turns
            obtain ⟨earlier, last, rfl, before, last_id⟩ := List.map_eq_append_iff.mp turns
            obtain ⟨⟨i, k'⟩, rfl, rfl⟩ := List.map_eq_singleton_iff.mp last_id
            obtain rfl : k' = k := lawful.2.listed_once listed (members (i, k') (by simp))
              (lawful.2.next_listed listed here)
            have new := lawful.2.not_turned listed here
            have ih := ih lawful.2 listed
              (fun x h => members x (List.mem_append_left _ h)) before
            rw [← before] at new
            rw [runsOf_append, runsOf_turn_of_not_mem new, ← ih, due, runsOf_turn_self, invoked,
              if_pos rfl]
          · simp only [turned, if_neg same] at turns
            simp only [invoked, runsOf, remained, same, false_and, if_false]
            exact ih lawful.2 listed members turns
      | _ => exact ih lawful.2 listed members turns

theorem Lawful.not_invoked_of_connected (lawful : Lawful log) {k : Connection (Slot σ)}
    (listed : emission? e past = some em) (connected : .connected id k :: past <:+ log) :
    id ∉ (invoked e log).map (·.1) := by
  intro member
  have earlier := (List.suffix_cons _ _).trans connected
  have turn := (invoked_sublist e log).subset member
  obtain ⟨k', there⟩ := lawful.listed_of_turned (emission?_of_suffix listed earlier) turn
  exact (lawful.admits connected).2 k' ((lawful.suffix earlier).connected_of_listed listed there)

/-! ## What is emitted meanwhile -/

theorem Lawful.underway_or_ended (lawful : Lawful past) (older : e < begun past) :
    e ∈ (underway past).map (·.1) ∨ .ended e ∈ past := by
  induction past with
  | nil => cases older
  | cons event past ih =>
      have keep : e < begun past → (e ∈ (underway past).map (·.1) →
          e ∈ (underway (event :: past)).map (·.1) ∨ .ended e ∈ event :: past) →
          e ∈ (underway (event :: past)).map (·.1) ∨ .ended e ∈ event :: past := by
        intro older still
        rcases ih lawful.2 older with here | ended
        · exact still here
        · exact .inr (List.mem_cons_of_mem _ ended)
      cases event with
      | began em =>
          rcases Nat.lt_succ_iff_lt_or_eq.mp older with older | rfl
          · exact keep older fun here => .inl (List.mem_cons_of_mem _ here)
          · exact .inl List.mem_cons_self
      | turn e' id fate =>
          obtain ⟨em, k, rest, outer, -, top, -⟩ := lawful.1
          refine keep older fun here => .inl ?_
          simpa [underway, top] using here
      | ended e' =>
          obtain ⟨outer, top⟩ := lawful.1
          refine keep older fun here => ?_
          rw [top] at here
          rcases List.mem_cons.mp here with rfl | here
          · exact .inr List.mem_cons_self
          · exact .inl (by simpa [underway, top] using here)
      | _ => exact keep older .inl

/-- Only the innermost emission goes on. -/
theorem Advances.innermost (advances : event.Advances e) (admits : Admits past event) :
    ∃ rest outer, underway past = (e, rest) :: outer := by
  cases advances with
  | turn id fate =>
      obtain ⟨em, k, rest, outer, -, here, -⟩ := admits
      exact ⟨_, outer, here⟩
  | ended =>
      obtain ⟨outer, here⟩ := admits
      exact ⟨[], outer, here⟩

/-- An emission that is over runs nobody any more. -/
theorem Lawful.invoked_of_over (lawful : Lawful log) (older : e < begun past)
    (gone : e ∉ (underway past).map (·.1)) (earlier : past <:+ log) :
    invoked e log = invoked e past := by
  refine (grow (P := fun log => e < begun log ∧ e ∉ (underway log).map (·.1) ∧
    invoked e log = invoked e past) earlier ⟨older, gone, rfl⟩ ?_).2.2
  intro event past' later suffix ⟨older, gone, same⟩
  have admits := lawful.admits suffix
  cases event with
  | began em =>
      refine ⟨Nat.lt_succ_of_lt older, ?_, same⟩
      simp only [underway, List.map_cons, List.mem_cons, not_or]
      exact ⟨Nat.ne_of_lt older, gone⟩
  | turn e' id fate =>
      obtain ⟨em, k, rest, outer, -, top, -⟩ := admits
      have apart : e' ≠ e := by
        rintro rfl
        exact gone (by simp [top])
      exact ⟨older, by simpa [underway, top] using gone, by simpa [invoked, apart] using same⟩
  | ended e' =>
      obtain ⟨outer, top⟩ := admits
      refine ⟨older, fun member => gone ?_, same⟩
      rw [top]
      simpa [underway, top] using Or.inr member
  | _ => exact ⟨older, gone, same⟩

/-- When an emission goes on, all that began later is over. -/
theorem Lawful.over_of_advances (lawful : Lawful log) (here : event :: past <:+ log)
    (advances : event.Advances e) {inner : Nat} (later : e < inner) (began : inner < begun past) :
    .ended inner ∈ past ∧ invoked inner log = invoked inner past := by
  have earlier := (List.suffix_cons _ _).trans here
  have before := lawful.suffix earlier
  obtain ⟨rest, outer, top⟩ := advances.innermost (lawful.admits here)
  have gone : inner ∉ (underway past).map (·.1) := by
    have descending := before.underway_descending.1
    rw [top, List.map_cons] at descending ⊢
    intro member
    rcases List.mem_cons.mp member with rfl | member
    · omega
    · have := (List.pairwise_cons.mp descending).1 inner member
      omega
  exact ⟨(before.underway_or_ended began).resolve_left gone,
    lawful.invoked_of_over began gone earlier⟩

/-- What a history promises about emissions whose slots use the signal. -/
structure Reentrant (log : List (Event σ)) : Prop where
  /-- An emission begins if the signal is not blocked, with all that are present, in the order
      of their indices. -/
  begins : ∀ {em past}, .began em :: past <:+ log →
    isBlocked past = false ∧ em.table.Pairwise (·.1.index < ·.1.index) ∧
      ∀ id k, (id, k) ∈ em.table ↔ present past id = some k
  /-- What is emitted is dropped only if it is blocked. -/
  drops : ∀ {notice past}, .dropped notice :: past <:+ log → isBlocked past = true
  /-- Whatever the slots do, each listed connection has its turn, once. -/
  turns : ∀ {e em}, emission? e log = some em →
    turned e log = em.table.map (·.1) ∧ (turned e log).Nodup
  /-- If all are connected directly, those are run, in the order of the table, that are there
      at their turn. -/
  runs : ∀ {e em}, emission? e log = some em → (∀ x ∈ em.table, x.2.delivery = .direct) →
    invoked e log = (em.table.filter fun x => remained e x.1 log).map
      fun x => (x.1, x.2.slot, em.notice)
  /-- Whoever is connected after the start is not run. -/
  newcomers : ∀ {e em id k past}, emission? e past = some em →
    .connected id k :: past <:+ log → id ∉ (invoked e log).map (·.1)
  /-- Before an emission goes on, those that began later have ended and have run whom they
      run. -/
  nested : ∀ {e inner event past}, event :: past <:+ log → event.Advances e → e < inner →
    inner < begun past → .ended inner ∈ past ∧ invoked inner log = invoked inner past

theorem Lawful.reentrant (lawful : Lawful log) (idle : underway log = []) : Reentrant log where
  begins began := lawful.admits began
  drops dropped := lawful.admits dropped
  turns listed := (lawful.reliable idle).turns listed
  runs listed direct := by
    have turns := (lawful.reliable idle).turns listed
    rw [lawful.invoked_eq listed (fun _ member => member) turns.1.symm, runsOf]
    congr 1
    refine List.filter_congr fun x member => ?_
    rw [direct x member]
    exact Bool.and_true _
  newcomers listed connected := lawful.not_invoked_of_connected listed connected
  nested here advances later began := lawful.over_of_advances here advances later began

end Event

open Event Record

variable {β : Behaviour σ ε} {s : SignalRef} {start w : Ensemble σ ε}

/-- What is emitted while the signal is blocked reaches nobody, wherever it is emitted. -/
theorem emit_of_blocked (β : Behaviour σ ε) (depth : Nat) (notice : Notice)
    (blocked : (w.signal s).blocked = true) :
    Ensemble.run β (depth + 1) (.action (.emit s notice)) w = some ((), w) := by
  show (if (w.signal s).blocked then _ else _ : Proc (Ensemble σ ε) Unit) w = _
  rw [if_pos blocked]
  rfl

/-- Whatever the slots of a signal do with it, there is a history of it in which every emission
    runs those that it found and that are still there at their turn, and is over before the one
    goes on that it was made in. -/
theorem reentrant_of_ran (uses : β.Uses s) (unused : Unused s start) (ran : Ran β s start w) :
    ∃ log, Recorded β s start ⟨w, log⟩ ∧ Reentrant log ∧
      (∀ id, (w.signal s).registry.get? id = present log id) ∧
      (w.signal s).blocked = isBlocked log ∧
      ∀ depth notice v, (v.signal s).blocked = true →
        Ensemble.run β (depth + 1) (.action (.emit s notice)) v = some ((), v) := by
  obtain ⟨log, recorded⟩ := ran.recorded
  obtain ⟨kept, idle⟩ := recorded.kept uses unused
  exact ⟨log, recorded, kept.lawful.reentrant idle, kept.present, kept.blocked,
    fun depth notice v => emit_of_blocked β depth notice⟩

/-- The first slot removes the second, connects another in its place and blocks the signal; what
    it emits is dropped. The third removes itself and emits in earnest. -/
def meddling : Behaviour Nat (List Nat) :=
  { Behaviour.plain with
    slot := fun n _ => do
      let _ ← Program.perform (Action.change (· ++ [n]))
      match n with
      | 1 => do
        let _ ← Program.perform (Action.disconnect (.channel 0) ⟨1, 1⟩)
        let _ ← Program.perform (Action.connect (.channel 0) (.client 5) .direct)
        let _ ← Program.perform (Action.block (.channel 0) true)
        Program.perform (Action.emit (.channel 0) .plain)
      | 3 => do
        let _ ← Program.perform (Action.block (.channel 0) false)
        let _ ← Program.perform (Action.disconnect (.channel 0) ⟨2, 1⟩)
        Program.perform (Action.emit (.channel 0) .plain)
      | _ => pure () }

theorem uses_meddling : meddling.Uses (.channel 0) := by
  intro n notice
  match n with
  | 1 =>
      exact ⟨trivial, fun _ => ⟨rfl, fun _ => ⟨⟨rfl, 5, rfl⟩, fun _ => ⟨rfl, fun _ =>
        ⟨rfl, fun _ => trivial⟩⟩⟩⟩⟩
  | 3 => exact ⟨trivial, fun _ => ⟨rfl, fun _ => ⟨rfl, fun _ => ⟨rfl, fun _ => trivial⟩⟩⟩⟩
  | 0 | 2 | n + 4 => exact ⟨trivial, fun _ => trivial⟩

theorem reentrant_of_replaced_slot :
    ∃ w, Ran meddling (.channel 0) (.new []) w ∧ w.client = [1, 3, 1, 5, 4, 4] ∧
      ∃ log, Recorded meddling (.channel 0) (.new []) ⟨w, log⟩ ∧ Reentrant log ∧
        (∀ id, (w.signal (.channel 0)).registry.get? id = present log id) ∧
        (w.signal (.channel 0)).blocked = isBlocked log ∧
        ∀ depth notice v, (v.signal (.channel 0)).blocked = true →
          Ensemble.run meddling (depth + 1) (.action (.emit (.channel 0) notice)) v =
            some ((), v) := by
  have unused : Ran meddling (.channel 0) (.new []) (.new []) := .start
  have first := unused.next 1 (a := .connect (.channel 0) (.client 1) .direct) ⟨rfl, 1, rfl⟩
    (by decide +kernel)
  have second := first.next 1 (a := .connect (.channel 0) (.client 2) .direct) ⟨rfl, 2, rfl⟩
    (by decide +kernel)
  have third := second.next 1 (a := .connect (.channel 0) (.client 3) .direct) ⟨rfl, 3, rfl⟩
    (by decide +kernel)
  have fourth := third.next 1 (a := .connect (.channel 0) (.client 4) .direct) ⟨rfl, 4, rfl⟩
    (by decide +kernel)
  have emitted := fourth.next 9 (a := .emit (.channel 0) .plain) rfl (by decide +kernel)
  exact ⟨_, emitted, by decide +kernel, reentrant_of_ran uses_meddling (unused_new []) emitted⟩

end Mvc
