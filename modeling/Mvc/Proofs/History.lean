import Mathlib.Data.List.Nodup
import Mvc.Proofs.Record

/-! # Histories of a signal

A history lists what has happened to a signal, the latest event first. It tells which
connections are present, which emissions are under way and which connections still await their
turn in them. A history is lawful if every event was in order when it happened: new connections
get new ids, emissions list exactly what is present, turns are taken in the order of the list,
by the innermost emission only, and what is taken from a queue is what waits longest.

Everything about who is served, and how often, follows from the law; that the histories of runs
are lawful is shown elsewhere.
-/

namespace Mvc

variable {σ : Type}

/-- What is due to a listed connection when its turn comes. -/
def Fate.due (em : Emission σ) (k : Connection (Slot σ)) (there : Bool) : Fate σ :=
  if there then
    match k.delivery with
    | .direct => .served k.slot em.notice
    | .dispatched mode d =>
      if Ensemble.servesInline (.dispatched mode d) em.thread then .served k.slot em.notice
      else .posted d
  else .passed

/-- What is due to it when its task is taken. -/
def Fate.late (em : Emission σ) (k : Connection (Slot σ)) (there : Bool) : Fate σ :=
  if there then .served k.slot em.notice else .passed

theorem Fate.due_of_inline {em : Emission σ} {k : Connection (Slot σ)}
    (inline : Ensemble.servesInline k.delivery em.thread = true) :
    Fate.due em k true = .served k.slot em.notice := by
  cases way : k.delivery with
  | direct => simp [due, way]
  | dispatched mode d =>
      rw [way] at inline
      simp [due, way, inline]

theorem Fate.due_of_waits {em : Emission σ} {k : Connection (Slot σ)}
    (waits : Ensemble.servesInline k.delivery em.thread = false) :
    ∃ mode d, k.delivery = .dispatched mode d ∧ Fate.due em k true = .posted d := by
  cases way : k.delivery with
  | direct => simp [way, Ensemble.servesInline] at waits
  | dispatched mode d =>
      rw [way] at waits
      exact ⟨mode, d, rfl, by simp [due, way, waits]⟩

namespace Event

/-- The connection that an id names. -/
def present : List (Event σ) → ConnectionId → Option (Connection (Slot σ))
  | [], _ => none
  | .connected i k :: past, id => if id = i then some k else present past id
  | .disconnected i :: past, id => if id = i then none else present past id
  | .cleared :: _, _ => none
  | .closed :: _, _ => none
  | _ :: past, id => present past id

/-- Whether the signal is blocked. -/
def isBlocked : List (Event σ) → Bool
  | [] => false
  | .blocked b :: _ => b
  | _ :: past => isBlocked past

/-- Whether the owner of the signal is gone. -/
def isClosed : List (Event σ) → Bool
  | [] => false
  | .closed :: _ => true
  | _ :: past => isClosed past

/-- The emission with a number. -/
def emission? (e : Nat) : List (Event σ) → Option (Emission σ)
  | [] => none
  | .began em :: past => if e = begun past then some em else emission? e past
  | _ :: past => emission? e past

/-- The emissions under way, the innermost first, each with those that await their turn. -/
def underway : List (Event σ) → List (Nat × List (ConnectionId × Connection (Slot σ)))
  | [] => []
  | .began em :: past => (begun past, em.table) :: underway past
  | .turn _ _ _ :: past =>
    match underway past with
    | (e, left) :: outer => (e, left.tail) :: outer
    | [] => []
  | .ended _ :: past => (underway past).tail
  | _ :: past => underway past

/-- Whether an event is in order. -/
def Admits (past : List (Event σ)) : Event σ → Prop
  | .connected id _ => isClosed past = false ∧ ∀ k, .connected id k ∉ past
  | .disconnected id => (present past id).isSome = true
  | .dropped _ => isBlocked past = true
  | .began em => isBlocked past = false ∧ em.table.Pairwise (·.1.index < ·.1.index) ∧
      ∀ id k, (id, k) ∈ em.table ↔ present past id = some k
  | .turn e id fate => ∃ em k left outer, emission? e past = some em ∧
      underway past = (e, (id, k) :: left) :: outer ∧
      fate = Fate.due em k (present past id).isSome
  | .ended e => ∃ outer, underway past = (e, []) :: outer
  | .taken d e id fate => ∃ em k rest, waiting d past = (e, id) :: rest ∧
      emission? e past = some em ∧ (id, k) ∈ em.table ∧
      fate = Fate.late em k (present past id).isSome
  | _ => True

/-- Every event was in order when it happened. -/
def Lawful : List (Event σ) → Prop
  | [] => True
  | event :: past => Admits past event ∧ Lawful past

attribute [grind =] present emission? underway Lawful

variable {past log : List (Event σ)}

theorem Lawful.suffix (lawful : Lawful log) (earlier : past <:+ log) : Lawful past := by
  induction log with
  | nil => exact List.suffix_nil.mp earlier ▸ lawful
  | cons event rest ih =>
      rcases List.suffix_cons_iff.mp earlier with rfl | earlier
      · exact lawful
      · exact ih lawful.2 earlier

theorem Lawful.admits (lawful : Lawful log) {event : Event σ} (earlier : event :: past <:+ log) :
    Admits past event := (lawful.suffix earlier).1

/-- A property of histories that every event keeps is kept while a history grows. -/
theorem grow {P : List (Event σ) → Prop} (earlier : past <:+ log) (before : P past)
    (step : ∀ event past', past <:+ past' → event :: past' <:+ log → P past' →
      P (event :: past')) : P log := by
  induction log with
  | nil => exact List.suffix_nil.mp earlier ▸ before
  | cons event rest ih =>
      rcases List.suffix_cons_iff.mp earlier with rfl | earlier
      · exact before
      · refine step event rest earlier (List.suffix_refl _) (ih earlier ?_)
        intro event' past' later suffix
        exact step event' past' later (suffix.trans (List.suffix_cons _ _))

/-! ## Emissions -/

theorem lt_begun_of_emission? {e : Nat} {em : Emission σ} (listed : emission? e past = some em) :
    e < begun past := by
  induction past with
  | nil => cases listed
  | cons event past ih =>
      cases event with
      | began em' =>
          simp only [emission?] at listed
          simp only [begun]
          split at listed
          · omega
          · exact Nat.lt_succ_of_lt (ih listed)
      | _ => exact ih listed

theorem emission?_cons {e : Nat} {em : Emission σ} (event : Event σ)
    (listed : emission? e past = some em) : emission? e (event :: past) = some em := by
  cases event with
  | began em' =>
      have older := lt_begun_of_emission? listed
      rw [emission?, if_neg (by omega)]
      exact listed
  | _ => exact listed

theorem emission?_of_suffix {e : Nat} {em : Emission σ} (listed : emission? e past = some em)
    (earlier : past <:+ log) : emission? e log = some em :=
  grow (P := fun log => emission? e log = some em) earlier listed fun event _ _ _ before =>
    emission?_cons event before

theorem emission?_of_began {em : Emission σ} (began : .began em :: past <:+ log) :
    emission? (begun past) log = some em :=
  emission?_of_suffix (by simp [emission?]) began

theorem began_of_emission? {e : Nat} {em : Emission σ} (listed : emission? e log = some em) :
    ∃ past, .began em :: past <:+ log ∧ begun past = e := by
  induction log with
  | nil => cases listed
  | cons event rest ih =>
      have later : emission? e rest = some em →
          ∃ past, Event.began em :: past <:+ event :: rest ∧ begun past = e := by
        intro listed
        obtain ⟨past, began, number⟩ := ih listed
        exact ⟨past, began.trans (List.suffix_cons _ _), number⟩
      cases event with
      | began em' =>
          simp only [emission?] at listed
          split at listed
          · next here =>
              cases listed
              exact ⟨rest, List.suffix_refl _, here.symm⟩
          · exact later listed
      | _ => exact later listed

theorem Lawful.began (lawful : Lawful log) {e : Nat} {em : Emission σ}
    (listed : emission? e log = some em) :
    ∃ past, .began em :: past <:+ log ∧ begun past = e ∧ isBlocked past = false ∧
      em.table.Pairwise (·.1.index < ·.1.index) ∧
      ∀ id k, (id, k) ∈ em.table ↔ present past id = some k := by
  obtain ⟨past, began, number⟩ := began_of_emission? listed
  exact ⟨past, began, number, lawful.admits began⟩

theorem ids_nodup {table : List (ConnectionId × Connection (Slot σ))}
    (ascending : table.Pairwise (·.1.index < ·.1.index)) : (table.map (·.1)).Nodup := by
  refine List.pairwise_map.mpr (ascending.imp ?_)
  intro a b below same
  rw [same] at below
  exact Nat.lt_irrefl _ below

/-! ## Connections -/

theorem connected_of_present {id : ConnectionId} {k : Connection (Slot σ)}
    (here : present past id = some k) : .connected id k ∈ past := by
  induction past with
  | nil => cases here
  | cons event past ih =>
      cases event with
      | connected i k' =>
          simp only [present] at here
          split at here
          · next same =>
              cases here
              exact same ▸ List.mem_cons_self
          · exact List.mem_cons_of_mem _ (ih here)
      | disconnected i =>
          simp only [present] at here
          split at here
          · cases here
          · exact List.mem_cons_of_mem _ (ih here)
      | cleared | closed => cases here
      | _ => exact List.mem_cons_of_mem _ (ih here)

/-- An id is given to one connection only. -/
theorem Lawful.connected_once (lawful : Lawful log) {id : ConnectionId}
    {k k' : Connection (Slot σ)} (first : .connected id k ∈ log)
    (second : .connected id k' ∈ log) : k = k' := by
  induction log with
  | nil => cases first
  | cons event past ih =>
      rcases List.mem_cons.mp first with here | before
      · subst here
        rcases List.mem_cons.mp second with same | before'
        · cases same
          rfl
        · exact absurd before' (lawful.1.2 k')
      · rcases List.mem_cons.mp second with here | before'
        · subst here
          exact absurd before (lawful.1.2 k)
        · exact ih lawful.2 before before'

/-- What was removed does not come back. -/
theorem Lawful.stays_removed (lawful : Lawful log) {id : ConnectionId}
    {k : Connection (Slot σ)} (was : .connected id k ∈ past) (gone : present past id = none)
    (earlier : past <:+ log) : present log id = none := by
  refine grow (P := fun log => present log id = none) earlier gone ?_
  intro event past' later suffix gone
  cases event with
  | connected i k' =>
      rw [present, if_neg]
      · exact gone
      · rintro rfl
        exact (lawful.admits suffix).2 k (later.mem was)
  | disconnected i =>
      rw [present]
      split
      · rfl
      · exact gone
  | cleared | closed => rfl
  | _ => exact gone

theorem Lawful.connected_of_listed (lawful : Lawful past) {e : Nat} {em : Emission σ}
    (listed : emission? e past = some em) {id : ConnectionId} {k : Connection (Slot σ)}
    (member : (id, k) ∈ em.table) : .connected id k ∈ past := by
  obtain ⟨past', began, -, -, -, table⟩ := lawful.began listed
  have before := connected_of_present ((table id k).mp member)
  exact began.mem (List.mem_cons_of_mem _ before)

/-- Later a listed id names the listed connection or none. -/
theorem Lawful.present_of_listed (lawful : Lawful log) {e : Nat} {em : Emission σ}
    (listed : emission? e log = some em) {id : ConnectionId} {k k' : Connection (Slot σ)}
    (member : (id, k) ∈ em.table) (here : present log id = some k') : k' = k :=
  lawful.connected_once (connected_of_present here) (lawful.connected_of_listed listed member)

/-! ## Turns -/

/-- The ids whose turn has come in an emission, in this order. -/
def turned (e : Nat) : List (Event σ) → List ConnectionId
  | [] => []
  | .turn e' id _ :: past => if e' = e then turned e past ++ [id] else turned e past
  | _ :: past => turned e past

/-- Those that await their turn in an emission. -/
def left (e : Nat) (past : List (Event σ)) : List (ConnectionId × Connection (Slot σ)) :=
  ((underway past).lookup e).getD []

/-- Inner emissions began later, and all of them have begun. -/
theorem Lawful.underway_descending (lawful : Lawful past) :
    ((underway past).map (·.1)).Pairwise (· > ·) ∧
      ∀ e ∈ (underway past).map (·.1), e < begun past := by
  induction past with
  | nil => simp [underway]
  | cons event past ih =>
      obtain ⟨descending, older⟩ := ih lawful.2
      cases event with
      | began em =>
          simp only [underway, begun, List.map_cons]
          refine ⟨.cons older descending, ?_⟩
          intro e member
          rcases List.mem_cons.mp member with rfl | member
          · omega
          · exact Nat.lt_succ_of_lt (older e member)
      | turn e id fate =>
          obtain ⟨em, k, left, outer, -, here, -⟩ := lawful.1
          simp only [underway, begun, here, List.map_cons] at descending older ⊢
          exact ⟨descending, older⟩
      | ended e =>
          obtain ⟨outer, here⟩ := lawful.1
          simp only [underway, begun, here, List.map_cons, List.tail_cons] at descending older ⊢
          exact ⟨descending.tail, fun e member => older e (List.mem_cons_of_mem _ member)⟩
      | _ => exact ⟨descending, older⟩

theorem Lawful.turned_of_le (lawful : Lawful past) {e : Nat} (later : begun past ≤ e) :
    turned e past = [] := by
  induction past with
  | nil => rfl
  | cons event past ih =>
      cases event with
      | began em =>
          simp only [begun] at later
          exact ih lawful.2 (by omega)
      | turn e' id fate =>
          obtain ⟨em, k, left, outer, listed, -⟩ := lawful.1
          have older := lt_begun_of_emission? listed
          simp only [begun] at later
          rw [turned, if_neg (by omega)]
          exact ih lawful.2 later
      | _ => exact ih lawful.2 later

/-- A listed connection has had its turn or awaits it, and turns come in the listed order. -/
theorem Lawful.table_eq (lawful : Lawful past) {e : Nat} {em : Emission σ}
    (listed : emission? e past = some em) :
    ∃ done, em.table = done ++ left e past ∧ done.map (·.1) = turned e past := by
  induction past with
  | nil => cases listed
  | cons event past ih =>
      cases event with
      | began em' =>
          simp only [emission?] at listed
          split at listed
          · next here =>
              cases listed
              have none := lawful.2.turned_of_le (Nat.le_of_eq here.symm)
              exact ⟨[], by simp [left, underway, here], by simp [turned, none]⟩
          · next other =>
              simp only [turned, left, underway, List.lookup_cons, beq_eq_false_iff_ne.mpr other]
              exact ih lawful.2 listed
      | turn e' id fate =>
          obtain ⟨em', k, rest, outer, -, here, -⟩ := lawful.1
          obtain ⟨done, table, before⟩ := ih lawful.2 listed
          simp only [left, here, List.lookup_cons] at table
          simp only [turned, left, underway, here, List.lookup_cons, List.tail_cons]
          by_cases same : e = e'
          · subst same
            exact ⟨done ++ [(id, k)], by simpa using table, by simp [before]⟩
          · rw [if_neg (Ne.symm same)]
            rw [beq_eq_false_iff_ne.mpr same] at table ⊢
            exact ⟨done, table, before⟩
      | ended e' =>
          obtain ⟨outer, here⟩ := lawful.1
          obtain ⟨done, table, before⟩ := ih lawful.2 listed
          have descending := (lawful.2.underway_descending).1
          simp only [left, here, List.lookup_cons] at table
          simp only [turned, left, underway, here, List.tail_cons]
          by_cases same : e = e'
          · subst same
            -- The inner emission is not under way a second time.
            have once : outer.lookup e = none := by
              refine List.lookup_eq_none_iff.mpr fun p member => ?_
              rw [here, List.map_cons] at descending
              have above := (List.pairwise_cons.mp descending).1 p.1
                (List.mem_map.mpr ⟨p, member, rfl⟩)
              exact bne_iff_ne.mpr (Nat.ne_of_gt above)
            exact ⟨done, by simpa [once] using table, before⟩
          · rw [beq_eq_false_iff_ne.mpr same] at table
            exact ⟨done, table, before⟩
      | _ => exact ih lawful.2 listed

theorem Lawful.turned_append_left (lawful : Lawful past) {e : Nat} {em : Emission σ}
    (listed : emission? e past = some em) :
    turned e past ++ (left e past).map (·.1) = em.table.map (·.1) := by
  obtain ⟨done, table, before⟩ := lawful.table_eq listed
  rw [table, ← before, List.map_append]

theorem Lawful.listed_of_turned (lawful : Lawful past) {e : Nat} {em : Emission σ}
    (listed : emission? e past = some em) {id : ConnectionId} (turn : id ∈ turned e past) :
    ∃ k, (id, k) ∈ em.table := by
  have among := List.mem_append_left ((left e past).map (·.1)) turn
  rw [lawful.turned_append_left listed] at among
  obtain ⟨⟨_, k⟩, member, rfl⟩ := List.mem_map.mp among
  exact ⟨k, member⟩

theorem Lawful.listed_once (lawful : Lawful past) {e : Nat} {em : Emission σ}
    (listed : emission? e past = some em) {id : ConnectionId} {k k' : Connection (Slot σ)}
    (first : (id, k) ∈ em.table) (second : (id, k') ∈ em.table) : k = k' := by
  obtain ⟨past', -, -, -, -, table⟩ := lawful.began listed
  have here := (table id k).mp first
  rw [(table id k').mp second] at here
  cases here
  rfl

theorem Lawful.next_listed (lawful : Lawful past) {e : Nat} {em : Emission σ}
    (listed : emission? e past = some em) {id : ConnectionId} {k : Connection (Slot σ)}
    {rest : List (ConnectionId × Connection (Slot σ))}
    {outer : List (Nat × List (ConnectionId × Connection (Slot σ)))}
    (here : underway past = (e, (id, k) :: rest) :: outer) : (id, k) ∈ em.table := by
  obtain ⟨done, table, -⟩ := lawful.table_eq listed
  rw [table, left, here]
  simp

/-- The connection whose turn has come is listed, and what becomes of it is what is due. -/
theorem Lawful.turn (lawful : Lawful log) {e : Nat} {id : ConnectionId} {fate : Fate σ}
    (turn : .turn e id fate :: past <:+ log) :
    ∃ em k, emission? e log = some em ∧ (id, k) ∈ em.table ∧
      fate = Fate.due em k (present past id).isSome := by
  obtain ⟨em, k, rest, outer, listed, here, due⟩ := lawful.admits turn
  have earlier := (List.suffix_cons _ _).trans turn
  exact ⟨em, k, emission?_of_suffix listed earlier,
    (lawful.suffix earlier).next_listed listed here, due⟩

theorem Lawful.taken (lawful : Lawful log) {d e : Nat} {id : ConnectionId} {fate : Fate σ}
    (taken : .taken d e id fate :: past <:+ log) :
    ∃ em k, emission? e log = some em ∧ (id, k) ∈ em.table ∧
      fate = Fate.late em k (present past id).isSome := by
  obtain ⟨em, k, rest, -, listed, member, late⟩ := lawful.admits taken
  exact ⟨em, k, emission?_of_suffix listed ((List.suffix_cons _ _).trans taken), member, late⟩

theorem Lawful.due_of_turn (lawful : Lawful log) {e : Nat} {em : Emission σ}
    (listed : emission? e log = some em) {id : ConnectionId} {k : Connection (Slot σ)}
    (member : (id, k) ∈ em.table) {fate : Fate σ} (turn : .turn e id fate :: past <:+ log) :
    fate = Fate.due em k (present past id).isSome := by
  obtain ⟨em', k', listed', member', due⟩ := lawful.turn turn
  obtain rfl := Option.some.inj (listed'.symm.trans listed)
  obtain rfl := lawful.listed_once listed member' member
  exact due

theorem Lawful.late_of_taken (lawful : Lawful log) {e : Nat} {em : Emission σ}
    (listed : emission? e log = some em) {id : ConnectionId} {k : Connection (Slot σ)}
    (member : (id, k) ∈ em.table) {d : Nat} {fate : Fate σ}
    (taken : .taken d e id fate :: past <:+ log) :
    fate = Fate.late em k (present past id).isSome := by
  obtain ⟨em', k', listed', member', late⟩ := lawful.taken taken
  obtain rfl := Option.some.inj (listed'.symm.trans listed)
  obtain rfl := lawful.listed_once listed member' member
  exact late

end Event

end Mvc
