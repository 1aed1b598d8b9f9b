import Mathlib.Data.List.Sort
import Mvc.Ensemble.Run
import Mvc.Proofs.Procedure
import Mvc.Proofs.State
import Mvc.Proofs.Registry

/-! # The order of connections

An emission visits connections in the order of their indexes. As long as every connection was
given an index above those in use, this is the order in which they were made. An index that is
freed below others and taken again puts the later connection first.
-/

namespace Mvc

/-- A change to the connections of a signal. -/
inductive Rewiring (κ : Type) where
  | connect (slot : κ) (delivery : Delivery)
  | disconnect (id : ConnectionId)
  | disconnectAll

namespace Registry

variable {κ : Type}

/-- The index that the next entry takes. -/
def next (r : Registry κ) : Nat := r.free.head?.getD r.cells.length

theorem index_insert (r : Registry κ) (entry : κ) : (r.insert entry).1.index = r.next := by
  cases free : r.free <;> simp [insert, next, free]

theorem entriesFrom_ascending (cells : List (Cell κ)) (start : Nat) :
    (entriesFrom start cells).Pairwise (·.1.index < ·.1.index) := by
  induction cells generalizing start with
  | nil => exact .nil
  | cons cell rest ih =>
      obtain ⟨version, content⟩ := cell
      cases content with
      | none => exact ih (start + 1)
      | some entry =>
          refine .cons ?_ (ih (start + 1))
          intro e later
          exact (mem_entriesFrom.mp later).1

end Registry

namespace Signal

variable {κ : Type}

/-- A signal after some changes, the latest one first. -/
def after : List (Rewiring κ) → Signal κ
  | [] => .new
  | .connect slot delivery :: past => ((after past).connect slot delivery).2
  | .disconnect id :: past => ((after past).disconnect id).2
  | .disconnectAll :: past => (after past).disconnectAll

/-- The connections that are left after some changes, in the order in which they were made. -/
def made : List (Rewiring κ) → List (ConnectionId × Connection κ)
  | [] => []
  | .connect slot delivery :: past =>
      made past ++ [(((after past).connect slot delivery).1, ⟨slot, delivery⟩)]
  | .disconnect id :: past => (made past).filter (·.1 ≠ id)
  | .disconnectAll :: _ => []

/-- The next connection takes an index above all that are taken. -/
def Appends (x : Signal κ) : Prop := ∀ e ∈ x.connections, e.1.index < x.registry.next

variable (h : List (Rewiring κ))

theorem closed_after : (after h).closed = false := by
  induction h with
  | nil => rfl
  | cons change past ih =>
      cases change with
      | connect slot delivery => exact (closed_connect _ _ _).trans ih
      | disconnect | disconnectAll => exact ih

theorem blocked_after : (after h).blocked = false := by
  induction h with
  | nil => rfl
  | cons change past ih =>
      cases change with
      | connect slot delivery => simpa [after, connect_of_open (closed_after past)] using ih
      | disconnect | disconnectAll => exact ih

theorem sound_after : (after h).Sound := by
  induction h with
  | nil => exact sound_new
  | cons change past ih =>
      cases change with
      | connect slot delivery => exact ih.connect slot delivery
      | disconnect id => exact ih.disconnect id
      | disconnectAll => exact ih.disconnectAll

theorem connections_ascending (x : Signal κ) :
    x.connections.Pairwise (·.1.index < ·.1.index) := Registry.entriesFrom_ascending _ 0

theorem mem_made {id : ConnectionId} {c : Connection κ} :
    (id, c) ∈ made h ↔ (id, c) ∈ (after h).connections := by
  simp only [connections, Registry.mem_entries]
  induction h generalizing id c with
  | nil => simp [made, after, new, Registry.get?, Registry.empty]
  | cons change past ih =>
      have sound := (sound_after past).registry
      cases change with
      | connect slot delivery =>
          simp only [made, after, connect_of_open (closed_after past), List.mem_append, ih,
            List.mem_singleton, Prod.mk.injEq, Registry.get?_insert sound]
          split
          · next same => simp [same, Registry.get?_insert_self sound, eq_comm]
          · next other => simp [other]
      | disconnect i =>
          simp only [made, after, disconnect, List.mem_filter, ih, Registry.get?_erase]
          split
          · next same => simp [same]
          · next other => simp [other]
      | disconnectAll => simp [made, after, disconnectAll, Registry.get?_clear sound]

theorem made_nodup : ((made h).map (·.1)).Nodup := by
  induction h with
  | nil => exact .nil
  | cons change past ih =>
      cases change with
      | connect slot delivery =>
          simp only [made, List.map_append, List.map_cons, List.map_nil]
          refine List.nodup_append.mpr ⟨ih, by simp, ?_⟩
          intro id earlier id' new same
          -- A new id names nothing before, so none of the earlier connections has it.
          obtain ⟨⟨i, c⟩, listed, rfl⟩ := List.mem_map.mp earlier
          have named := Registry.mem_entries.mp ((mem_made past).mp listed)
          obtain rfl : i = _ := same.trans (List.mem_singleton.mp new)
          rw [connect_of_open (closed_after past)] at named
          simp [Registry.get?_insert_self (sound_after past).registry] at named
      | disconnect id => exact (List.filter_sublist.map _).nodup ih
      | disconnectAll => exact .nil

/-- What an emission visits is what was connected and is left. -/
theorem connections_perm_made : (after h).connections.Perm (made h) := by
  refine (List.perm_ext_iff_of_nodup ?_ ((made_nodup h).of_map _)).mpr ?_
  · exact List.Nodup.of_map _ (Registry.entries_nodup _)
  · rintro ⟨id, c⟩
    exact (mem_made h).symm

/-- The two orders agree where the connections were made in the order of their indexes. -/
theorem connections_eq_made_iff :
    (after h).connections = made h ↔ (made h).Pairwise (·.1.index < ·.1.index) := by
  constructor
  · intro same
    exact same ▸ connections_ascending _
  · intro ascending
    refine (connections_perm_made h).eq_of_pairwise ?_ (connections_ascending _) ascending
    intro a b _ _ before behind
    omega

theorem appends_of_ordered {slot : κ} {delivery : Delivery} {past : List (Rewiring κ)}
    (before : (after past).connections = made past)
    (ordered : (after (.connect slot delivery :: past)).connections =
      made (.connect slot delivery :: past)) : (after past).Appends := by
  intro e member
  have ascending := (connections_eq_made_iff _).mp ordered
  simp only [made, connect_of_open (closed_after past)] at ascending
  have below := (List.pairwise_append.mp ascending).2.2 e (before ▸ member) _
    (List.mem_singleton_self _)
  simpa only [Registry.index_insert] using below

/-- Appending keeps the order in which connections were made. -/
theorem ordered_of_appends
    (appends : ∀ slot delivery past, Rewiring.connect slot delivery :: past <:+ h →
      (after past).Appends) : (after h).connections = made h := by
  induction h with
  | nil => rfl
  | cons change past ih =>
      have before := ih fun slot delivery past' suffix =>
        appends slot delivery past' (suffix.trans (List.suffix_cons _ _))
      have ascending := (connections_eq_made_iff past).mp before
      apply (connections_eq_made_iff _).mpr
      cases change with
      | connect slot delivery =>
          simp only [made, connect_of_open (closed_after past)]
          refine List.pairwise_append.mpr ⟨ascending, List.pairwise_singleton _ _, ?_⟩
          intro e member new last
          rw [List.mem_singleton.mp last, Registry.index_insert]
          exact appends slot delivery past (List.suffix_refl _) e (before ▸ member)
      | disconnect id => exact ascending.filter _
      | disconnectAll => exact .nil

theorem ordered_iff_appends :
    (∀ past, past <:+ h → (after past).connections = made past) ↔
      ∀ slot delivery past, Rewiring.connect slot delivery :: past <:+ h →
        (after past).Appends := by
  constructor
  · intro ordered slot delivery past suffix
    exact appends_of_ordered (ordered past ((List.suffix_cons _ _).trans suffix))
      (ordered _ suffix)
  · intro appends past suffix
    refine ordered_of_appends past fun slot delivery past' suffix' => ?_
    exact appends slot delivery past' (suffix'.trans suffix)

end Signal

namespace Ensemble

variable {σ ε : Type}

open Signal

/-- An emission visits the connections that are left, in the order of their indexes. Through a
    whole history this is the order in which they were made if and only if no connection took
    an index below one in use. -/
theorem emission_order (run : Runner σ ε) (s : SignalRef) (notice : Notice)
    (w : Ensemble σ ε) (h : List (Rewiring (Slot σ))) :
    emit run s notice (setSignal s (after h) w) =
        visit run s notice (after h).connections (setSignal s (after h) w) ∧
      (after h).connections.Perm (made h) ∧
      (after h).connections.Pairwise (·.1.index < ·.1.index) ∧
      ((∀ past, past <:+ h → (after past).connections = made past) ↔
        ∀ slot delivery past, Rewiring.connect slot delivery :: past <:+ h →
          (after past).Appends) := by
  refine ⟨?_, connections_perm_made h, connections_ascending _, ordered_iff_appends h⟩
  have here : (setSignal s (after h) w).signal s = after h := by simp [signal_setSignal]
  unfold emit
  rw [Proc.get_bind, here, blocked_after]
  rfl

/-- Slots that note their numbers. -/
def noting : Behaviour Nat (List Nat) :=
  { Behaviour.plain with slot := fun n _ => .perform (Action.change (· ++ [n])) }

/-- The second connection is older than the third, which took the index of the first and so
    is served first. -/
theorem third_before_second :
    let history : List (Rewiring (Slot Nat)) :=
      [.connect (.client 3) .direct, .disconnect ⟨0, 1⟩, .connect (.client 2) .direct,
        .connect (.client 1) .direct]
    let w : Ensemble Nat (List Nat) := setSignal (.channel 0) (after history) (.new [])
    (made history).map (·.2.slot) = [.client 2, .client 3] ∧
      (run noting 3 (.action (.emit (.channel 0) .plain)) w).map (·.2.client) =
        some [3, 2] := by
  intro history w
  constructor <;> rfl

end Ensemble

end Mvc
