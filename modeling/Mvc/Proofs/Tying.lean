import Mvc.Proofs.Following
import Mvc.Proofs.Rigging

/-! # How the bound view is tied to the busy flag

While a controller is set up and has a model and a view, it keeps one binding: the view hears of
the busy flag. A rigged application is tied if the view hears of the flag exactly then, by the
one binding that there is, and if it will be enabled exactly while no operation is at work once
all words that wait for it are heard (`Tied`). Steps that tell it faithfully keep it tied.

To bind another view or model, the old binding is ended first. The application is loose then
(`Loose`): nobody hears of the flag, and words that wait are for nobody. A new binding takes over
the flag as it is, and its id is a new one, so that no word that waits is for it.
-/

namespace Mvc.App

open Ensemble Proc

/-- A view hears of the busy flag by a connection. -/
def Hears (w : Whole) (id : ConnectionId) (v : Nat) : Prop :=
  w.slotAt Channel.busy id = some (.client (.followBusy v))

/-- Nobody hears of the busy flag. -/
structure Loose (w : Whole) : Prop extends Rigged w where
  bare : (w.controller controller).bindings = []
  mute : ∀ id v, ¬ Hears w id v
  unrouted : (frame w).routed = false → (gist w).Unspoken

/-- The bound view, and nobody else, hears of the busy flag by the only binding, and what it has
    heard and will hear is the flag. -/
structure Tied (w : Whole) : Prop extends Rigged w where
  bound : if isReady (w.controller controller) then
      ∃ id v, (w.controller controller).view = some v ∧
        (w.controller controller).bindings = [.connection Channel.busy id] ∧ Hears w id v
    else (w.controller controller).bindings = []
  booked : ∀ id v, Hears w id v →
    .connection Channel.busy id ∈ (w.controller controller).bindings
  unrouted : (frame w).routed = false → (gist w).Unspoken
  agrees : ∀ id v, Hears w id v →
    ((gist w).words id).getLastD (!(w.view v).enabled) = (gist w).flag

variable {w w₁ w' : Whole} {n : Nat}

/-! ## Who hears of the busy flag -/

theorem mem_followers {id : ConnectionId} {v : Nat} :
    (id, v) ∈ (frame w).followers ↔ Hears w id v := by
  show (id, v) ∈ (w.signal Channel.busy).connections.filterMap follower? ↔ _
  rw [List.mem_filterMap]
  constructor
  · rintro ⟨⟨id', slot, delivery⟩, member, told⟩
    have named := slotAt_of_mem member
    cases slot with
    | client code =>
        cases code with
        | followBusy v' =>
            cases told
            exact named
        | _ => cases told
    | _ => cases told
  · intro named
    obtain ⟨k, entry, slot⟩ := Option.map_eq_some_iff.mp named
    refine ⟨(id, k), mem_connections.mpr entry, ?_⟩
    unfold follower?
    dsimp only
    rw [slot]

theorem followers_distinct (w : Whole) : ((frame w).followers.map (·.1)).Nodup := by
  have ids : ((w.signal Channel.busy).connections.map (·.1)).Nodup :=
    Registry.entries_nodup (w.signal Channel.busy).registry
  have fewer : ∀ entries : List (ConnectionId × Connection (Slot Code)),
      List.Sublist ((entries.filterMap follower?).map (·.1)) (entries.map (·.1)) := by
    intro entries
    induction entries with
    | nil => exact .slnil
    | cons e rest ih =>
        cases told : follower? e with
        | none =>
            rw [List.filterMap_cons_none told]
            exact ih.cons _
        | some f =>
            have same : f.1 = e.1 := by
              unfold follower? at told
              split at told
              · cases told
                rfl
              · cases told
            rw [List.filterMap_cons_some told, List.map_cons, List.map_cons, same]
            exact ih.cons_cons _
  exact (fewer _).nodup ids

/-- Words that wait are for nobody, or for the view that hears by their connection. -/
theorem Rigged.known (rigged : Rigged w) {id : ConnectionId} {v : Nat} {busy : Bool}
    (waits : .tell id v busy ∈ (gist w).waiting)
    (connected : (frame w).connected id = true) : Hears w id v := by
  have connected : (w.signal Channel.busy).registry.contains id = true := connected
  obtain ⟨k, entry⟩ := Option.isSome_iff_exists.mp connected
  have named : w.slotAt Channel.busy id = some k.slot := by
    rw [slotAt, Signal.slot?, entry]
    rfl
  have told := (rigged.settled id v busy waits).property (rigged.sound Channel.busy) named
  exact named.trans (congrArg some told)

namespace Tied

theorem bindings_cases (tied : Tied w) : (w.controller controller).bindings = [] ∨
    ∃ id, (w.controller controller).bindings = [.connection Channel.busy id] := by
  have bound := tied.bound
  split at bound
  · obtain ⟨id, -, -, only, -⟩ := bound
    exact .inr ⟨id, only⟩
  · exact .inl bound

theorem isConnection (tied : Tied w) :
    ∀ line ∈ (w.controller controller).bindings, line.isConnection = true := by
  rcases tied.bindings_cases with none | ⟨id, only⟩
  · rw [none]
    nofun
  · rw [only]
    intro line member
    rw [List.mem_singleton.mp member]
    rfl

/-- The view follows the busy flag. -/
theorem follows (tied : Tied w) : (gist w).Follows where
  single := by
    have one : ∀ f ∈ (frame w).followers, ∀ f' ∈ (frame w).followers, f.1 = f'.1 := by
      intro f member f' member'
      have here := tied.booked f.1 f.2 (mem_followers.mp member)
      have there := tied.booked f'.1 f'.2 (mem_followers.mp member')
      rcases tied.bindings_cases with none | ⟨id, only⟩
      · rw [none] at here
        cases here
      · rw [only, List.mem_singleton, Subscription.connection.injEq] at here there
        exact here.2.trans there.2.symm
    have distinct := followers_distinct w
    show (frame w).followers.length ≤ 1
    match followers : (frame w).followers with
    | [] => exact Nat.zero_le 1
    | [f] => exact Nat.le_refl 1
    | f :: f' :: rest =>
        rw [followers, List.map_cons, List.nodup_cons] at distinct
        have same := one f (by rw [followers]; exact List.mem_cons_self) f'
          (by rw [followers]; exact List.mem_cons_of_mem _ List.mem_cons_self)
        exact absurd (same ▸ List.mem_cons_self) distinct.1
  linked f member := Signal.contains_of_slot? (mem_followers.mp member)
  known id v busy waits connected := mem_followers.mpr (tied.toRigged.known waits connected)
  unrouted := tied.unrouted
  agrees f member := tied.agrees f.1 f.2 (mem_followers.mp member)

/-- Steps that tell the view faithfully keep it tied. -/
theorem steady (tied : Tied w) (steady : Steady w w') (faithful : (gist w).Faithful (gist w')) :
    Tied w' := by
  have hears : ∀ {id v}, Hears w' id v ↔ Hears w id v := by
    intro id v
    rw [Hears, Hears, slotAt, slotAt, steady.signals]
  have ready := steady.of_controller isReady fun _ => rfl
  have view := steady.of_controller (·.view) fun _ => rfl
  have bindings := steady.of_controller (·.bindings) fun _ => rfl
  have follows := faithful.follows tied.follows
  refine ⟨tied.toRigged.steady steady fun id v busy waits => ?_, ?_, fun id v told => ?_,
    follows.unrouted, fun id v told => ?_⟩
  · exact (faithful.news id v busy waits).imp_right mem_followers.mp
  · simp only [ready, view, bindings, hears]
    exact tied.bound
  · rw [bindings]
    exact tied.booked id v (hears.mp told)
  · exact follows.agrees (id, v) (mem_followers.mpr told)

/-- If there is nothing to tell, nobody hears of the busy flag. -/
theorem loose (tied : Tied w) (unready : isReady (w.controller controller) = false) : Loose w := by
  have bare := tied.bound
  rw [if_neg (by simp [unready])] at bare
  refine ⟨tied.toRigged, bare, fun id v told => ?_, tied.unrouted⟩
  have booked := tied.booked id v told
  rw [bare] at booked
  cases booked

end Tied

namespace Loose

theorem tied (loose : Loose w) (unready : isReady (w.controller controller) = false) : Tied w where
  toRigged := loose.toRigged
  bound := by
    rw [if_neg (by simp [unready])]
    exact loose.bare
  booked id v told := absurd told (loose.mute id v)
  unrouted := loose.unrouted
  agrees id v told := absurd told (loose.mute id v)

/-- Rewired, it is still loose. -/
theorem rewired (loose : Loose w) (rewired : Rewired w w') : Loose w' := by
  refine ⟨rewired.rigged, ?_, fun id v told => loose.mute id v (rewired.fewer id _ told),
    fun unrouted => ?_⟩
  · exact (rewired.of_controller (·.bindings) fun _ => rfl).trans loose.bare
  · have routed : (frame w').routed = (frame w).routed :=
      congrArg Option.isSome (rewired.of_controller (·.dispatcher) fun _ => rfl)
    have waiting := congrArg Gist.waiting rewired.gist
    unfold Gist.Unspoken
    rw [waiting]
    exact loose.unrouted (routed ▸ unrouted)

end Loose

/-! ## The binding -/

/-- A view takes over the busy flag as it is, and hears of it from now on. -/
def tune (v : Nat) (w : Whole) : Subscription Code × Whole :=
  plug (modelDelivery w controller) (Channel.busy, .client (.followBusy v))
    (updateView v (fun o => { o with enabled := !isBusy (properties w) }) w)

/-- And that is the binding. -/
def fasten (v : Nat) (w : Whole) : Whole :=
  updateController controller (fun o => { o with bindings := [(tune v w).1] }) (tune v w).2

theorem bindings_eq {v : Nat} (view : (w.controller controller).view = some v) :
    (runs (n + 1)).client bindings w = some ([(tune v w).1], (tune v w).2) := by
  have seen : ∀ {ρ τ : Type} (f : Whole → ρ) (rest : ρ → Program τ),
      (runs (n + 1)).client (see f >>= rest) w = (runs (n + 1)).client (rest (f w)) w :=
    fun _ _ => rfl
  unfold bindings
  rw [seen, view]
  rfl

theorem onlySignals_tune (v : Nat) (w : Whole) :
    OnlySignals (updateView v (fun o => { o with enabled := !isBusy (properties w) }) w)
      (tune v w).2 :=
  onlySignals_plug _ _ _

/-- What is ready is fastened, and then its old bindings are cut, if they are connections. -/
theorem rebindIfReady_eq {v : Nat} (view : (w.controller controller).view = some v)
    (ready : isReady (w.controller controller) = true)
    (connections : ∀ line ∈ (w.controller controller).bindings, line.isConnection = true) :
    rebindIfReady (runs (n + 1)) behaviour controller w =
      some ((), cutAll (w.controller controller).bindings (fasten v w)) := by
  have previous : ((tune v w).2.controller controller).bindings =
      (w.controller controller).bindings :=
    (onlySignals_tune v w).of_controller (·.bindings) (fun _ => rfl) _
  unfold rebindIfReady
  rw [get_bind, if_pos ready]
  unfold establishBindings
  rw [bind_eq_of_eq (show (runs (n + 1)).client (behaviour.connect controller) w = _ from
    bindings_eq view), get_bind, previous, modify_bind]
  exact releaseAll_connections _ (fasten v w) _ connections

/-- A loose application that is ready is fastened. -/
theorem Loose.rebind (loose : Loose w) {v : Nat} (view : (w.controller controller).view = some v)
    (ready : isReady (w.controller controller) = true) :
    rebindIfReady (runs (n + 1)) behaviour controller w = some ((), fasten v w) := by
  rw [rebindIfReady_eq view ready (by rw [loose.bare]; exact nofun), loose.bare]
  rfl

theorem Rigged.enabling (rigged : Rigged w) (v : Nat) (enabled : Bool) :
    Rigged (Ensemble.updateView v (fun o => { o with enabled }) w) := by
  refine rigged.of_signals rfl rfl (blind_updateView w v _ (·.held) fun _ => rfl) rfl
    (signal_updateView w v fun _ => ⟨rfl, rfl, rfl⟩) fun l ours line member => ?_
  have same : SameLink w (Ensemble.updateView v (fun o => { o with enabled }) w) l :=
    sameLink_updateView w v fun _ _ => rfl
  exact rigged.aside l ours line (same.2 ▸ member)

/-- Of a loose application that is fastened, the view hears of the busy flag, and nobody else. -/
theorem Loose.hears (loose : Loose w) (v : Nat) : ∃ id, (tune v w).1 = .connection Channel.busy id ∧
    (∀ id' v', Hears (fasten v w) id' v' ↔ id' = id ∧ v' = v) ∧
    ∀ (P : Slot Code → Prop), ¬ (w.signal Channel.busy).Settled P id := by
  have enabled := loose.toRigged.enabling v (!isBusy (properties w))
  have signals := signal_updateView w v (f := fun o => { o with enabled := !isBusy (properties w) })
    fun _ => ⟨rfl, rfl, rfl⟩
  refine ⟨_, rfl, fun id' v' => ?_, fun P settled => ?_⟩
  · have kept := signal_updateController (tune v w).2 controller
      (f := fun o => { o with bindings := [(tune v w).1] }) fun _ => ⟨rfl, rfl, rfl⟩
    rw [Hears, slotAt, fasten, kept]
    refine (slotAt_plug _ _ _ enabled.sound).trans ?_
    constructor
    · rintro (before | ⟨-, line, same⟩)
      · rw [slotAt, signals] at before
        exact absurd before (loose.mute id' v')
      · cases line
        cases same
        exact ⟨rfl, rfl⟩
    · rintro ⟨rfl, rfl⟩
      exact .inr ⟨enabled.opened _, rfl, rfl⟩
  · rw [← signals] at settled
    exact Signal.not_settled_connect (enabled.sound _) (enabled.opened _) _ _ settled

/-- Fastened, it is tied. -/
theorem Loose.fasten (loose : Loose w) {v : Nat} (view : (w.controller controller).view = some v)
    (ready : isReady (w.controller controller) = true) : Tied (fasten v w) := by
  obtain ⟨id, line, hears, unsettled⟩ := loose.hears v
  have enabled := loose.toRigged.enabling v (!isBusy (properties w))
  have tuned : Rigged (tune v w).2 := enabled.plug ⟨rfl, rfl⟩
  have bindings : ((App.fasten v w).controller controller).bindings =
      [.connection Channel.busy id] := by
    rw [App.fasten, controller_updateController_self, line]
  have unspoken : (gist (App.fasten v w)).words id = [] := by
    refine List.filterMap_eq_nil_iff.mpr fun errand waits => ?_
    cases errand with
    | complete message => rfl
    | tell other v' busy =>
        refine if_neg ?_
        rintro rfl
        exact unsettled _ (loose.settled _ v' busy waits)
  refine ⟨tuned.updateController (fun _ => ⟨rfl, rfl, rfl⟩) (fun _ => ⟨rfl, rfl⟩)
    (fun _ => .inl rfl) fun _ => .inl rfl, ?_, fun id' v' told => ?_, ?_, fun id' v' told => ?_⟩
  · have still : isReady ((App.fasten v w).controller controller) = true := by
      rw [App.fasten, controller_updateController_self]
      exact ready
    have bound : ((App.fasten v w).controller controller).view = some v := by
      rw [App.fasten, controller_updateController_self]
      exact view
    rw [if_pos still]
    exact ⟨id, v, bound, bindings, (hears id v).mpr ⟨rfl, rfl⟩⟩
  · rw [bindings, ((hears id' v').mp told).1]
    exact List.mem_singleton_self _
  · have routed : (frame (App.fasten v w)).routed = (frame w).routed := by
      show ((App.fasten v w).controller controller).dispatcher.isSome = _
      rw [App.fasten, controller_updateController_self]
      rfl
    exact fun unrouted => loose.unrouted (routed ▸ unrouted)
  · obtain ⟨rfl, rfl⟩ := (hears id' v').mp told
    have enabled : ((App.fasten v' w).view v').enabled = !(gist w).flag := by
      show ((updateView v' (fun o => { o with enabled := !isBusy (properties w) }) w).view
        v').enabled = _
      rw [view_updateView_self]
      rfl
    rw [unspoken, List.getLastD_nil, enabled, Bool.not_not]
    rfl

end Mvc.App
