import Mvc.Proofs.Charting

/-! # A controller's own steps

Binding, setting up, closing, and announcing are the passages that they are meant to be, if what
they set off is. By induction on the depth of a run all that is logged is a passage.
-/

namespace Mvc.Ensemble

open Proc Happening

variable {σ ε : Type} {c : Nat} {w w₁ w' : Ensemble σ (Noted (Logbook σ) ε)}
  {log a b : List (Happening σ)}

/-- All that is announced is nested, and nothing that is announced is. -/
theorem tolds_eq_nil_of_nested (nested : Each IsNested log) (prompt : Each IsPrompt log) :
    tolds log = [] := by
  refine List.flatMap_eq_nil_iff.mpr fun e member => ?_
  have h := nested e member
  have h' := prompt e member
  cases e with
  | told phase n b =>
      simp only [IsNested] at h
      simp [h] at h'
  | _ => rfl

/-! ## Notes around an operation -/

section Around

variable {client client' : Noted (Logbook σ) ε} {first : List (Happening σ)}

/-- Something is noted before an operation, and its flags are put back after it. -/
theorem Entered.around (entered : Entered c { w with client } w₁ log)
    (before : client.notes.entries = w.client.notes.entries ++ first)
    (after : client'.notes.entries = w₁.client.notes.entries)
    (busy : client'.notes.busy = w.client.notes.busy)
    (telling : client'.notes.telling = w.client.notes.telling) (none : endings first = []) :
    Entered c w { w₁ with client := client' } (first ++ log) where
  moored := entered.moored.withClient _
  settled P s id h := by
    rw [signal_setClient]
    exact entered.settled P s id (by rwa [signal_setClient])
  entries := by rw [after, entered.entries, before, List.append_assoc]
  busy := busy
  telling := telling
  gone s id member := by
    rw [signal_setClient]
    exact entered.gone s id (by simpa [none] using member)

theorem Heard.around (heard : Heard c { w with client } w₁ log)
    (before : client.notes.entries = w.client.notes.entries ++ first)
    (after : client'.notes.entries = w₁.client.notes.entries)
    (busy : client'.notes.busy = w.client.notes.busy)
    (telling : client'.notes.telling = w.client.notes.telling) (none : endings first = [])
    (silent : tolds first = [] ∧ ∀ listener, givens listener first = []) :
    Heard c w { w₁ with client := client' } (first ++ log) where
  toEntered := heard.toEntered.around before after busy telling none
  heard listener start stop prompt := by
    rw [each_append] at prompt
    rw [signal_setClient] at stop
    rw [givens_append, tolds_append, silent.1, silent.2,
      heard.heard listener (by rwa [signal_setClient]) stop prompt.2]

end Around

/-! ## Who is given a phase -/

/-- A phase is given once to those on a list that stay connected, and to nobody else that does;
    nothing else is announced meanwhile. -/
def GivenOnce (c : Nat) (phase : Phase) (ids : List ConnectionId)
    (w w' : Ensemble σ (Noted (Logbook σ) ε)) (log : List (Happening σ)) : Prop :=
  ∀ listener, (w.signal (.controllerPhase c)).isConnected listener = true →
    (w'.signal (.controllerPhase c)).isConnected listener = true → Each IsPrompt log →
    tolds log = [] ∧ (listener ∈ ids → givens listener log = [phase]) ∧
      (listener ∉ ids → givens listener log = [])

section GivenOnce

variable {phase : Phase} {ids : List ConnectionId} {id : ConnectionId}

/-- The first one on the list is given the phase, and then the others. -/
theorem GivenOnce.given (others : GivenOnce c phase ids w₁ w' b) (new : id ∉ ids)
    (heard : Heard c (enter (.given id phase) w) w₁ a) (nested : Each IsNested a)
    (entered : Entered c w₁ w' b) :
    GivenOnce c phase (id :: ids) w w' ([.given id phase] ++ a ++ b) := by
  intro listener start stop prompt
  have start' : ((enter (.given id phase) w).signal (.controllerPhase c)).isConnected listener =
      true := by
    rw [enter, signal_setClient]
    exact start
  have between := isConnected_between heard.settled entered.settled (entered.moored.sound _)
    start' stop
  simp only [each_append, each_cons, IsPrompt, each_nil, true_and] at prompt
  have silent := tolds_eq_nil_of_nested nested prompt.1
  have quiet := heard.heard listener start' between prompt.1
  obtain ⟨silent', listed, unlisted⟩ := others listener between stop prompt.2
  refine ⟨by simp [silent, silent'], fun member => ?_, fun missing => ?_⟩
  · rcases List.mem_cons.mp member with rfl | later
    · simp [unlisted new, quiet, silent]
    · have other : listener ≠ id := fun same => new (same ▸ later)
      simp [listed later, quiet, silent, other.symm]
  · obtain ⟨other, missing⟩ := not_or.mp (mt List.mem_cons.mpr missing)
    simp [unlisted missing, quiet, silent, Ne.symm other]

/-- Somebody on the list is not connected any more. -/
theorem GivenOnce.skip (others : GivenOnce c phase ids w w' log)
    (absent : (w.signal (.controllerPhase c)).isConnected id = false) :
    GivenOnce c phase (id :: ids) w w' log := by
  intro listener start stop prompt
  have other : listener ≠ id := by
    rintro rfl
    cases absent.symm.trans start
  obtain ⟨silent, listed, unlisted⟩ := others listener start stop prompt
  exact ⟨silent, fun member => listed ((List.mem_cons.mp member).resolve_left other),
    fun missing => unlisted fun later => missing (List.mem_cons_of_mem _ later)⟩

end GivenOnce

section Calls

variable {run : Runner σ (Noted (Logbook σ) ε)} {β : Behaviour σ (Noted (Logbook σ) ε)}
  (calls : ∀ call, Keeps (Charted c) (run call))
include calls

/-! ## Announcing -/

/-- Whoever is on the list and stays connected is given the phase once. -/
theorem logVisit_ends (phase : Phase) {connections : List (ConnectionId × Connection (Slot σ))}
    (nodup : (connections.map (·.1)).Nodup) (moored : Moored c w)
    (telling : w.client.notes.telling = true) :
    Ends (logVisit run c phase connections) w fun _ w' => ∃ log, Entered c w w' log ∧
      Passage w.client.notes.busy true .calls (w.controller c).standing
        (w'.controller c).standing log ∧
      GivenOnce c phase (connections.map (·.1)) w w' log := by
  induction connections generalizing w with
  | nil =>
      refine (ends_pure () w _).mpr ⟨[], .nothing moored (fun _ _ _ h => h) rfl, .idle, ?_⟩
      exact fun _ _ _ _ => ⟨rfl, fun member => absurd member List.not_mem_nil, fun _ => rfl⟩
  | cons first rest ih =>
      obtain ⟨id, connection⟩ := first
      simp only [List.map_cons, List.nodup_cons] at nodup ⊢
      refine .get_bind ?_
      split
      · next =>
          have noting := Entered.enter moored (.given id phase) (by simp)
          have delivering : Keeps (Charted c) (deliver run (.controllerPhase c) (.phase phase) id
              connection) := (deliver_tracks (charted_composes c) _ _ _ _
            ((tracks_self _).mpr (calls _)) fun _ d _ => charted_updateDispatcher d _).keeps
          refine .modify_bind ?_
          refine .bind ((keeps_charted.mp delivering _ noting.moored).mono ?_)
          rintro _ w₁ ⟨a, heard, inner⟩
          have telling₁ := heard.telling.trans telling
          refine (ih nodup.2 heard.moored telling₁).mono fun _ w' ⟨b, entered, later, hears⟩ => ?_
          rw [heard.busy] at later
          rw [show (enter (.given id phase) w).client.notes.telling = true from telling] at inner
          have passage : Passage w.client.notes.busy true .calls (w.controller c).standing
              (w'.controller c).standing ([.given id phase] ++ a ++ b) :=
            ((Passage.given id phase).andThen inner).andThen later
          -- The slot may announce phases, too, but these are nested.
          have nested := inner.nested_of_telling rfl
          exact ⟨_, (noting.trans heard.toEntered).trans entered, passage,
            hears.given nodup.1 heard nested entered⟩
      · next absent =>
          refine Ends.mono (p := logVisit run c phase rest) (ih nodup.2 moored telling) ?_
          rintro _ w' ⟨log, entered, passage, hears⟩
          exact ⟨log, entered, passage, hears.skip (eq_false_of_ne_true absent)⟩

/-- The phase is emitted, and whoever is connected is given it unless the signal is blocked. -/
theorem logEmission_ends (phase : Phase) (moored : Moored c w)
    (telling : w.client.notes.telling = true) :
    Ends (logEmission run c phase) w fun _ w' => ∃ log, Entered c w w' log ∧
      Passage w.client.notes.busy true .calls (w.controller c).standing
        (w'.controller c).standing log ∧
      ∀ listener, (w.signal (.controllerPhase c)).isConnected listener = true →
        (w'.signal (.controllerPhase c)).isConnected listener = true → Each IsPrompt log →
        (w.signal (.controllerPhase c)).blocked = false →
        tolds log = [] ∧ givens listener log = [phase] := by
  refine .get_bind ?_
  dsimp only
  split
  · next blocked =>
      refine (ends_pure () w _).mpr ⟨[], .nothing moored (fun _ _ _ h => h) rfl, .idle, ?_⟩
      simp [blocked]
  · refine (logVisit_ends calls phase (Registry.entries_nodup _) moored telling).mono ?_
    rintro _ w' ⟨log, entered, passage, hears⟩
    refine ⟨log, entered, passage, fun listener start stop prompt _ => ?_⟩
    obtain ⟨silent, listed, -⟩ := hears listener start stop prompt
    exact ⟨silent, listed (Registry.mem_entries_of_contains start)⟩

/-- The phase is announced. -/
theorem logPhase_ends (moored : Moored c w) (busy : w.client.notes.busy = true) :
    Ends (logPhase run c) w fun _ w' => ChartedAs .telling c w w' := by
  refine .get_bind ?_
  dsimp only
  refine .modify_bind ?_
  refine .modify_bind ?_
  refine .bind ?_
  have moored₁ : Moored c (setTelling true (enter (.told (w.controller c).phase
      w.client.notes.telling (w.signal (.controllerPhase c)).blocked) w)) := moored.withClient _
  refine (logEmission_ends calls (w.controller c).phase moored₁ rfl).mono ?_
  rintro _ w₂ ⟨log, entered, inner, hears⟩
  refine (ends_modify _ _ _).mpr
    ⟨[_] ++ log, ⟨entered.around (w := w) rfl rfl (entered.busy.trans rfl) rfl rfl, ?_⟩, ?_⟩
  · intro listener start stop prompt
    simp only [each_append, each_cons, IsPrompt, each_nil, and_true] at prompt
    obtain ⟨⟨-, unblocked⟩, prompt⟩ := prompt
    simp only [setTelling, enter, signal_setClient] at stop hears
    simp [hears listener start stop prompt unblocked]
  · rw [busy]
    exact .told (w.signal (.controllerPhase c)).blocked (busy ▸ inner)

/-! ## Making bindings -/

/-- Bindings are made, and those end that were there. -/
theorem logBindings_ends (own : BindsOwnBy β run) (moored : Moored c w)
    (busy : w.client.notes.busy = true) :
    Ends (logBindings run β c) w fun _ w' => ∃ a b s₁ bindings,
      Heard c w w' (a ++ .made (w.controller c).pair s₁.pair bindings ::
        (b ++ [.ended s₁.bindings])) ∧
      Passage true w.client.notes.telling .calls (w.controller c).standing s₁ a ∧
      Passage true w.client.notes.telling .calls { s₁ with bindings }
        (w'.controller c).standing b := by
  refine .get_bind ?_
  refine .bind fun bindings w₁ ran => ?_
  obtain ⟨a, heard, inner⟩ :=
    ((caretaker_charted calls).client (β.connect c)).keeps w bindings w₁ ran moored
  have owned := own c w bindings w₁ moored.sound ran
  refine .get_bind ?_
  dsimp only
  have noting := Heard.enter heard.moored
    (.made (w.controller c).pair (w₁.controller c).pair bindings) (by simp) ⟨rfl, fun _ => rfl⟩
  have binding : Heard c _ (updateController c (fun o => { o with bindings }) _) [] :=
    .update noting.moored (fun _ => ⟨rfl, rfl, rfl⟩) (fun _ member => member)
      (fun s id member => .inr (noting.settled _ s id (owned s id member))) fun _ => ⟨rfl, rfl, rfl⟩
  refine .modify_bind ?_
  refine .modify_bind ?_
  refine .bind ((releaseAll_charted calls binding.moored fun line member =>
    (heard.moored.apart_bindings c line member).later
      (noting.trans binding).settled).mono fun _ w₂ h => ?_)
  obtain ⟨⟨b, heard', ending⟩, gone⟩ := h
  have last := Heard.enter heard'.moored (.ended (w₁.controller c).bindings) gone
    ⟨rfl, fun _ => rfl⟩
  rw [busy] at inner
  rw [controller_updateController_self, binding.busy, binding.telling, noting.busy,
    noting.telling, heard.busy, heard.telling, busy] at ending
  refine (ends_modify _ _ _).mpr ⟨a, b, _, bindings, ?_, inner, ending⟩
  exact heard.trans (noting.trans (binding.trans (heard'.trans last)))

/-- Bindings are made if they can be, and the phase is announced. -/
theorem logRebinding_ends (own : BindsOwnBy β run) (moored : Moored c w)
    (busy : w.client.notes.busy = true) :
    Ends (logRebinding run β c) w fun _ w' => ChartedAs .rebinding c w w' := by
  refine .bind (.get_bind ?_)
  split
  · next ready =>
      refine (logBindings_ends calls own moored busy).mono ?_
      rintro _ w₁ ⟨a, b, s₁, bindings, heard, inner, ending⟩
      refine (logPhase_ends calls heard.moored (heard.busy.trans busy)).mono ?_
      rintro _ w' ⟨t, heard', rest⟩
      refine ⟨_, heard.trans heard', ?_⟩
      rw [heard.busy, heard.telling, busy] at rest
      rw [busy]
      simp only [List.append_assoc, List.cons_append, List.nil_append]
      exact .made (s := (w.controller c).standing) ready inner ending rest
  · next unready =>
      refine (ends_pure () w _).mpr ((logPhase_ends calls moored busy).mono ?_)
      rintro _ w' ⟨t, heard, rest⟩
      rw [busy] at rest
      refine ⟨t, heard, ?_⟩
      rw [busy]
      exact .unready (eq_false_of_ne_true unready) rest

/-! ## Another model or view -/

omit calls in
/-- The controller comes to listen to a model, and something follows. -/
theorem logJoin_ends {rest : Proc (Ensemble σ (Noted (Logbook σ) ε)) Unit}
    {post : Unit → Ensemble σ (Noted (Logbook σ) ε) → Prop} (m : Nat) (moored : Moored c w)
    (onward : ∀ w', Heard c w w' [.joined m (w.controller c).model] →
      (w'.controller c).standing = { (w.controller c).standing with listening := some m } →
      Ends rest w' post) :
    Ends (do
      let subscriptions ← subscribeToModel c m
      let previous := ((← get).controller c).modelSubscriptions
      modify (updateController c fun o => { o with modelSubscriptions := subscriptions })
      releaseAll run previous
      let w ← get
      modify (enter (.joined m (w.controller c).model))
      rest) w post := by
  obtain ⟨tied, settled, client, standing⟩ := moored.retieModel m
  have tying : Heard c w _ [] := .nothing tied settled (congrArg _ client)
  have bound : ((retieModel c m w).controller c).model = (w.controller c).model :=
    congrArg (·.pair.model) standing
  have joining := Heard.enter tied (.joined m ((retieModel c m w).controller c).model) (by simp)
    ⟨rfl, fun _ => rfl⟩
  refine .bind_of_eq (subscribeToModel_eq c m w) ?_
  refine .get_bind ?_
  refine .modify_bind ?_
  refine .bind_of_eq (releaseAll_connections _ _ run (moored.isConnection (.model c))) ?_
  refine .get_bind ?_
  refine .modify_bind ?_
  refine onward _ ?_ standing
  rw [← bound]
  exact tying.trans joining

/-- Another model is bound, or none. -/
theorem logTurn_ends (own : BindsOwnBy β run) (m : Option Nat) (moored : Moored c w)
    (busy : w.client.notes.busy = true)
    (opened : ∀ i, m = some i → (w.signal (.modelData i)).closed = false) :
    Ends (logTurn run β c (w.controller c) m) w fun _ w' => ∃ log, Heard c w w' log ∧
      ∀ nested, Passage nested w.client.notes.telling .calls (w.controller c).standing
        (w'.controller c).standing (.turned ⟨m, (w.controller c).view⟩ nested :: log) := by
  obtain ⟨torn, settled, standing, client⟩ := moored.tearModel opened
  have tearing : Heard c w (tearModel c m w) [] := .nothing torn settled (congrArg _ client)
  refine .modify_bind ?_
  refine .bind_of_eq (releaseAll_connections _ _ run (moored.isConnection (.model c))) ?_
  refine .bind ((releaseAll_charted calls torn fun line member =>
    (moored.apart_bindings c line member).later settled).mono fun _ w₂ h => ?_)
  obtain ⟨⟨a, heard, inner⟩, gone⟩ := h
  have ending := Heard.enter heard.moored (.ended (w.controller c).bindings) gone
    ⟨rfl, fun _ => rfl⟩
  have before := tearing.trans (heard.trans ending)
  rw [standing, client, busy] at inner
  refine .modify_bind ?_
  cases m with
  | none =>
      refine (logRebinding_ends calls own ending.moored (before.busy.trans busy)).mono ?_
      rintro _ w' ⟨b, heard', rest⟩
      rw [before.busy, before.telling, busy] at rest
      refine ⟨_, before.trans heard', fun nested => ?_⟩
      simp only [List.nil_append, List.append_assoc, List.cons_append]
      exact .unbound (s := (w.controller c).standing) inner rest
  | some i =>
      refine logJoin_ends i ending.moored fun w₃ joining standing' => ?_
      have onward := before.trans joining
      refine (logRebinding_ends calls own joining.moored (onward.busy.trans busy)).mono ?_
      rintro _ w' ⟨b, heard', rest⟩
      refine ⟨_, onward.trans heard', fun nested => ?_⟩
      rw [onward.busy, onward.telling, busy, standing'] at rest
      simp only [List.nil_append, List.append_assoc, List.cons_append]
      exact .bound (s := (w.controller c).standing) inner rest

/-- Another view is bound, or none. -/
theorem logFacing_ends (own : BindsOwnBy β run) (v : Option Nat) (moored : Moored c w)
    (busy : w.client.notes.busy = true) :
    Ends (logFacing run β c (w.controller c) v) w fun _ w' => ∃ log, Heard c w w' log ∧
      ∀ nested, Passage nested w.client.notes.telling .calls (w.controller c).standing
        (w'.controller c).standing (.turned ⟨(w.controller c).model, v⟩ nested :: log) := by
  refine .bind ((holdingView?_ends (P := fun w₂ => ∃ a, Heard c w w₂ a ∧
    Passage true w.client.notes.telling .calls ((w.controller c).standing.withView v)
      (w₂.controller c).standing a ∧
    ∀ s id, .connection s id ∈ (w.controller c).bindings →
      (w₂.signal s).Settled (fun _ => False) id) moored fun w₁ quiet => ?_).mono ?_)
  · have torn : Heard c w₁ (updateController c (Ensemble.rebindView v) w₁) [] :=
      .update quiet.moored (fun _ => ⟨rfl, rfl, rfl⟩) (fun _ member => by cases member)
        (fun _ _ member => by cases member) fun _ => ⟨rfl, rfl, rfl⟩
    have before := (Heard.quiet quiet).trans torn
    have standing : ((updateController c (Ensemble.rebindView v) w₁).controller c).standing =
        (w.controller c).standing.withView v := by
      rw [controller_updateController_self, ← quiet.standing]
      rfl
    refine .modify_bind ?_
    refine (leaveView_charted calls (w.controller c).view torn.moored
      (fun line member =>
        (moored.apart (l := .view c) (by simp) line member).later before.settled)
      fun line member => (moored.apart_bindings c line member).later before.settled).mono ?_
    rintro _ w₂ ⟨⟨a, heard, inner⟩, gone⟩
    rw [before.busy, before.telling, standing, busy] at inner
    refine ⟨heard.moored, fun w' left => ⟨_, before.trans (heard.trans (.quiet left)), ?_, ?_⟩⟩
    · simpa [left.standing] using inner
    · exact fun s id member => left.settled _ s id (gone s id member)
  · rintro _ w₂ ⟨a, heard, inner, gone⟩
    have ending := Heard.enter heard.moored (.ended (w.controller c).bindings) gone
      ⟨rfl, fun _ => rfl⟩
    have before := heard.trans ending
    refine .modify_bind ?_
    -- Joining the new view is quiet, and what follows is the same without one.
    have onward : ∀ w₃, Quiet c (enter (.ended (w.controller c).bindings) w₂) w₃ →
        Ends (logRebinding run β c) w₃ fun _ w' => ∃ log, Heard c w w' log ∧ ∀ nested,
          Passage nested w.client.notes.telling .calls (w.controller c).standing
            (w'.controller c).standing (.turned ⟨(w.controller c).model, v⟩ nested :: log) := by
      intro w₃ quiet
      have before := before.trans (.quiet quiet)
      refine (logRebinding_ends calls own quiet.moored (before.busy.trans busy)).mono ?_
      rintro _ w' ⟨b, heard', rest⟩
      rw [before.busy, before.telling, busy, quiet.standing] at rest
      refine ⟨_, before.trans heard', fun nested => ?_⟩
      simp only [List.append_assoc, List.cons_append, List.nil_append]
      exact .faced (s := (w.controller c).standing) inner rest
    cases v with
    | none => exact onward _ (.refl ending.moored)
    | some x => exact joinView_ends x ending.moored onward

/-! ## Setting up and closing -/

/-- The controller's setup fails, or it succeeds and bindings are made. -/
theorem logTrial_ends (own : BindsOwnBy β run) (moored : Moored c w)
    (busy : w.client.notes.busy = true) (new : (w.controller c).initialized = false) :
    Ends (logTrial run β c) w fun _ w' => ∃ log, Heard c w w' log ∧
      ∀ nested, Passage nested w.client.notes.telling .calls (w.controller c).standing
        (w'.controller c).standing (.tried :: log) := by
  refine .bind fun result w₁ ran => ?_
  obtain ⟨a, heard, inner⟩ :=
    ((caretaker_charted calls).client (β.setup c)).keeps w result w₁ ran moored
  rw [busy] at inner
  cases result with
  | error e =>
      have failing := Heard.enter heard.moored (.setUp (.error e)) (by simp) ⟨rfl, fun _ => rfl⟩
      refine .modify_bind ((ends_pure _ _ _).mpr ?_)
      exact ⟨_, heard.trans failing, fun nested => .refused new inner⟩
  | ok r =>
      have setting : Heard c w₁ (updateController c (fun o => { o with initialized := true }) w₁)
          [] :=
        .update heard.moored (fun _ => ⟨rfl, rfl, rfl⟩) (fun _ member => member)
          (fun _ _ => .inl) fun _ => ⟨rfl, rfl, rfl⟩
      have succeeding := Heard.enter setting.moored (.setUp (.ok ())) (by simp)
        ⟨rfl, fun _ => rfl⟩
      have before := heard.trans (setting.trans succeeding)
      refine .modify_bind ?_
      refine .modify_bind ?_
      refine .bind ((logRebinding_ends calls own succeeding.moored
        (before.busy.trans busy)).mono ?_)
      rintro _ w' ⟨b, heard', rest⟩
      refine (ends_pure _ _ _).mpr ⟨_, before.trans heard', fun nested => ?_⟩
      rw [before.busy, before.telling, busy, controller_enter, controller_updateController_self]
        at rest
      simp only [List.nil_append, List.append_assoc, List.cons_append]
      exact .setUp new inner rest

/-- The controller's client is told that it closes, and then it does. -/
theorem logEnd_ends (moored : Moored c w) (busy : w.client.notes.busy = true) :
    Ends (logEnd run β c) w fun _ w' => ∃ log, Heard c w w' log ∧
      ∀ nested, Passage nested w.client.notes.telling .calls (w.controller c).standing
        (w'.controller c).standing (.closes :: log) := by
  refine .bind fun r w₁ ran => ?_
  obtain ⟨a, heard, inner⟩ :=
    ((caretaker_charted calls).client (β.closing c)).keeps w r w₁ ran moored
  have closing : Heard c w₁ (updateController c (fun o => { o with closing := true }) w₁) [] :=
    .update heard.moored (fun _ => ⟨rfl, rfl, rfl⟩) (fun _ member => member)
      (fun _ _ => .inl) fun _ => ⟨rfl, rfl, rfl⟩
  have before := heard.trans closing
  refine .modify_bind ?_
  refine (logPhase_ends calls closing.moored (before.busy.trans busy)).mono ?_
  rintro _ w' ⟨b, heard', rest⟩
  refine ⟨_, before.trans heard', fun nested => ?_⟩
  rw [busy] at inner
  rw [before.busy, before.telling, busy, controller_updateController_self] at rest
  simp only [List.append_nil]
  exact .shut inner rest

/-! ## Steps of the lifecycle -/

omit calls in
/-- Something begins, is written down, and is done. -/
theorem occupied_charted {α : Type} {p : Proc (Ensemble σ (Noted (Logbook σ) ε)) α}
    {e : Happening σ} (moored : Moored c w)
    (silent : e.ending = [] ∧ e.toldPhase = [] ∧ ∀ listener, e.givenPhase listener = [])
    (inner : Moored c (setBusy true (enter e w)) →
      (setBusy true (enter e w)).client.notes.busy = true →
      Ends p (setBusy true (enter e w)) fun _ w' => ∃ log,
        Heard c (setBusy true (enter e w)) w' log ∧
          Passage w.client.notes.busy w.client.notes.telling .calls (w.controller c).standing
            (w'.controller c).standing (e :: log)) :
    Ends (do modify (enter e); occupied p) w fun _ w' => ChartedAs .calls c w w' := by
  refine .modify_bind ?_
  refine .get_bind ?_
  refine .modify_bind ?_
  refine .bind ((inner (moored.withClient _) rfl).mono ?_)
  rintro r w' ⟨log, heard, passage⟩
  refine .modify_bind ((ends_pure _ _ _).mpr ?_)
  obtain ⟨ending, told, given⟩ := silent
  refine ⟨[e] ++ log, heard.around (w := w) rfl rfl rfl heard.telling ?_
    ⟨?_, fun listener => ?_⟩, passage⟩
  · rw [endings_cons, ending, endings_nil, List.nil_append]
  · rw [tolds_cons, told, tolds_nil, List.nil_append]
  · rw [givens_cons, given, givens_nil, List.nil_append]

theorem logModel_charted (own : BindsOwnBy β run) (m : Option Nat) (moored : Moored c w)
    (opened : ∀ i, m = some i → (w.signal (.modelData i)).closed = false) :
    Ends (logModel run β c m) w fun _ w' => ChartedAs .calls c w w' := by
  refine .get_bind ?_
  dsimp only
  split
  · exact (ends_pure () w _).mpr (charted_of_quiet (fun _ => .refl moored) moored)
  · refine occupied_charted moored ⟨rfl, rfl, fun _ => rfl⟩ fun moored busy => ?_
    refine (logTurn_ends calls own m moored busy fun i same => ?_).mono ?_
    · simpa only [setBusy, enter, signal_setClient] using opened i same
    · rintro _ w' ⟨log, heard, passage⟩
      exact ⟨log, heard, passage _⟩

theorem logView_charted (own : BindsOwnBy β run) (v : Option Nat) :
    Keeps (Charted c) (logView run β c v) := by
  refine keeps_charted.mpr fun w moored => .get_bind ?_
  dsimp only
  split
  · exact (ends_pure () w _).mpr (charted_of_quiet (fun _ => .refl moored) moored)
  · refine occupied_charted moored ⟨rfl, rfl, fun _ => rfl⟩ fun moored busy => ?_
    refine (logFacing_ends calls own v moored busy).mono ?_
    rintro _ w' ⟨log, heard, passage⟩
    exact ⟨log, heard, passage _⟩

theorem logSetup_charted (own : BindsOwnBy β run) : Keeps (Charted c) (logSetup run β c) := by
  refine keeps_charted.mpr fun w moored => .get_bind ?_
  split
  · exact (ends_pure _ w _).mpr (charted_of_quiet (fun _ => .refl moored) moored)
  · next new =>
      refine occupied_charted moored ⟨rfl, rfl, fun _ => rfl⟩ fun moored busy => ?_
      refine (logTrial_ends calls own moored busy (eq_false_of_ne_true new)).mono ?_
      rintro _ w' ⟨log, heard, passage⟩
      exact ⟨log, heard, passage _⟩

theorem logClosing_charted : Keeps (Charted c) (logClosing run β c) := by
  refine keeps_charted.mpr fun w moored => .get_bind ?_
  split
  · exact (ends_pure _ w _).mpr (charted_of_quiet (fun _ => .refl moored) moored)
  · refine occupied_charted moored ⟨rfl, rfl, fun _ => rfl⟩ fun moored busy => ?_
    refine (logEnd_ends calls moored busy).mono ?_
    rintro _ w' ⟨log, heard, passage⟩
    exact ⟨log, heard, passage _⟩

end Calls

end Mvc.Ensemble
