import Mvc.Proofs.Steady

/-! # What writes and reports do to the gist

Every operation of a mounted application comes to an end, and what it does to the gist can be
read off the gist. Showing a view anew and printing to it do nothing. A write of a property does
what its announcement does: a status line is heard by those who listen, and the views are told of
the busy flag, at once or by a chore for the presentation thread.

The number that is added to a depth is how deep the calls of an operation nest.
-/

namespace Mvc

/-! ## Programs -/

namespace Program

variable {ω α : Type} {R : α → Type} {ρ τ : Type} (step : (a : α) → Proc ω (R a))

theorem run_bind (p : Program ω R ρ) (f : ρ → Program ω R τ) :
    run step (p >>= f) = run step p >>= fun r => run step (f r) := by
  induction p with
  | done r => rfl
  | look next ih =>
      funext w
      exact congrFun (ih w) w
  | act a next ih =>
      show (step a >>= fun r => run step (next r >>= f)) = _
      simp only [ih]
      exact (bind_assoc _ _ _).symm

/-- Nothing need be done at the end. -/
theorem bind_done (p : Program ω R Unit) : (p >>= fun _ => pure ()) = p := by
  induction p with
  | done r => rfl
  | look next ih => exact congrArg look (funext ih)
  | act a next ih => exact congrArg (act a) (funext ih)

theorem bind_bind {υ : Type} (p : Program ω R ρ) (f : ρ → Program ω R τ) (g : τ → Program ω R υ) :
    ((p >>= f) >>= g) = (p >>= fun r => f r >>= g) := by
  induction p with
  | done r => rfl
  | look next ih => exact congrArg look (funext ih)
  | act a next ih => exact congrArg (act a) (funext ih)

theorem run_perform (a : α) : run step (perform a) = step a := bind_pure (step a)

end Program

namespace App

open Ensemble Proc

/-- The application's calls, nested to some depth. -/
abbrev runs (depth : Nat) : Runner Code State := Ensemble.run behaviour depth

variable {n : Nat} {w : Whole}

section Programs

variable {run : Runner Code State} {ρ τ : Type} {mid : ρ → Gist → Prop} {post : τ → Gist → Prop}

theorem Goes.program {p : Program ρ} {f : ρ → Program τ} (first : Goes (run.client p) w mid)
    (rest : ∀ r w₁, Onward w w₁ → mid r (gist w₁) → Goes (run.client (f r)) w₁ post) :
    Goes (run.client (p >>= f)) w post := by
  unfold Runner.client
  rw [Program.run_bind]
  exact first.bind rest

theorem goes_perform {a : Action Code State} {post : a.Result → Gist → Prop}
    (goes : Goes (run (.action a)) w post) : Goes (run.client (.perform a)) w post := by
  unfold Runner.client
  rw [Program.run_perform]
  exact goes

theorem goes_see {α : Type} {f : Whole → α} {p : α → Program τ}
    (rest : Goes (run.client (p (f w))) w post) : Goes (run.client (see f >>= p)) w post := rest

theorem goes_done {r : τ} (holds : post r (gist w)) : Goes (run.client (pure r)) w post :=
  goes_pure holds

theorem ends_program {p : Program ρ} {f : ρ → Program τ} {post : τ → Whole → Prop}
    (first : Ends (run.client p) w fun r w₁ => Ends (run.client (f r)) w₁ post) :
    Ends (run.client (p >>= f)) w post := by
  unfold Runner.client
  rw [Program.run_bind]
  exact .bind first

theorem ends_perform {a : Action Code State} {post : a.Result → Whole → Prop}
    (ends : Ends (run (.action a)) w post) : Ends (run.client (.perform a)) w post := by
  unfold Runner.client
  rw [Program.run_perform]
  exact ends

theorem keeps_perform {R : Whole → Whole → Prop} {a : Action Code State}
    (keeps : Keeps R (run (.action a))) : Keeps R (run.client (.perform a)) :=
  fun w => ends_perform (keeps w)

theorem ends_see {α : Type} {f : Whole → α} {p : α → Program τ} {post : τ → Whole → Prop}
    (ends : Ends (run.client (p (f w))) w post) : Ends (run.client (see f >>= p)) w post := ends

end Programs

/-! ## The application's own state -/

theorem gist_change (f : State → State) (config : (f w.client).config = w.client.config) :
    gist { w with client := f w.client } =
      { gist w with
        inFlight := (f w.client).inFlight
        worker := (f w.client).worker
        errors := (f w.client).journal.filterMap (Entry.text? (.controllerError controller))
        dones := (f w.client).journal.filterMap (Entry.text? (.controllerDone controller))
        lines := (f w.client).journal.filterMap (Entry.text? Channel.status) } :=
  (onward_change f config).gist

theorem change_goes (f : State → State) (config : ∀ s, (f s).config = s.config) :
    Goes ((runs (n + 1)).client (change f)) w fun _ g =>
      g = gist { w with client := f w.client } :=
  goes_of_eq rfl (onward_change f (config _)) rfl

theorem note_goes (e : Entry) :
    Goes ((runs (n + 1)).client (note e)) w fun _ g => g = (gist w).enter e := by
  have noted := change_goes (n := n) (w := w)
    (fun s => { s with journal := s.journal ++ [e] }) fun _ => rfl
  refine noted.mono fun _ g same => same.trans ?_
  rw [gist_change (fun s => { s with journal := s.journal ++ [e] }) rfl]
  have told : ∀ s, [e].filterMap (Entry.text? s) = (e.text? s).toList := by
    intro s
    cases h : e.text? s <;> simp [h]
  simp only [List.filterMap_append, told]
  rfl

/-- A change that leaves alone what was heard. -/
theorem changeTo_goes (f : State → State) (config : ∀ s, (f s).config = s.config)
    (journal : ∀ s t,
      (f s).journal.filterMap (Entry.text? t) = s.journal.filterMap (Entry.text? t)) :
    Goes ((runs (n + 1)).client (change f)) w fun _ g =>
      g = { gist w with
        inFlight := (f w.client).inFlight
        worker := (f w.client).worker } := by
  refine (change_goes f config).mono fun _ g same => same.trans ?_
  rw [gist_change f (config _), journal, journal, journal]
  rfl

/-- And the operation in flight and the worker, too. -/
theorem change_quietly (f : State → State) (config : ∀ s, (f s).config = s.config)
    (inFlight : ∀ s, (f s).inFlight = s.inFlight) (worker : ∀ s, (f s).worker = s.worker)
    (journal : ∀ s t,
      (f s).journal.filterMap (Entry.text? t) = s.journal.filterMap (Entry.text? t)) :
    Goes ((runs (n + 1)).client (change f)) w fun _ g => g = gist w := by
  refine (changeTo_goes f config journal).mono fun _ g same => same.trans ?_
  rw [inFlight, worker]
  rfl

theorem print_goes (v : Nat) (p : Printed) :
    Goes ((runs (n + 1)).client (print v p)) w fun _ g => g = gist w :=
  change_quietly _ (fun _ => rfl) (fun _ => rfl) (fun _ => rfl) fun _ _ => rfl

/-! ## Listening -/

theorem isListener_iff {k : Connection (Slot Code)} :
    isListener k = true ↔ ∃ t, k.slot = .client (.listen t) := by
  obtain ⟨slot, delivery⟩ := k
  cases slot with
  | client code => cases code <;> simp [isListener]
  | _ => simp [isListener]

theorem deliver_direct {run : Runner Code State} {s : SignalRef} {notice : Notice}
    {id : ConnectionId} {k : Connection (Slot Code)} (direct : k.delivery = .direct) :
    deliver run s notice id k = run (.slot k.slot notice) := by
  obtain ⟨slot, delivery⟩ := k
  cases direct
  rfl

theorem listen_goes {s : SignalRef} {notice : Notice} {id : ConnectionId}
    {k : Connection (Slot Code)} (fits : Fits w s k) (listener : isListener k = true)
    {w₁ : Whole} : Goes (deliver (runs (n + 2)) s notice id k) w₁ fun _ g =>
      g = (gist w₁).enter (.heard s notice) := by
  obtain ⟨t, slot⟩ := isListener_iff.mp listener
  simp only [Fits, slot] at fits
  rw [deliver_direct fits.2, slot, fits.1]
  exact note_goes _

theorem foldl_ite {α γ : Type} (p : α → Bool) (f : γ → γ) (l : List α) (x : γ) :
    l.foldl (fun x a => if p a then f x else x) x = f^[l.countP p] x := by
  induction l generalizing x with
  | nil => rfl
  | cons a rest ih =>
      rw [List.foldl_cons, ih, List.countP_cons]
      cases p a <;> simp [Function.iterate_succ_apply]

/-- If the other slots do nothing, an emission is heard by the listeners. -/
theorem emit_hears {s : SignalRef} {notice : Notice} (mounted : Mounted w)
    (others : ∀ id k, Fits w s k → isListener k = false → ∀ w₁, Mounted w₁ → Onward w w₁ →
      Goes (deliver (runs (n + 2)) s notice id k) w₁ fun _ g => g = gist w₁) :
    Goes (Ensemble.emit (runs (n + 2)) s notice) w fun _ g =>
      g = (Gist.enter (.heard s notice))^[(gist w).frame.ears s] (gist w) := by
  have emitted : Goes (Ensemble.emit (runs (n + 2)) s notice) w fun _ => Chained
      (fun e g g' => g' = if isListener e.2 then g.enter (.heard s notice) else g)
      (w.signal s).connections (gist w) := by
    refine emit_goes mounted fun id k fits w₁ mounted₁ onward => ?_
    cases listener : isListener k with
    | true => exact listen_goes fits listener
    | false => exact others id k fits listener w₁ mounted₁ onward
  exact emitted.mono fun _ g chained => chained.foldl.trans (foldl_ite _ _ _ _)

/-- What is no text of the signals that matter is heard in vain. -/
theorem enter_quiet {e : Entry} (quiet : ∀ s, e.text? s ≠ none →
      s ≠ .controllerError controller ∧ s ≠ .controllerDone controller ∧ s ≠ Channel.status)
    (g : Gist) : g.enter e = g := by
  have silent : ∀ s, s = .controllerError controller ∨ s = .controllerDone controller ∨
      s = Channel.status → e.text? s = none := by
    intro s matters
    by_contra told
    obtain ⟨error, done, status⟩ := quiet s told
    rcases matters with same | same | same
    · exact error same
    · exact done same
    · exact status same
  simp only [Gist.enter, silent _ (.inl rfl), silent _ (.inr (.inl rfl)),
    silent _ (.inr (.inr rfl)), Option.toList_none, List.append_nil]

theorem enter_of_ne {s : SignalRef} {notice : Notice} (error : s ≠ .controllerError controller)
    (done : s ≠ .controllerDone controller) (status : s ≠ Channel.status) (g : Gist) :
    g.enter (.heard s notice) = g := by
  refine enter_quiet (fun t told => ?_) g
  have same : s = t := by
    by_contra other
    cases notice <;> simp [Entry.text?, other] at told
  exact same ▸ ⟨error, done, status⟩

/-- Elsewhere, if the other slots do nothing, an emission does nothing. -/
theorem emit_quietly {s : SignalRef} {notice : Notice} (mounted : Mounted w)
    (error : s ≠ .controllerError controller) (done : s ≠ .controllerDone controller)
    (status : s ≠ Channel.status)
    (others : ∀ id k, Fits w s k → isListener k = false → ∀ w₁, Mounted w₁ → Onward w w₁ →
      Goes (deliver (runs (n + 2)) s notice id k) w₁ fun _ g => g = gist w₁) :
    Goes (Ensemble.emit (runs (n + 2)) s notice) w fun _ g => g = gist w := by
  refine (emit_hears mounted others).mono fun _ g same => same.trans ?_
  exact Function.iterate_fixed (enter_of_ne error done status _) _

/-- At some signals there are only listeners. -/
theorem not_fits {s : SignalRef} {k : Connection (Slot Code)} (fits : Fits w s k)
    (other : isListener k = false) :
    s ≠ .modelProperty model ∧ s ≠ .modelValidity model ∧ s ≠ Channel.status ∧
      s ≠ Channel.settingsLoaded ∧ s ≠ Channel.settingsSaved := by
  obtain ⟨slot, delivery⟩ := k
  cases slot with
  | client code =>
      cases code <;> simp [Fits, isListener] at fits other
      all_goals
        obtain ⟨rfl, -⟩ := fits
        simp [Channel.busy, Channel.theme, Channel.status, Channel.settingsLoaded,
          Channel.settingsSaved]
  | controllerData | controllerAction | controllerClosing | controllerUpdate =>
      obtain ⟨⟨i, rfl⟩, -⟩ := fits
      simp [Channel.status, Channel.settingsLoaded, Channel.settingsSaved]
  | viewError | viewInfo | viewPhase =>
      obtain ⟨rfl, -⟩ := fits
      simp [Channel.status, Channel.settingsLoaded, Channel.settingsSaved]

/-! ## Views -/

/-- Controllers do nothing when an update is finished. -/
theorem finishUpdate_goes (mounted : Mounted w) (v : Nat) :
    Goes (runs (n + 3) (.action (.finishUpdate v))) w fun _ g => g = gist w := by
  refine emit_quietly mounted (by simp) (by simp) (by simp [Channel.status]) ?_
  rintro id ⟨slot, delivery⟩ fits other w₁ mounted₁ -
  cases slot with
  | controllerUpdate c =>
      obtain ⟨-, rfl, rfl⟩ := fits
      exact ifControllerAlive_goes mounted₁ fun w₂ _ same => goes_pure same
  | client code => cases code <;> simp [Fits, isListener, Channel.busy, Channel.theme] at fits other
  | _ => simp [Fits] at fits

theorem display_goes (mounted : Mounted w) (v : Nat) :
    Goes ((runs (n + 3)).client (display v)) w fun _ g => g = gist w := by
  refine goes_see ?_
  split
  · refine goes_see ((print_goes (n := n + 2) v _).program fun _ w₁ onward same => ?_)
    refine goes_perform ((finishUpdate_goes (onward.mounted mounted) v).mono ?_)
    exact fun _ g same' => same'.trans same
  · exact goes_done rfl

/-- Showing the bound view anew does nothing. -/
theorem refresh_goes (mounted : Mounted w) :
    Goes (refresh (runs (n + 3)) behaviour controller) w fun _ g => g = gist w := by
  refine goes_get ?_
  split
  · exact goes_pure rfl
  · next v _ =>
      refine holdingView_goes mounted v fun w₁ onward same => ?_
      have derived : Goes ((runs (n + 3)).client deriveTitle) w₁ fun _ g => g = gist w₁ :=
        goes_see (change_quietly _ (fun _ => rfl) (fun _ => rfl) (fun _ => rfl) fun _ _ => rfl)
      refine derived.bind fun _ w₂ onward' same' => ?_
      refine (display_goes ((onward.trans onward').mounted mounted) v).mono ?_
      exact fun _ g here => here.trans (same'.trans same)

theorem dataChanged_goes (mounted : Mounted w) :
    Goes (runs (n + 5) (.slot (.controllerData controller) .dataChanged)) w fun _ g =>
      g = gist w := by
  refine ifControllerAlive_goes mounted fun w₁ onward same => goes_perform ?_
  refine holdingController_goes (onward.mounted mounted) fun w₂ onward' same' => ?_
  refine (refresh_goes (onward'.mounted (onward.mounted mounted))).mono ?_
  exact fun _ g here => here.trans (same'.trans same)

/-! ## The model -/

theorem gist_post (t : Task Code) (chore : IsChore t) :
    gist (updateDispatcher dispatcher (fun q => q.post t) w) =
      { gist w with waiting := (gist w).waiting ++ (Errand.ofTask? t).toList } := by
  refine (steady_post chore).gist.trans ?_
  have waiting : (queue (updateDispatcher dispatcher (fun q => q.post t) w)).filterMap
      Errand.ofTask? = (queue w).filterMap Errand.ofTask? ++ (Errand.ofTask? t).toList := by
    rw [queue_post, List.filterMap_append]
    cases h : Errand.ofTask? t <;> simp [h]
  simp only [gist, waiting]
  rfl

/-- What goes by way of the dispatcher is done at once, or it is posted. -/
theorem routed_goes {run : Runner Code State} {s : SignalRef} {notice : Notice}
    {id : ConnectionId} {k : Connection (Slot Code)} {post : Unit → Gist → Prop}
    (mounted : Mounted w) (route : k.delivery = modelDelivery w controller)
    (now : (gist w).inline = true → Goes (run (.slot k.slot notice)) w post)
    (later : (gist w).inline = false →
      let t := Task.delivery s id k.slot notice
      IsChore t ∧
        post () { gist w with waiting := (gist w).waiting ++ (Errand.ofTask? t).toList }) :
    Goes (deliver run s notice id k) w post := by
  obtain ⟨slot, delivery⟩ := k
  obtain rfl : delivery = _ := route
  have inline : (gist w).inline =
      (!(w.controller controller).dispatcher.isSome || decide (w.thread = .presentation)) := rfl
  unfold modelDelivery
  cases there : (w.controller controller).dispatcher with
  | none => exact now (by simp [inline, there])
  | some d =>
      obtain rfl := mounted.sole d there
      refine goes_get ?_
      cases thread : w.thread with
      | presentation => exact now (by simp [inline, thread])
      | background =>
          obtain ⟨chore, holds⟩ := later (by simp [inline, thread, there])
          rw [← gist_post _ chore] at holds
          exact goes_of_eq rfl ⟨steady_post chore, fun here => by simp [thread] at here⟩ holds

/-- That data changed makes the controller show its view anew, which does nothing. -/
theorem emitData_goes (mounted : Mounted w) (m : Nat) :
    Goes (Ensemble.emit (runs (n + 5)) (.modelData m) .dataChanged) w fun _ g => g = gist w := by
  refine emit_quietly (n := n + 3) mounted (by simp) (by simp) (by simp [Channel.status]) ?_
  rintro id ⟨slot, delivery⟩ fits other w₁ mounted₁ onward
  cases slot with
  | controllerData c =>
      obtain ⟨-, rfl, route⟩ := fits
      refine routed_goes mounted₁ (route.trans onward.delivery.symm) (fun _ => ?_) fun _ => ?_
      · exact dataChanged_goes mounted₁
      · exact ⟨.data _ id, by simp [Errand.ofTask?]⟩
  | client code => cases code <;> simp [Fits, isListener, Channel.busy, Channel.theme] at fits other
  | _ => simp [Fits] at fits

/-- Some signals have listeners only. -/
theorem emitPlain_goes {s : SignalRef} {notice : Notice} (mounted : Mounted w)
    (plain : s = .modelProperty model ∨ s = .modelValidity model ∨ s = Channel.settingsLoaded ∨
      s = Channel.settingsSaved) :
    Goes (Ensemble.emit (runs (n + 2)) s notice) w fun _ g => g = gist w := by
  refine emit_quietly mounted ?_ ?_ ?_ fun id k fits other => ?_
  iterate 3
    rcases plain with rfl | rfl | rfl | rfl <;>
      simp [Channel.status, Channel.settingsLoaded, Channel.settingsSaved]
  obtain ⟨property, validity, -, loaded, saved⟩ := not_fits fits other
  rcases plain with rfl | rfl | rfl | rfl
  · exact absurd rfl property
  · exact absurd rfl validity
  · exact absurd rfl loaded
  · exact absurd rfl saved

theorem enter_iterate (e : Entry) (k : Nat) (g : Gist) : (Gist.enter e)^[k] g =
    { g with
      errors := g.errors ++
        (List.replicate k (e.text? (.controllerError controller)).toList).flatten
      dones := g.dones ++ (List.replicate k (e.text? (.controllerDone controller)).toList).flatten
      lines := g.lines ++ (List.replicate k (e.text? Channel.status).toList).flatten } := by
  induction k generalizing g with
  | zero => simp
  | succ k ih =>
      rw [Function.iterate_succ_apply, ih]
      simp only [Gist.enter, List.replicate_succ, List.flatten_cons, List.append_assoc]

theorem emitStatus_goes (mounted : Mounted w) (text : String) :
    Goes (Ensemble.emit (runs (n + 2)) Channel.status (.text text)) w fun _ g =>
      g = (gist w).announceStatus text := by
  refine (emit_hears mounted fun id k fits other => ?_).mono fun _ g same => same.trans ?_
  · exact absurd rfl (not_fits fits other).2.2.1
  · rw [enter_iterate]
    simp [Entry.text?, Channel.status, Gist.announceStatus]

theorem enable_goes (v : Nat) (enabled : Bool) :
    Goes (runs (n + 1) (.action (.enable v enabled))) w fun _ g =>
      g = { gist w with enabled := Function.update (gist w).enabled v enabled } := by
  have onward : Onward w (updateView v (fun o => { o with enabled }) w) :=
    onward_updateView v (fun _ => ⟨rfl, rfl, rfl⟩) (fun _ => rfl) fun _ => rfl
  refine goes_of_eq rfl onward (onward.gist.trans ?_)
  have enabled : (fun u => ((updateView v (fun o => { o with enabled }) w).view u).enabled) =
      Function.update (gist w).enabled v enabled := by
    funext u
    rw [view_updateView, Function.update_apply]
    split <;> rfl
  simp only [gist, enabled]
  rfl

theorem follow_goes (mounted : Mounted w) (v : Nat) (busy : Bool) :
    Goes (runs (n + 2) (.slot (.client (.followBusy v)) (.flag busy))) w fun _ g =>
      g = (gist w).follow v busy := by
  refine goes_see ?_
  rw [if_pos (by simp [isViewAlive, mounted.views])]
  exact goes_perform (enable_goes v (!busy))

theorem emitBusy_goes (mounted : Mounted w) (busy : Bool) :
    Goes (Ensemble.emit (runs (n + 2)) Channel.busy (.flag busy)) w fun _ g =>
      g = (gist w).announceBusy busy := by
  have emitted : Goes (Ensemble.emit (runs (n + 2)) Channel.busy (.flag busy)) w fun _ => Chained
      (fun e g g' => g' = match follower? e with
        | some f => g.tell busy f
        | none => g)
      (w.signal Channel.busy).connections (gist w) := by
    refine emit_goes mounted ?_
    rintro id ⟨slot, delivery⟩ fits w₁ mounted₁ onward
    cases slot with
    | client code =>
        cases code with
        | listen t =>
            refine (listen_goes fits rfl).mono fun _ g same => same.trans ?_
            exact enter_of_ne (by simp [Channel.busy]) (by simp [Channel.busy])
              (by simp [Channel.busy, Channel.status]) _
        | followBusy v =>
            obtain ⟨-, route⟩ := fits
            refine routed_goes mounted₁ (route.trans onward.delivery.symm) (fun now => ?_)
              fun later => ⟨.busy id v busy, ?_⟩
            · refine (follow_goes mounted₁ v busy).mono fun _ g same => same.trans ?_
              simp only [follower?, Gist.tell, now, if_true]
            · simp [follower?, Gist.tell, later, Errand.ofTask?]
        | _ => simp [Fits, Channel.busy, Channel.theme] at fits
    | _ => simp [Fits, Channel.busy] at fits
  refine emitted.mono fun _ g chained => chained.foldl.trans ?_
  show _ = ((w.signal Channel.busy).connections.filterMap follower?).foldl (Gist.tell busy) _
  rw [List.foldl_filterMap]
  congr 1
  funext g e
  cases follower? e <;> rfl

/-! ## Reports -/

theorem emitError_goes (mounted : Mounted w) (message : String) :
    Goes (Ensemble.reportError (runs (n + 2)) controller message) w fun _ g =>
      g = (gist w).complain message := by
  refine (emit_hears mounted ?_).mono fun _ g heard => heard.trans ?_
  · rintro id ⟨slot, delivery⟩ fits other w₁ mounted₁ -
    cases slot with
    | viewError v =>
        obtain ⟨-, rfl⟩ := fits
        refine ifViewAlive_goes mounted₁ v fun w₂ _ same => ?_
        exact (print_goes v _).mono fun _ g here => here.trans same
    | client code =>
        cases code <;> simp [Fits, isListener, Channel.busy, Channel.theme] at fits other
    | _ => simp [Fits] at fits
  · rw [enter_iterate]
    simp [Entry.text?, Channel.status, Gist.complain]

theorem emitDone_goes (mounted : Mounted w) (message : String) :
    Goes (Ensemble.reportDone (runs (n + 2)) controller message) w fun _ g =>
      g = (gist w).confirm message := by
  refine (emit_hears mounted ?_).mono fun _ g heard => heard.trans ?_
  · rintro id ⟨slot, delivery⟩ fits other w₁ mounted₁ -
    cases slot with
    | viewInfo v =>
        obtain ⟨-, rfl⟩ := fits
        show Goes (if message.isEmpty then _ else _) w₁ _
        split
        · exact goes_pure rfl
        · refine ifViewAlive_goes mounted₁ v fun w₂ _ same => ?_
          exact (print_goes v _).mono fun _ g here => here.trans same
    | client code =>
        cases code <;> simp [Fits, isListener, Channel.busy, Channel.theme] at fits other
    | _ => simp [Fits] at fits
  · rw [enter_iterate]
    simp [Entry.text?, Channel.status, Gist.confirm]

theorem reportError_goes (mounted : Mounted w) (message : String) :
    Goes ((runs (n + 3)).client (reportError message)) w fun _ g =>
      g = (gist w).complain message := by
  refine goes_perform (holdingController_goes mounted fun w₁ onward same => ?_)
  exact same ▸ emitError_goes (onward.mounted mounted) message

theorem reportDone_goes (mounted : Mounted w) (message : String) :
    Goes ((runs (n + 3)).client (reportDone message)) w fun _ g =>
      g = (gist w).confirm message := by
  refine goes_perform (holdingController_goes mounted fun w₁ onward same => ?_)
  exact same ▸ emitDone_goes (onward.mounted mounted) message

/-- That the phase changed makes the view show itself anew, which does nothing. -/
theorem emitPhase_goes (mounted : Mounted w) :
    Goes (emitPhase (runs (n + 4)) controller) w fun _ g => g = gist w := by
  refine goes_get (emit_quietly (n := n + 2) mounted (by simp) (by simp) (by simp [Channel.status])
    ?_)
  rintro id ⟨slot, delivery⟩ fits other w₁ mounted₁ -
  cases slot with
  | viewPhase v =>
      obtain ⟨-, rfl⟩ := fits
      show Goes (if _ = Phase.viewClosing then _ else _) w₁ _
      split
      · exact goes_pure rfl
      · refine ifViewAlive_goes mounted₁ v fun w₂ onward same => ?_
        refine (display_goes (onward.mounted mounted₁) v).mono ?_
        exact fun _ g here => here.trans same
  | client code =>
      cases code <;> simp [Fits, isListener, Channel.busy, Channel.theme] at fits other
  | _ => simp [Fits] at fits

/-! ## Writes -/

theorem gist_write (name : String) (value : Value) :
    gist (updateStore model (fun s => s.write name value) w) = (gist w).written name value := by
  refine (onward_updateModel model _).gist.trans ?_
  have kept : ∀ n, (properties (updateStore model (fun s => s.write name value) w)).get n =
      if n = name then value else (properties w).get n := by
    intro n
    rw [properties, updateStore, model_updateModel, if_pos rfl]
    exact Store.get_write _ name n value
  simp only [gist, kept, Gist.written, eq_comm]
  rfl

theorem accepts_goes {run : Runner Code State} {name : String} {value : Value} {α : Type}
    {f : Bool → Proc Whole α} {post : α → Gist → Prop}
    (rest : Goes (f (accepts name value)) w post) :
    Goes (run.client (behaviour.accepts model name value) >>= f) w post := rest

/-- A write that changes something does what the model's reaction does. -/
theorem write_goes {name : String} {value : Value} {post : Gist → Prop} (mounted : Mounted w)
    (accepted : accepts name value = true) (other : (properties w).get name ≠ value)
    (after : ∀ w₁, Mounted w₁ → gist w₁ = (gist w).written name value →
      Goes ((runs (n + 5)).client (afterSet name value)) w₁ fun _ => post) :
    Goes (write (runs (n + 5)) behaviour model true name value) w fun r g =>
      r = .changed ∧ post g := by
  refine accepts_goes ?_
  rw [accepted]
  refine goes_get ?_
  dsimp only
  have old : ((w.model model).store.get name == value) = false := beq_eq_false_iff_ne.mpr other
  simp only [Bool.false_eq_true, if_false, if_true, old]
  have stored : Goes (modify (updateStore model fun s => s.write name value)) w fun _ g =>
      g = (gist w).written name value :=
    goes_of_eq rfl (onward_updateModel model _) (gist_write name value)
  refine stored.bind fun _ w₁ onward same => ?_
  have mounted₁ := onward.mounted mounted
  refine (after w₁ mounted₁ same).bind fun _ w₂ onward holds => ?_
  have mounted₂ := onward.mounted mounted₁
  refine (emitPlain_goes (n := n + 3) mounted₂ (.inl rfl)).bind fun _ w₃ onward same₃ => ?_
  refine (emitData_goes (onward.mounted mounted₂) model).bind fun _ w₄ _ same₄ => ?_
  exact goes_pure ⟨rfl, by rwa [same₄, same₃]⟩

/-- A write that is refused or changes nothing does nothing. -/
theorem write_idly {name : String} {value : Value}
    (idle : accepts name value = false ∨ (properties w).get name = value) :
    Goes (write (runs (n + 5)) behaviour model true name value) w fun r g =>
      r = (if accepts name value then .unchanged else .rejected) ∧ g = gist w := by
  refine accepts_goes ?_
  cases accepted : accepts name value with
  | false => exact goes_pure ⟨rfl, rfl⟩
  | true =>
      have same := idle.resolve_left (by simp [accepted])
      refine goes_get ?_
      dsimp only
      have old : ((w.model model).store.get name == value) = true := beq_iff_eq.mpr same
      simp only [old, if_true]
      exact goes_pure ⟨rfl, rfl⟩

/-- Setting a property comes to nothing if it is refused or changes nothing, and else to what
    the model's reaction comes to. -/
theorem setProperty_goes {name : String} {value : Value} {post : SetOutcome → Gist → Prop}
    (mounted : Mounted w) (refused : accepts name value = false → post .rejected (gist w))
    (same : (properties w).get name = value → post .unchanged (gist w))
    (after : accepts name value = true → (properties w).get name ≠ value →
      ∀ w₁, Mounted w₁ → gist w₁ = (gist w).written name value →
        Goes ((runs (n + 5)).client (afterSet name value)) w₁ fun _ => post .changed) :
    Goes (setProperty (runs (n + 5)) behaviour model name value) w post := by
  by_cases idle : accepts name value = false ∨ (properties w).get name = value
  · refine (write_idly idle).bind ?_
    rintro _ w₁ - ⟨rfl, kept⟩
    cases accepted : accepts name value with
    | false => exact goes_pure (kept ▸ refused accepted)
    | true => exact goes_pure (kept ▸ same (idle.resolve_left (by simp [accepted])))
  · obtain ⟨accepted, other⟩ := not_or.mp idle
    replace accepted := Bool.not_eq_false _ ▸ accepted
    refine (write_goes mounted accepted other (after accepted other)).bind ?_
    rintro _ w₁ onward ⟨rfl, holds⟩
    have told : Goes (emitValidity (runs (n + 5)) behaviour model) w₁ fun _ g => g = gist w₁ :=
      goes_get (emitPlain_goes (n := n + 3) (onward.mounted mounted) (.inr (.inl rfl)))
    exact told.bind fun _ w₂ _ kept => goes_pure (kept ▸ holds)

theorem set_of_same {name : String} {value : Value} (same : (properties w).get name = value) :
    (gist w).set name value = gist w := by
  unfold Gist.set Gist.setStatus Gist.setBusy
  split
  · next here =>
      subst here
      exact if_pos same
  · split
    · next here =>
        subst here
        exact if_pos same
    · rfl

/-- What is written to a property that is not the theme. -/
theorem set_goes {name : String} (mounted : Mounted w) (value : Value)
    (other : name ≠ Property.theme) :
    Goes ((runs (n + 6)).client (set name value)) w fun _ g => g = (gist w).set name value := by
  refine goes_perform (setProperty_goes mounted (fun refused => ?_)
    (fun same => (set_of_same same).symm) ?_)
  · simp [accepts, other] at refused
  · intro _ changed w₁ mounted₁ same
    unfold afterSet Gist.set
    by_cases status : name = Property.status
    · subst status
      have changed' : (gist w).status ≠ value := changed
      simp only [if_true, Gist.setStatus, if_neg changed']
      refine goes_perform ((emitStatus_goes (n := n + 2) mounted₁ _).mono fun _ g told => ?_)
      rw [told, same]
      rfl
    · by_cases busy : name = Property.busy
      · subst busy
        have changed' : (gist w).busy ≠ value := changed
        simp only [if_neg status, if_true, Gist.setBusy, if_neg changed']
        refine goes_perform ((emitBusy_goes (n := n + 2) mounted₁ _).mono fun _ g told => ?_)
        rw [told, same]
        rfl
      · simp only [if_neg status, if_neg busy, if_neg other]
        refine goes_done (same.trans ?_)
        simp [Gist.written, status, busy]

theorem setText_goes {name : String} (mounted : Mounted w) (text : String)
    (other : name ≠ Property.theme) :
    Goes ((runs (n + 6)).client (setText name text)) w fun _ g =>
      g = (gist w).set name (.string text) := set_goes mounted _ other

theorem setBusy_goes (mounted : Mounted w) (busy : Bool) :
    Goes ((runs (n + 6)).client (setBusy busy)) w fun _ g => g = (gist w).setBusy (.bool busy) := by
  refine (set_goes mounted (.bool busy) (by decide)).program fun _ w₁ _ same => ?_
  exact goes_done same

theorem readClock_goes :
    Goes ((runs (n + 1)).client readClock) w fun _ g => g = gist w := by
  refine goes_see ?_
  have changed : Goes ((runs (n + 1)).client (change fun s => { s with clock := w.client.clock.next }))
      w fun _ g => g = gist w :=
    change_quietly _ (fun _ => rfl) (fun _ => rfl) (fun _ => rfl) fun _ _ => rfl
  exact changed.program fun _ w₁ _ same => goes_done same

/-- Of the status line and the time, the status line matters. -/
theorem updateStatus_goes (mounted : Mounted w) (text : String) :
    Goes ((runs (n + 6)).client (updateStatus text)) w fun _ g =>
      g = (gist w).setStatus (.string text) := by
  refine (setText_goes mounted text (by decide)).program fun _ w₁ onward first => ?_
  refine (readClock_goes (n := n + 5)).program fun now w₂ onward' second => ?_
  have mounted₂ := onward'.mounted (onward.mounted mounted)
  refine (set_goes mounted₂ (.timestamp now) (by decide)).program fun _ w₃ _ third => ?_
  refine goes_done (third.trans ?_)
  rw [second, first]
  rfl

end App

end Mvc
