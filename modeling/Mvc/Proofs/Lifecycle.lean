import Mvc.Proofs.Milestones

/-! # The lifecycle of a model

A model is initialized exactly if it was filled for the first time, it stays so, and it is filled
for the first time once at most, however often its hook fails and whatever the hook does itself.
Once it is initialized, initializing it does nothing at all. A filling that fails leaves
everything as the hook left it.

If those who hear of a model stand by, that is, if they neither write to it nor use its signals, a
filling that succeeds leaves exactly the defaults that are not `null`, and it tells that the data
changed and then whether the model is valid.
-/

namespace Mvc.Ensemble

open Proc

variable {σ ε : Type} {m : Nat} {idle : Slot σ → Prop} {β : Behaviour σ ε} {w w₁ w' : Traced σ ε}

/-! ## Those who stand by -/

/-- The signals of a model are open, and only idle slots hear of it. -/
structure Audience (m : Nat) (idle : Slot σ → Prop) (w : Ensemble σ ε) : Prop where
  unblocked : ∀ s, s.isOf m = true → (w.signal s).blocked = false
  idle : ∀ s, s.isOf m = true → (w.signal s).Carries idle

/-- Before an audience nothing happens to a model, and the audience stays. -/
def Idles (m : Nat) (idle : Slot σ → Prop) (w w' : Traced σ ε) : Prop :=
  Audience m idle w → Audience m idle w' ∧ w'.client.notes = w.client.notes ∧
    (w'.model m).silent = (w.model m).silent

/-- Whatever idle slots hear of, they do nothing to a model. -/
def StandsBy (β : Behaviour σ ε) (m : Nat) (idle : Slot σ → Prop) : Prop :=
  ∀ depth slot notice, idle slot → Keeps (Idles m idle) (traced β m depth (.slot slot notice))

theorem idles_composes : Composes (Idles (ε := ε) m idle) where
  refl _ audience := ⟨audience, rfl, rfl⟩
  trans := by
    intro a b c first second audience
    obtain ⟨audience, notes, same⟩ := first audience
    obtain ⟨audience, notes', same'⟩ := second audience
    exact ⟨audience, notes'.trans notes, same'.trans same⟩

theorem Audience.of_signals {ε' : Type} {w : Ensemble σ ε} {w' : Ensemble σ ε'}
    (audience : Audience m idle w) (signals : ∀ s, w'.signal s = w.signal s) :
    Audience m idle w' where
  unblocked s own := by rw [signals, audience.unblocked s own]
  idle s own := signals s ▸ audience.idle s own

theorem idles_of_signals (signals : ∀ s, w'.signal s = w.signal s)
    (notes : w'.client.notes = w.client.notes)
    (same : (w'.model m).silent = (w.model m).silent) : Idles m idle w w' :=
  fun audience => ⟨audience.of_signals signals, notes, same⟩

/-- Slots of the client's that touch no model and call nobody stand by. -/
theorem standsBy_of_aloof
    (aloof : ∀ slot, idle slot → ∃ code, slot = .client code ∧
      ∀ notice, (β.slot code notice).All Action.IsAloof) : StandsBy β m idle := by
  have actions : ∀ depth (a : Action σ ε), a.IsAloof →
      Keeps (Idles m idle) (traced β m depth (.action (a.beside _))) := by
    intro depth
    induction depth with
    | zero =>
        intro a _ w r w' h
        cases h
    | succ depth ih =>
        intro a quiet
        cases a with
        | change f => exact .modify fun w => idles_of_signals (signal_setClient w _) rfl rfl
        | post d code =>
            exact .modify fun w => idles_of_signals (signal_updateDispatcher w d _) rfl rfl
        | enable v enabled =>
            refine .modify fun w => idles_of_signals (signal_updateView w v ?_) rfl rfl
            exact fun _ => ⟨rfl, rfl, rfl⟩
        | inBackground a =>
            exact (inBackground_tracks idles_composes
              (fun w t => idles_of_signals (signal_setThread w t) rfl rfl)
              ((tracks_self _).mpr (ih a quiet))).keeps
        | _ => exact quiet.elim
  intro depth slot notice here
  obtain ⟨code, rfl, quiet⟩ := aloof slot here
  cases depth with
  | zero =>
      intro w r w' h
      cases h
  | succ depth =>
      have ran : Keeps (Idles m idle)
          ((traced β m depth).client ((β.beside _).slot code notice)) := by
        refine .program idles_composes ?_ (Program.all_beside (quiet notice))
        rintro _ ⟨a, quiet, rfl⟩
        exact actions depth a quiet
      cases notice <;> exact ran

/-! ## What is told -/

section Telling

variable (stands : StandsBy β m idle) {depth : Nat}
include stands

/-- What a model tells is noted once, and nothing comes of it. -/
theorem traceEmit_ends {s : SignalRef} (own : s.isOf m = true) (notice : Notice)
    (audience : Audience m idle w) :
    Ends (traceEmit (traced β m depth) s notice) w fun _ w' =>
      Audience m idle w' ∧ w'.client.notes = w.client.notes ++ [.told s notice] ∧
        (w'.model m).silent = (w.model m).silent := by
  have told : markTold s notice w = mark (.told s notice) w :=
    if_neg (by simp [audience.unblocked s own])
  refine .modify_bind ?_
  rw [told]
  have here : Audience m idle (mark (.told s notice) w) := audience.of_signals (signal_mark _ w)
  have visited : Keeps (Idles m idle) (visit (traced β m depth) s notice
      (w.signal s).connections) := by
    refine (tracks_self _).mp
      (visit_tracks idles_composes s notice _ (fun e member => ?_) fun w d _ => ?_)
    · exact (tracks_self _).mpr (stands depth _ _ ((audience.idle s own).connections e member))
    · exact idles_of_signals (signal_updateDispatcher w d _) rfl rfl
  refine .get_bind ?_
  dsimp only
  rw [signal_mark, audience.unblocked s own]
  exact (visited _).mono fun _ w' kept => kept here

/-- It is told that the data changed, and then whether the model is valid. -/
theorem traceReloaded_ends (audience : Audience m idle w) :
    Ends (traceReloaded (traced β m depth) (β.beside _) m) w fun _ w' =>
      w'.client.notes = w.client.notes ++ [.told (.modelData m) .dataChanged,
        .told (.modelValidity m) (.validity (isModelValid β w'.bare m))] ∧
      (w'.model m).silent = (w.model m).silent := by
  refine .bind ((traceEmit_ends stands (by simp [SignalRef.isOf]) _ audience).mono ?_)
  rintro _ w₁ ⟨audience₁, noted, same⟩
  refine .get_bind ((traceEmit_ends stands (by simp [SignalRef.isOf]) _ audience₁).mono ?_)
  rintro _ w' ⟨-, noted', same'⟩
  have valid : isModelValid (β.beside (List Milestone)) w₁ m = isModelValid β w'.bare m := by
    have initialized := congrArg (·.initialized) same'
    have store := congrArg (·.store) same'
    simp only [Model.silent] at initialized store
    simp only [isModelValid, model_bare, initialized, store]
    rfl
  refine ⟨?_, same'.trans same⟩
  rw [noted', noted, List.append_assoc, valid]
  rfl

end Telling

/-! ## Fillings -/

/-- A model was filled: it holds the last value that the defaults give a property, unless that is
    `null`, and nothing else; and it told so. -/
structure Filled (β : Behaviour σ ε) (m : Nat) (again : Bool) (defaults : List (String × Value))
    (w w' : Traced σ ε) : Prop where
  holds : ∀ name, (w'.model m).store.value? name =
    (Entries.find? name defaults.reverse).filter fun value => !value.isNull
  initialized : (w'.model m).initialized = (!again || (w.model m).initialized)
  notes : w'.client.notes = w.client.notes ++ [.filled again, .told (.modelData m) .dataChanged,
    .told (.modelValidity m) (.validity (isModelValid β w'.bare m))]

theorem filled_of_silent {again : Bool} {defaults : List (String × Value)}
    (store : (w₁.model m).store = .ofPairs defaults)
    (initialized : (w₁.model m).initialized = (!again || (w.model m).initialized))
    (noted : w₁.client.notes = w.client.notes ++ [.filled again])
    (told : w'.client.notes = w₁.client.notes ++ [.told (.modelData m) .dataChanged,
      .told (.modelValidity m) (.validity (isModelValid β w'.bare m))])
    (same : (w'.model m).silent = (w₁.model m).silent) : Filled β m again defaults w w' := by
  have initialized' := congrArg (·.initialized) same
  have store' := congrArg (·.store) same
  simp only [Model.silent] at initialized' store'
  refine ⟨fun name => ?_, initialized'.trans initialized, ?_⟩
  · rw [store', store, Store.value?_ofPairs]
  · rw [told, noted, List.append_assoc]
    rfl

variable {depth : Nat}

/-- Initializing an initialized model does nothing at all. -/
theorem traceInitialize_of_initialized (done : (w.model m).initialized = true)
    (run : Runner σ (Noted (List Milestone) ε)) (β : Behaviour σ (Noted (List Milestone) ε)) :
    traceInitialize run β m w = some (.ok (), w) := by
  unfold traceInitialize
  rw [get_bind, if_pos done]
  rfl

/-- Initializing another one comes to what the hook answers, from where the hook left off. -/
theorem traceInitialize_ends (stands : StandsBy β m idle)
    (new : (w.model m).initialized = false) :
    Ends (traceInitialize (traced β m depth) (β.beside _) m) w fun r w' =>
      ∃ answer w₁, (traced β m depth).client ((β.populate m).beside _) (mark .asked w) =
          some (answer, w₁) ∧
        match answer with
        | .error e => r = .error e ∧ w' = w₁
        | .ok defaults => r = .ok () ∧
          if (w₁.model m).initialized then w' = w₁
          else Audience m idle w₁ → Filled β m false defaults w₁ w' := by
  refine .get_bind ?_
  rw [if_neg (by simp [new])]
  refine .bind (.modify_bind fun answer w₁ asked => ?_)
  cases answer with
  | error e => exact (ends_pure _ _ _).mpr ⟨_, w₁, asked, rfl, rfl⟩
  | ok defaults =>
      refine .get_bind ?_
      split
      · next done => exact (ends_pure _ _ _).mpr ⟨_, w₁, asked, rfl, by simp [done]⟩
      · next new₁ =>
          refine .modify_bind ?_
          intro r w' h
          obtain ⟨_, w₂, reloaded, rest⟩ := bind_eq_some.mp h
          cases rest
          refine ⟨_, w₁, asked, rfl, ?_⟩
          rw [if_neg new₁]
          intro audience
          have filled : (install m defaults w₁).model m =
              { w₁.model m with store := .ofPairs defaults, initialized := true } := by
            rw [install, model_mark, model_updateModel, if_pos rfl]
          have there : Audience m idle (install m defaults w₁) := by
            refine audience.of_signals fun s => ?_
            rw [install, signal_mark]
            refine signal_updateModel w₁ m ?_ s
            exact fun _ => ⟨rfl, rfl, rfl⟩
          obtain ⟨told, same⟩ := traceReloaded_ends stands there _ _ reloaded
          exact filled_of_silent (by rw [filled]) (by rw [filled]; rfl) rfl told same

theorem traceReset_ends (stands : StandsBy β m idle) :
    Ends (traceReset (traced β m depth) (β.beside _) m) w fun r w' =>
      ∃ answer w₁, (traced β m depth).client ((β.populate m).beside _) (mark .asked w) =
          some (answer, w₁) ∧
        match answer with
        | .error e => r = .error e ∧ w' = w₁
        | .ok defaults => r = .ok () ∧
          (Audience m idle w₁ → Filled β m true defaults w₁ w') := by
  refine .bind (.modify_bind fun answer w₁ asked => ?_)
  cases answer with
  | error e => exact (ends_pure _ _ _).mpr ⟨_, w₁, asked, rfl, rfl⟩
  | ok defaults =>
      refine .modify_bind ?_
      intro r w' h
      obtain ⟨_, w₂, reloaded, rest⟩ := bind_eq_some.mp h
      cases rest
      refine ⟨_, w₁, asked, rfl, fun audience => ?_⟩
      have filled : (refill m defaults w₁).model m =
          { w₁.model m with store := .ofPairs defaults } := by
        rw [refill, model_mark, updateStore, model_updateModel, if_pos rfl]
      have there : Audience m idle (refill m defaults w₁) := by
        refine audience.of_signals fun s => ?_
        rw [refill, signal_mark]
        refine signal_updateModel w₁ m ?_ s
        exact fun _ => ⟨rfl, rfl, rfl⟩
      obtain ⟨told, same⟩ := traceReloaded_ends stands there _ _ reloaded
      exact filled_of_silent (by rw [filled]) (by rw [filled]; simp) rfl told same

/-! ## Whole runs -/

/-- A model is initialized exactly if it was filled for the first time, which was once. -/
def FilledOnce (m : Nat) (w : Traced σ ε) : Prop :=
  firsts w.client.notes = (w.model m).initialized.toNat

theorem Ages.filledOnce (ages : Ages m w w') (once : FilledOnce m w) : FilledOnce m w' := by
  obtain ⟨log, noted, older⟩ := ages
  unfold FilledOnce firsts at *
  rw [noted, List.count_append]
  omega

theorem Ages.initialized (ages : Ages m w w') (done : (w.model m).initialized = true) :
    (w'.model m).initialized = true := by
  obtain ⟨log, -, older⟩ := ages
  rw [done] at older
  cases h : (w'.model m).initialized with
  | true => rfl
  | false => simp [h] at older

theorem FilledOnce.initialized_iff (once : FilledOnce m w) :
    (w.model m).initialized = true ↔ .filled false ∈ w.client.notes := by
  rw [← List.count_pos_iff]
  unfold FilledOnce firsts at once
  rw [once]
  cases (w.model m).initialized <;> simp

/-- In every run of a model that starts out uninitialized, whatever client code does and however
    often the hook fails or calls back: the model is initialized exactly if it was filled for the
    first time, and that happens once at most. No call at any depth makes an initialized model
    uninitialized. Initializing an initialized model does nothing at all. A filling that fails
    leaves everything as the hook left it, and so does a first filling that comes second. Any
    other filling, from where the hook left off and before an audience that stands by, leaves
    exactly the defaults that are not `null`, and tells that the data changed and then whether the
    model is valid. -/
theorem lifecycle_of_model (stands : StandsBy β m idle) :
    (∀ {ρ : Type} (code : Client σ ε ρ) (depth : Nat) (r : ρ) (w w' : Ensemble σ ε),
      (w.model m).initialized = false →
      (Ensemble.run β depth).client code w = some (r, w') →
      ∃ log, (traced β m depth).client (code.beside _) (w.noted []) = some (r, w'.noted log) ∧
        ((w'.model m).initialized = true ↔ .filled false ∈ log) ∧
        log.count (.filled false) ≤ 1) ∧
    (∀ depth call r (w w' : Traced σ ε), traced β m depth call w = some (r, w') →
      ((w.model m).initialized = true → (w'.model m).initialized = true) ∧
      (FilledOnce m w → FilledOnce m w')) ∧
    (∀ depth (w : Traced σ ε), (w.model m).initialized = true →
      traced β m (depth + 1) (.action (.initializeModel m)) w = some (.ok (), w)) ∧
    (∀ depth r (w w' : Traced σ ε), (w.model m).initialized = false →
      traced β m (depth + 1) (.action (.initializeModel m)) w = some (r, w') →
      ∃ answer w₁, (traced β m depth).client ((β.populate m).beside _) (mark .asked w) =
          some (answer, w₁) ∧
        match answer with
        | .error e => r = .error e ∧ w' = w₁
        | .ok defaults => r = .ok () ∧
          if (w₁.model m).initialized then w' = w₁
          else Audience m idle w₁ → Filled β m false defaults w₁ w') ∧
    (∀ depth r (w w' : Traced σ ε),
      traced β m (depth + 1) (.action (.resetModel m)) w = some (r, w') →
      ∃ answer w₁, (traced β m depth).client ((β.populate m).beside _) (mark .asked w) =
          some (answer, w₁) ∧
        match answer with
        | .error e => r = .error e ∧ w' = w₁
        | .ok defaults => r = .ok () ∧
          (Audience m idle w₁ → Filled β m true defaults w₁ w')) := by
  have filling : ∀ depth, traced β m (depth + 1) (.action (.initializeModel m)) =
      traceInitialize (traced β m depth) (β.beside _) m := fun _ => if_pos rfl
  have refilling : ∀ depth, traced β m (depth + 1) (.action (.resetModel m)) =
      traceReset (traced β m depth) (β.beside _) m := fun _ => if_pos rfl
  refine ⟨?_, ?_, ?_, ?_, ?_⟩
  · intro ρ code depth r w w' new ran
    obtain ⟨log, noted⟩ := exists_beside (bare_traced β m depth) ran []
    have ages := ages_client (traced_ages β m depth) (code.beside _) _ _ _ noted
    have start : FilledOnce m (w.noted ([] : List Milestone)) :=
      (congrArg Bool.toNat new).symm
    have once := ages.filledOnce start
    refine ⟨log, noted, once.initialized_iff, ?_⟩
    exact (le_of_eq once).trans (Bool.toNat_le _)
  · intro depth call r w w' ran
    have ages := traced_ages β m depth call w r w' ran
    exact ⟨ages.initialized, ages.filledOnce⟩
  · intro depth w done
    rw [filling]
    exact traceInitialize_of_initialized done _ _
  · intro depth r w w' new ran
    rw [filling] at ran
    exact traceInitialize_ends stands new r w' ran
  · intro depth r w w' ran
    rw [refilling] at ran
    exact traceReset_ends stands r w' ran

/-- The hook fails when it is asked for the first time. When it is asked again it writes to the
    model and initializes it, and from then on it gives a width and leaves a depth out. A slot
    counts what it hears. -/
def reluctant : Behaviour Nat (Nat × Nat) :=
  { Behaviour.plain with
    populate := fun _ => do
      let asked ← Program.see (·.client.1)
      Program.perform (Action.change fun c => (c.1 + 1, c.2))
      match asked with
      | 0 => return .error (.initializationFailed "not yet")
      | 1 =>
        let _ ← Program.perform (Action.setProperty 0 "early" (.bool true))
        let _ ← Program.perform (Action.initializeModel 0)
        return .ok [("late", .bool true)]
      | _ => return .ok [("width", .integer 1), ("depth", .null)]
    slot := fun _ _ => .perform (Action.change fun c => (c.1, c.2 + 1)) }

/-- A new model, and the slot. -/
def reluctantStart : Ensemble Nat (Nat × Nat) :=
  updateModel 0 (fun o =>
    { o with
      dataChanged := (Signal.new.connect (.client 0) .direct).2
      validityChanged := (Signal.new.connect (.client 0) .direct).2 }) (.new (0, 0))

/-- The model is initialized three times, and filled again. -/
def insist : Client Nat (Nat × Nat) Bool := do
  let first ← Program.perform (Action.initializeModel 0)
  Program.perform (Action.setSilently 0 "kept" (.bool true))
  let second ← Program.perform (Action.initializeModel 0)
  let third ← Program.perform (Action.initializeModel 0)
  let again ← Program.perform (Action.resetModel 0)
  return !first.isOk && second.isOk && third.isOk && again.isOk

theorem standsBy_reluctant : StandsBy reluctant 0 (· = .client 0) :=
  standsBy_of_aloof fun _ here => ⟨0, here, fun _ => ⟨trivial, fun _ => trivial⟩⟩

/-- The model is asked four times, and filled for the first time by its own hook. -/
theorem lifecycle_of_reluctant_model :
    ∃ w' : Ensemble Nat (Nat × Nat),
      (run reluctant 8).client insist reluctantStart = some (true, w') ∧
      (traced reluctant 0 8).client (insist.beside _) (reluctantStart.noted []) =
        some (true, w'.noted [.asked, .asked, .told (.modelProperty 0) (.property "early" (.bool true)),
          .told (.modelData 0) .dataChanged, .told (.modelValidity 0) (.validity false), .asked,
          .filled false, .told (.modelData 0) .dataChanged,
          .told (.modelValidity 0) (.validity true), .asked, .filled true,
          .told (.modelData 0) .dataChanged, .told (.modelValidity 0) (.validity true)]) ∧
      (w'.model 0).initialized = true ∧ w'.client = (4, 6) := by
  have ends : ((run reluctant 8).client insist reluctantStart).map
      (fun x => (x.1, x.2.client)) = some (true, (4, 6)) := by
    decide +kernel
  obtain ⟨⟨r, w'⟩, ran, same⟩ := Option.map_eq_some_iff.mp ends
  obtain ⟨rfl, counted⟩ := Prod.mk.inj same
  obtain ⟨log, noted, first, -⟩ :=
    (lifecycle_of_model standsBy_reluctant).1 insist 8 true reluctantStart w' rfl ran
  have logged : ((traced reluctant 0 8).client (insist.beside _) (reluctantStart.noted [])).map
      (fun x => x.2.client.notes) =
      some [.asked, .asked, .told (.modelProperty 0) (.property "early" (.bool true)),
        .told (.modelData 0) .dataChanged, .told (.modelValidity 0) (.validity false), .asked,
        .filled false, .told (.modelData 0) .dataChanged,
        .told (.modelValidity 0) (.validity true), .asked, .filled true,
        .told (.modelData 0) .dataChanged, .told (.modelValidity 0) (.validity true)] := by
    decide +kernel
  rw [noted] at logged
  obtain rfl := Option.some.inj logged
  exact ⟨w', ran, noted, first.mpr (by simp), counted⟩

end Mvc.Ensemble
