import Mvc.Proofs.Announcing

/-! # What is told of a model's validity

A model is valid if it is initialized and its properties make sense, so every write may change
that. Hooks and slots may write past the model, and nobody is told. But a write or a filling
through the model tells the validity last of all, and those who are told leave the model as it
is. So the last thing that was told is true again whenever a call from outside has come back.
-/

namespace Mvc

variable {σ ε : Type}

/-- The validity that was told. -/
def Announcement.validity? : Announcement → Option Bool
  | validity told _ => some told
  | _ => none

namespace Chronicle

/-- The validity that was told last. -/
def lastValidity? (c : Chronicle) : Option Bool := (c.told.filterMap (·.validity?)).getLast?

/-- Whenever the validity was told, it was the one at that moment. -/
def Honest (c : Chronicle) : Prop := ∀ told now, .validity told now ∈ c.told → told = now

theorem lastValidity?_append (a b : Chronicle) :
    (a ++ b).lastValidity? = b.lastValidity?.or a.lastValidity? := by
  simp [lastValidity?, List.filterMap_append, List.getLast?_append]

theorem Honest.append {a b : Chronicle} (first : a.Honest) (second : b.Honest) :
    (a ++ b).Honest := by
  intro told now member
  rcases List.mem_append.mp member with old | new
  · exact first told now old
  · exact second told now new

theorem honest_of_told_eq_nil {c : Chronicle} (nothing : c.told = []) : c.Honest := by
  intro told now member
  simp [nothing] at member

theorem honest_tell {e : Announcement} (honest : ∀ told now, e = .validity told now → told = now) :
    (tell e).Honest :=
  fun told now member => honest told now (List.mem_singleton.mp member).symm

end Chronicle

mutual

theorem Episode.honest_log (e : Episode) : e.log.Honest := by
  cases e with
  | idle door accepted => exact Chronicle.honest_of_told_eq_nil rfl
  | done door name old new hook property data valid =>
      have heard : (if door.isHooked then Chronicle.tell (.reacted name old new) ++ logs hook
          else Chronicle.empty).Honest := by
        split
        · exact (Chronicle.honest_tell (by simp)).append (honest_logs hook)
        · exact Chronicle.honest_of_told_eq_nil rfl
      have announced := ((Chronicle.honest_tell (e := .property name new) (by simp)).append
        (honest_logs property)).append
          ((Chronicle.honest_tell (e := .data) (by simp)).append (honest_logs data))
      have judged : (Chronicle.judged door valid).Honest := by
        cases door with
        | model => exact Chronicle.honest_tell (by simp)
        | store hooked => exact Chronicle.honest_of_told_eq_nil rfl
      exact ((heard.append announced).append judged).append
        (Chronicle.honest_of_told_eq_nil rfl)
  | filled data valid =>
      have announced := (Chronicle.honest_tell (e := .data) (by simp)).append (honest_logs data)
      exact (announced.append (Chronicle.honest_tell (by simp))).append
        (Chronicle.honest_of_told_eq_nil rfl)

theorem Episode.honest_logs (episodes : List Episode) : (logs episodes).Honest := by
  cases episodes with
  | nil => exact Chronicle.honest_of_told_eq_nil rfl
  | cons e rest => exact (honest_log e).append (honest_logs rest)

end

/-- A call that sets a property of a model or fills it with its defaults, on any thread. -/
def Action.Sets (m : Nat) : Action σ ε → Prop
  | setProperty n .. | initializeModel n | resetModel n => n = m
  | inBackground a => a.Sets m
  | _ => False

namespace Ensemble

open Proc

variable {m : Nat} {quiet : σ → Bool} {β : Behaviour σ ε}
  {w w₁ w' : Ensemble σ (Noted Chronicle ε)}

/-- What was told of a model is true in the end: the validity that was told last, or else
    nothing was told and the model is as it was. -/
structure Judged (β : Behaviour σ (Noted Chronicle ε)) (m : Nat) (quiet : σ → Bool)
    (c : Chronicle) (w w' : Ensemble σ (Noted Chronicle ε)) : Prop where
  adds : Adds m quiet c w w'
  honest : c.Honest
  last : c.lastValidity? = some (isModelValid β w' m) ∨
    c.told = [] ∧ w'.model m = w.model m

/-- The same, if the model is spared. -/
def Judges (β : Behaviour σ (Noted Chronicle ε)) (m : Nat) (quiet : σ → Bool)
    (w w' : Ensemble σ (Noted Chronicle ε)) : Prop :=
  Spared m quiet w → ∃ c, Judged β m quiet c w w'

theorem Judged.trans {β : Behaviour σ (Noted Chronicle ε)} {a b : Chronicle}
    (first : Judged β m quiet a w w₁) (second : Judged β m quiet b w₁ w') :
    Judged β m quiet (a ++ b) w w' := by
  refine ⟨first.adds.trans second.adds, first.honest.append second.honest, ?_⟩
  rw [Chronicle.lastValidity?_append]
  rcases second.last with told | ⟨nothing, same⟩
  · exact .inl (by simp [told])
  · have untold : b.lastValidity? = none := by simp [Chronicle.lastValidity?, nothing]
    rw [untold, Option.none_or, isModelValid_eq β same]
    rcases first.last with told | ⟨nothing', same'⟩
    · exact .inl told
    · exact .inr ⟨by simp [nothing, nothing'], same.trans same'⟩

theorem judges_of_hushed {β : Behaviour σ (Noted Chronicle ε)} (hushed : Hushed w w') :
    Judges β m quiet w w' := fun spared =>
  ⟨.empty, hushed.adds spared, Chronicle.honest_of_told_eq_nil rfl, .inr ⟨rfl, hushed.model m⟩⟩

theorem judges_composes (β : Behaviour σ (Noted Chronicle ε)) :
    Composes (Judges β m quiet) where
  refl w := judges_of_hushed (hushed_composes.refl w)
  trans := by
    intro a b c first second spared
    obtain ⟨k, judged⟩ := first spared
    obtain ⟨k', judged'⟩ := second judged.adds.spared
    exact ⟨k ++ k', judged.trans judged'⟩

theorem judged_of_setTo {β : Behaviour σ (Noted Chronicle ε)} {name : String} {value : Value}
    {outcome : SetOutcome} {e : Episode} (adds : Adds m quiet e.log w w')
    (came : SetTo β m name value w w' outcome e) : Judged β m quiet e.log w w' := by
  refine ⟨adds, e.honest_log, ?_⟩
  cases came with
  | rejected same => exact .inr ⟨rfl, same⟩
  | unchanged same => exact .inr ⟨rfl, same⟩
  | changed hook property data =>
      simp only [Episode.log, Chronicle.lastValidity?_append]
      exact .inl rfl

theorem judged_of_filledTo {β : Behaviour σ (Noted Chronicle ε)} {episodes : List Episode}
    (adds : Adds m quiet (Episode.logs episodes) w w') (came : FilledTo β m w w' episodes) :
    Judged β m quiet (Episode.logs episodes) w w' := by
  refine ⟨adds, Episode.honest_logs episodes, ?_⟩
  cases came with
  | kept same => exact .inr ⟨rfl, same⟩
  | filled data =>
      simp only [Episode.logs_singleton, Episode.log, Chronicle.lastValidity?_append]
      exact .inl rfl

/-- What was told is true when a call has come back. -/
theorem call_judges (discreet : β.Discreet m quiet true) (depth : Nat) {a : Action σ ε}
    (sets : a.Sets m) : Keeps (Judges (β.beside Chronicle) m quiet)
      (watch β m quiet true depth (.action (a.beside Chronicle))) := by
  induction depth generalizing a with
  | zero =>
      intro w r w' h
      cases h
  | succ depth ih =>
      have watcher := watcher_watch discreet depth
      intro w r w' h
      rw [watch_action] at h
      split at h
      case isFalse => cases h
      case isTrue =>
        cases a with
        | setProperty n name value =>
            obtain rfl : n = m := sets
            intro spared
            change watchBody _ _ n depth (.action (.setProperty n name value)) w = _ at h
            simp only [watchBody, if_true] at h
            obtain ⟨e, adds, -, came⟩ :=
              watcher.property discreet.accepts spared name value r w' h
            exact ⟨e.log, judged_of_setTo adds came⟩
        | initializeModel n =>
            obtain rfl : n = m := sets
            intro spared
            change watchBody _ _ n depth (.action (.initializeModel n)) w = _ at h
            simp only [watchBody, if_true] at h
            obtain ⟨episodes, adds, came⟩ := watcher.fill (discreet.populate rfl) spared r w' h
            exact ⟨_, judged_of_filledTo adds came⟩
        | resetModel n =>
            obtain rfl : n = m := sets
            intro spared
            change watchBody _ _ n depth (.action (.resetModel n)) w = _ at h
            simp only [watchBody, if_true] at h
            obtain ⟨episodes, adds, came⟩ := watcher.refill (discreet.populate rfl) spared r w' h
            exact ⟨_, judged_of_filledTo adds came⟩
        | inBackground a =>
            have inner := (tracks_self _).mpr (ih (a := a) sets)
            exact (inBackground_tracks (judges_composes _)
              (fun _ _ => judges_of_hushed ⟨rfl, fun _ => rfl⟩) inner).keeps w r w' h
        | _ => exact sets.elim

/-- However a model is set and filled from outside, and whatever hooks and slots write in the
    meantime: each time its validity was told, it was the one at that moment; and in the end the
    last one told is the one that the model has, or nothing was told and the model is as it was.
    The same holds for each call, at any depth. -/
theorem validity_never_stale (discreet : β.Discreet m quiet true) {w : Ensemble σ ε}
    (spared : Spared m quiet w) :
    (∀ {ρ : Type} (code : Client σ ε ρ) (depth : Nat) (r : ρ) (w' : Ensemble σ ε),
      code.All (Action.Sets m) →
      (runUnder β depth (sparing m quiet true)).client code w = some (r, w') →
      (run β depth).client code w = some (r, w') ∧
      ∃ c, (watch β m quiet true depth).client (code.beside Chronicle)
          (w.noted Chronicle.empty) = some (r, w'.noted c) ∧
        c.Honest ∧
        (c.lastValidity? = some (isModelValid β w' m) ∨
          c.told = [] ∧ w'.model m = w.model m)) ∧
    (∀ (depth : Nat) (a : Action σ ε) (r : (a.beside Chronicle).Result)
        (v v' : Ensemble σ (Noted Chronicle ε)), a.Sets m → Spared m quiet v →
      watch β m quiet true depth (.action (a.beside Chronicle)) v = some (r, v') →
      ((v'.model m).store ≠ (v.model m).store ∨
        (v'.model m).initialized ≠ (v.model m).initialized) →
      v'.client.notes.lastValidity? = some (isModelValid β v'.bare m)) := by
  constructor
  · intro ρ code depth r w' sets ran
    refine ⟨((covers_runUnder β depth _).client code w r w' ran).1, ?_⟩
    obtain ⟨c, watched⟩ := exists_watched ran Chronicle.empty
    have kept : Keeps (Judges (β.beside Chronicle) m quiet)
        ((watch β m quiet true depth).client (code.beside Chronicle)) := by
      refine .program (judges_composes _) ?_ (Program.all_beside sets)
      rintro _ ⟨a, sets, rfl⟩
      exact call_judges discreet depth sets
    obtain ⟨k, judged⟩ := kept _ _ _ watched (spared.of_signals (signal_noted w Chronicle.empty))
    have made : c = k := by simpa [noted] using judged.adds.notes
    subst made
    exact ⟨c, watched, judged.honest, judged.last⟩
  · intro depth a r v v' sets spared ran changed
    obtain ⟨c, judged⟩ := call_judges discreet depth sets _ _ _ ran spared
    rw [judged.adds.notes, Chronicle.lastValidity?_append]
    rcases judged.last with told | ⟨-, same⟩
    · rw [told]
      rfl
    · simp [same] at changed

/-- A model that is valid as long as nothing is marked as broken. A slot marks every width but
    the default one as broken, past the model, and another slot counts. -/
def fragile : Behaviour Nat Nat :=
  { Behaviour.plain with
    populate := fun _ => pure (.ok [("width", .integer 1)])
    validates := fun _ s => !s.has "broken"
    slot := fun code notice =>
      match code, notice with
      | 0, .property "width" value => do
        let _ ← Program.perform (Action.write 0 false "broken" value)
      | 1, .validity _ => .perform (Action.change Nat.succ)
      | _, _ => pure () }

/-- A new model, and two slots. -/
def fragileStart : Ensemble Nat Nat :=
  updateModel 0 (fun o =>
    { o with
      propertyChanged := (Signal.new.connect (.client 0) .direct).2
      validityChanged := (Signal.new.connect (.client 1) .direct).2 }) (.new 0)

/-- A model is filled, set, and filled again. -/
def breakAndReset : Client Nat Nat (Except ModelError Unit) := do
  let _ ← Program.perform (Action.initializeModel 0)
  let _ ← Program.perform (Action.setProperty 0 "width" (.integer 2))
  .perform (Action.resetModel 0)

theorem discreet_fragile : fragile.Discreet 0 (· = 1) true where
  accepts _ _ := trivial
  populate _ := trivial
  slot code quiet valid := by
    obtain rfl : code = 1 := of_decide_eq_true quiet
    exact ⟨trivial, fun _ => trivial⟩

theorem spared_fragileStart : Spared 0 (· = 1) fragileStart := by
  refine ⟨fun s own => ?_, ?_⟩
  · cases s with
    | modelProperty n | modelData n | modelValidity n =>
        obtain rfl : n = 0 := of_decide_eq_true own
        rfl
    | _ => cases own
  · have none : (Signal.new : Signal (Slot Nat)).Carries (·.isQuiet (· = 1) = true) := by
      intro cell member
      cases member
    exact none.connect (k := .client 1) rfl .direct

/-- The slot breaks the model while its change is told, and those who hear of the validity are
    told so. -/
theorem validity_of_broken_model :
    ∃ (w' : Ensemble Nat Nat) (c : Chronicle),
      (run fragile 12).client breakAndReset fragileStart = some (.ok (), w') ∧
      (watch fragile 0 (· = 1) true 12).client (breakAndReset.beside Chronicle)
          (fragileStart.noted Chronicle.empty) = some (.ok (), w'.noted c) ∧
      c.told = [.data, .validity true true, .reacted "width" (.integer 1) (.integer 2),
        .property "width" (.integer 2), .property "broken" (.integer 2), .data, .data,
        .validity false false, .data, .validity true true] ∧
      c.Honest ∧ isModelValid fragile w' 0 = true := by
  have sets : breakAndReset.All (Action.Sets 0) :=
    ⟨rfl, fun _ => ⟨rfl, fun _ => ⟨rfl, fun _ => trivial⟩⟩⟩
  have ends : ((runUnder fragile 12 (sparing 0 (· = 1) true)).client breakAndReset
      fragileStart).map (fun x => x.1.isOk) = some true := by
    decide +kernel
  obtain ⟨⟨r, w'⟩, ran, fine⟩ := Option.map_eq_some_iff.mp ends
  obtain ⟨plain, c, watched, honest, last⟩ :=
    (validity_never_stale discreet_fragile spared_fragileStart).1 breakAndReset 12 r w' sets ran
  have noted : ((watch fragile 0 (· = 1) true 12).client (breakAndReset.beside Chronicle)
      (fragileStart.noted Chronicle.empty)).map (fun x => x.2.client.notes) =
        some ⟨[.data, .validity true true, .reacted "width" (.integer 1) (.integer 2),
          .property "width" (.integer 2), .property "broken" (.integer 2), .data, .data,
          .validity false false, .data, .validity true true],
          [(.store false, .changed), (.model, .changed)], 2⟩ := by
    decide +kernel
  rw [watched] at noted
  obtain rfl := Option.some.inj noted
  have ok : r = .ok () := by
    cases r with
    | ok u => rfl
    | error e => cases fine
  subst ok
  refine ⟨w', _, plain, watched, rfl, honest, ?_⟩
  rcases last with told | ⟨nothing, -⟩
  · exact (Option.some.inj told).symm
  · cases nothing

end Ensemble

end Mvc
