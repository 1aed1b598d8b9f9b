import Mvc.Proofs.Episodes
import Mvc.Proofs.Obedience

/-! # What a write announces

A write that changes a model is told to the hook, then to those who hear of the property, then
to those who hear of the data, and in the end, if it came through the model, to those who hear of
the model's validity. Each of them may write again before the next one is told, so one write is a
tree of writes, and its announcements are those of the tree. A write that is refused, or that
changes nothing, is told to nobody.
-/

namespace Mvc

variable {σ ε : Type}

/-- There are no fillings among episodes if there may be none. -/
def Episode.Allowed (fills : Bool) (episodes : List Episode) : Prop :=
  fills = false → (logs episodes).fillings = 0

theorem Episode.Allowed.append {fills : Bool} {a b : List Episode} (first : Allowed fills a)
    (second : Allowed fills b) : Allowed fills (a ++ b) := by
  intro never
  rw [logs_append, Chronicle.fillings_append, first never, second never]

theorem Episode.allowed_done {fills : Bool} {door : Door} {name : String} {old new : Value}
    {hook property data : List Episode} {valid : Bool}
    (allowed : Allowed fills (hook ++ (property ++ data))) :
    Allowed fills [.done door name old new hook property data valid] := by
  intro never
  have none := allowed never
  simp only [logs_append, Chronicle.fillings_append] at none
  simp only [logs_singleton, log, Chronicle.fillings_append, Chronicle.written]
  have judged : (Chronicle.judged door valid).fillings = 0 := by cases door <;> rfl
  have inner : (if door.isHooked then Chronicle.tell (.reacted name old new) ++ logs hook
      else Chronicle.empty).fillings ≤ (logs hook).fillings := by
    split <;> simp [Chronicle.tell, Chronicle.empty]
  have wrote : (Chronicle.wrote door .changed).fillings = 0 := rfl
  have told (e : Announcement) : (Chronicle.tell e).fillings = 0 := rfl
  simp only [judged, wrote, told]
  omega

/-! ## Counting -/

namespace Chronicle

/-- How many writes changed the store. -/
def changes (c : Chronicle) : Nat := c.writes.countP fun e => e.2 = .changed

/-- How many of them the model's hook heard of. -/
def hookedChanges (c : Chronicle) : Nat :=
  c.writes.countP fun e => e.1.isHooked && e.2 = .changed

/-- How many of them came through the model. -/
def modelChanges (c : Chronicle) : Nat :=
  c.writes.countP fun e => e.1 = .model && e.2 = .changed

/-- Each change was told as often as it should be, and each filling. -/
structure Balanced (c : Chronicle) : Prop where
  hook : c.told.countP (· matches .reacted ..) = c.hookedChanges
  property : c.told.countP (· matches .property ..) = c.changes
  data : c.told.countP (· matches .data) = c.changes + c.fillings
  validity : c.told.countP (· matches .validity ..) = c.modelChanges + c.fillings

theorem balanced_empty : empty.Balanced := ⟨rfl, rfl, rfl, rfl⟩

theorem Balanced.append {a b : Chronicle} (first : a.Balanced) (second : b.Balanced) :
    (a ++ b).Balanced := by
  obtain ⟨hook, property, data, validity⟩ := first
  obtain ⟨hook', property', data', validity'⟩ := second
  simp only [changes, hookedChanges, modelChanges] at *
  constructor <;>
    simp only [told_append, writes_append, fillings_append, List.countP_append, changes,
      hookedChanges, modelChanges] <;> omega

theorem balanced_idle (door : Door) (accepted : Bool) :
    (wrote door (if accepted then .unchanged else .rejected)).Balanced := by
  cases accepted <;> constructor <;> simp [wrote, changes, hookedChanges, modelChanges]

/-- A write that changed the store is told as often as it should be if what happened inside is. -/
theorem balanced_written {door : Door} {name : String} {old new : Value} {valid : Bool}
    {hook property data : Chronicle} (inside : hook.Balanced) (inside' : property.Balanced)
    (inside'' : data.Balanced) : (written door.isHooked name old new hook property data ++
      judged door valid ++ wrote door .changed).Balanced := by
  obtain ⟨h₁, p₁, d₁, v₁⟩ := inside
  obtain ⟨h₂, p₂, d₂, v₂⟩ := inside'
  obtain ⟨h₃, p₃, d₃, v₃⟩ := inside''
  simp only [changes, hookedChanges, modelChanges] at *
  rcases door with _ | _ | _ <;> constructor <;>
    simp [written, judged, wrote, tell, empty, changes, hookedChanges, modelChanges,
      List.countP_append] <;> omega

theorem balanced_filled {data : Chronicle} {valid : Bool} (inside : data.Balanced) :
    (tell .data ++ data ++ tell (.validity valid valid) ++ filled).Balanced := by
  obtain ⟨h, p, d, v⟩ := inside
  simp only [changes, hookedChanges, modelChanges] at *
  constructor <;>
    simp [filled, tell, changes, hookedChanges, modelChanges, List.countP_append] <;> omega

end Chronicle

mutual

theorem Episode.balanced_log (e : Episode) : e.log.Balanced := by
  cases e with
  | idle door accepted => exact Chronicle.balanced_idle door accepted
  | done door name old new hook property data valid =>
      exact Chronicle.balanced_written (balanced_logs hook) (balanced_logs property)
        (balanced_logs data)
  | filled data valid => exact Chronicle.balanced_filled (balanced_logs data)

theorem Episode.balanced_logs (episodes : List Episode) : (logs episodes).Balanced := by
  cases episodes with
  | nil => exact Chronicle.balanced_empty
  | cons e rest => exact (balanced_log e).append (balanced_logs rest)

end

namespace Ensemble

open Proc

variable {m : Nat} {quiet : σ → Bool} {fills : Bool} {β : Behaviour σ ε}
  {w w₁ w' : Ensemble σ (Noted Chronicle ε)}

/-! ## Quiet code -/

/-- Nothing is written down, and models stay as they are. -/
structure Hushed (w w' : Ensemble σ (Noted Chronicle ε)) : Prop where
  notes : w'.client.notes = w.client.notes
  model : ∀ n, w'.model n = w.model n

theorem hushed_composes : Composes (Hushed (σ := σ) (ε := ε)) where
  refl _ := ⟨rfl, fun _ => rfl⟩
  trans first second :=
    ⟨second.notes.trans first.notes, fun n => (second.model n).trans (first.model n)⟩

/-- A model decides whether it is spared. -/
theorem Spared.of_model (spared : Spared m quiet w) (same : w'.model m = w.model m) :
    Spared m quiet w' := by
  refine ⟨fun s own => ?_, ?_⟩
  · have opened := spared.unblocked s own
    cases s with
    | modelProperty n | modelData n | modelValidity n =>
        obtain rfl : n = m := of_decide_eq_true own
        simpa [signal, same] using opened
    | _ => cases own
  · have carried := spared.quiet
    simp only [signal, same] at carried ⊢
    exact carried

theorem Hushed.adds (hushed : Hushed w w') (spared : Spared m quiet w) :
    Adds m quiet .empty w w' :=
  ⟨spared.of_model (hushed.model m), hushed.notes.trans (Chronicle.append_empty _).symm⟩

theorem adds_jot (spared : Spared m quiet w) (c : Chronicle) : Adds m quiet c w (jot c w) :=
  ⟨spared.of_model rfl, rfl⟩

theorem isModelValid_eq (β : Behaviour σ (Noted Chronicle ε)) (same : w'.model m = w.model m) :
    isModelValid β w' m = isModelValid β w m := by
  rw [isModelValid, isModelValid, same]

/-- Only what spares the model has to be looked at. -/
theorem ends_spared {α : Type} {p : Proc (Ensemble σ (Noted Chronicle ε)) α}
    (ends : Spared m quiet w → Ends p w fun _ w' => ∃ episodes,
      Adds m quiet (Episode.logs episodes) w w' ∧ Episode.Allowed fills episodes) :
    Ends p w fun _ w' => Grows m quiet fills w w' :=
  fun r w' h spared => ends spared r w' h

/-! ## Watched operations -/

/-- What is known of a runner by which a model is watched. -/
structure Watcher (m : Nat) (quiet : σ → Bool) (fills : Bool)
    (run : Runner σ (Noted Chronicle ε)) : Prop where
  calls : ∀ call, Tracks (Grows m quiet fills) (run call) (run call)
  quietly : ∀ a : Action σ ε, a.IsAloof → Keeps Hushed (run (.action (a.beside Chronicle)))
  hush : ∀ slot : Slot σ, slot.isQuiet quiet = true → ∀ valid,
    Keeps Hushed (run (.slot slot (.validity valid)))

/-- What a write through the model comes to: its outcome, and its episode. -/
inductive SetTo (β : Behaviour σ (Noted Chronicle ε)) (m : Nat) (name : String) (value : Value)
    (w w' : Ensemble σ (Noted Chronicle ε)) : SetOutcome → Episode → Prop where
  | rejected (same : w'.model m = w.model m) : SetTo β m name value w w' .rejected
      (.idle .model false)
  | unchanged (same : w'.model m = w.model m) : SetTo β m name value w w' .unchanged
      (.idle .model true)
  | changed (hook property data : List Episode) : SetTo β m name value w w' .changed
      (.done .model name ((w.model m).store.get name) value hook property data
        (isModelValid β w' m))

/-- What filling a model comes to: nothing happened, or it is filled. -/
inductive FilledTo (β : Behaviour σ (Noted Chronicle ε)) (m : Nat)
    (w w' : Ensemble σ (Noted Chronicle ε)) : List Episode → Prop where
  | kept (same : w'.model m = w.model m) : FilledTo β m w w' []
  | filled (data : List Episode) : FilledTo β m w w' [.filled data (isModelValid β w' m)]

namespace Watcher

variable {run : Runner σ (Noted Chronicle ε)} (watcher : Watcher m quiet fills run)
include watcher

theorem client {ρ : Type} {code : Client σ ε ρ} (all : code.All Action.IsAloof) :
    Keeps Hushed (run.client (code.beside Chronicle)) := by
  refine .program hushed_composes ?_ (Program.all_beside all)
  rintro _ ⟨a, quiet, rfl⟩
  exact watcher.quietly a quiet

omit watcher in
/-- While the model's signals are spared, there are some episodes. -/
theorem grows {α : Type} {p : Proc (Ensemble σ (Noted Chronicle ε)) α}
    (grown : Tracks (Grows m quiet fills) p p) (spared : Spared m quiet w) :
    Ends p w fun _ w' => ∃ episodes, Adds m quiet (Episode.logs episodes) w w' ∧
      Episode.Allowed fills episodes :=
  fun r w' h => (grown w r w' h).2 spared

/-- Those who are told of the validity leave it as it is. -/
theorem validity (spared : Spared m quiet w) :
    Ends (watchValidity run (β.beside Chronicle) m) w fun _ w' =>
      Adds m quiet (.tell (.validity (isModelValid (β.beside Chronicle) w' m)
        (isModelValid (β.beside Chronicle) w' m))) w w' ∧ ∀ n, w'.model n = w.model n := by
  refine .get_bind ?_
  refine .modify_bind ?_
  have noted := adds_jot spared (.tell (.validity (isModelValid (β.beside Chronicle) w m)
    (isModelValid (β.beside Chronicle) w m)))
  refine .get_bind ?_
  simp only [noted.spared.unblocked (.modelValidity m) (by simp [SignalRef.isOf]),
    Bool.false_eq_true, if_false]
  have told := visit_tracks hushed_composes (.modelValidity m)
    (.validity (isModelValid (β.beside Chronicle) w m)) _
    (fun c member => (tracks_self _).mpr
      (watcher.hush c.2.slot (noted.spared.quiet.connections c member) _))
    fun _ _ _ => ⟨rfl, fun _ => rfl⟩
  refine (told.keeps _).mono fun _ w' hushed => ?_
  have same : ∀ n, w'.model n = w.model n := hushed.model
  refine ⟨?_, same⟩
  rw [isModelValid_eq _ (same m), ← Chronicle.append_empty (.tell _)]
  exact noted.trans (hushed.adds noted.spared)

/-- What is told of a change once the hook has reacted. -/
theorem announce (spared : Spared m quiet w) (name : String) (value : Value) :
    Ends (do
        modify (jot (.tell (.property name value)))
        emit run (.modelProperty m) (.property name value)
        modify (jot (.tell .data))
        emit run (.modelData m) .dataChanged
        return SetOutcome.changed) w fun outcome w' =>
      outcome = .changed ∧ ∃ property data, Episode.Allowed fills (property ++ data) ∧
        Adds m quiet (.tell (.property name value) ++ Episode.logs property ++
          (.tell .data ++ Episode.logs data)) w w' := by
  have first := adds_jot spared (.tell (.property name value))
  refine .modify_bind ?_
  refine .bind ((grows (grown_emit watcher.calls _ _) first.spared).mono fun _ w₁ told => ?_)
  obtain ⟨property, second, allowed⟩ := told
  have third := adds_jot second.spared (.tell .data)
  refine .modify_bind ?_
  refine .bind ((grows (grown_emit watcher.calls _ _) third.spared).mono fun _ w₂ told => ?_)
  obtain ⟨data, fourth, allowed'⟩ := told
  refine (ends_pure _ _ _).mpr ⟨rfl, property, data, allowed.append allowed', ?_⟩
  exact (first.trans second).trans (third.trans fourth)

theorem write (discreet : ∀ name value, (β.accepts m name value).All Action.IsAloof)
    (spared : Spared m quiet w) (door : Door) (name : String) (value : Value) :
    Ends (watchWrite run (β.beside Chronicle) m door name value) w fun outcome w' =>
      (outcome ≠ .changed ∧ Adds m quiet .empty w w' ∧ w'.model m = w.model m) ∨
      (outcome = .changed ∧ ∃ hook property data,
        Episode.Allowed fills (hook ++ (property ++ data)) ∧
        Adds m quiet (.written door.isHooked name ((w.model m).store.get name) value
          (Episode.logs hook) (Episode.logs property) (Episode.logs data)) w w') := by
  unfold watchWrite
  cases door.isHooked with
  | false =>
      refine .bind ((ends_pure _ _ _).mpr ?_)
      refine .get_bind ?_
      dsimp only
      split
      · exact (ends_pure _ _ _).mpr
          (.inl ⟨by simp, (hushed_composes.refl w).adds spared, rfl⟩)
      · refine .modify_bind ?_
        have stored := (gentle_store w m (·.write name value)).adds spared
        refine (watcher.announce stored.spared name value).mono ?_
        rintro _ w' ⟨rfl, property, data, allowed, told⟩
        refine .inr ⟨rfl, [], property, data, allowed, ?_⟩
        simpa [Chronicle.written] using stored.trans told
  | true =>
      refine .bind ((watcher.client (discreet name value) w).mono fun accepted w₁ hushed => ?_)
      have asked := hushed.adds spared
      have same := hushed.model m
      cases accepted with
      | false => exact (ends_pure _ _ _).mpr (.inl ⟨by simp, asked, same⟩)
      | true =>
          refine .get_bind ?_
          dsimp only
          split
          · exact (ends_pure _ _ _).mpr (.inl ⟨by simp, asked, same⟩)
          · refine .modify_bind ?_
            have stored := (gentle_store w₁ m (·.write name value)).adds asked.spared
            refine .modify_bind ?_
            have reacted := adds_jot stored.spared
              (.tell (.reacted name ((w₁.model m).store.get name) value))
            refine .bind
              ((grows (grown_client watcher.calls _) reacted.spared).mono fun _ w₂ h => ?_)
            obtain ⟨hook, inner, allowed⟩ := h
            refine (watcher.announce inner.spared name value).mono ?_
            rintro _ w' ⟨rfl, property, data, allowed', told⟩
            refine .inr ⟨rfl, hook, property, data, allowed.append allowed', ?_⟩
            have all := (asked.trans stored).trans ((reacted.trans inner).trans told)
            rw [same] at all
            simpa [Chronicle.written] using all

theorem store (discreet : ∀ name value, (β.accepts m name value).All Action.IsAloof)
    (spared : Spared m quiet w) (hooked : Bool) (name : String) (value : Value) :
    Ends (watchStore run (β.beside Chronicle) m hooked name value) w fun _ w' =>
      ∃ e, Adds m quiet (Episode.log e) w w' ∧ Episode.Allowed fills [e] := by
  refine .bind
    ((watcher.write discreet spared (.store hooked) name value).mono fun outcome w₁ wrote => ?_)
  refine .modify_bind ((ends_pure _ _ _).mpr ?_)
  rcases wrote with ⟨other, idle, -⟩ | ⟨rfl, hook, property, data, allowed, adds⟩
  · have ended := idle.trans (adds_jot idle.spared (.wrote (.store hooked) outcome))
    refine ⟨.idle (.store hooked) outcome.isAccepted, ?_, fun _ => rfl⟩
    cases outcome with
    | changed => exact absurd rfl other
    | unchanged | rejected => exact ended
  · have ended := adds.trans (adds_jot adds.spared (.wrote (.store hooked) .changed))
    refine ⟨.done (.store hooked) name ((w.model m).store.get name) value hook property data true,
      ?_, Episode.allowed_done allowed⟩
    simpa [Episode.log, Chronicle.judged] using ended

theorem property (discreet : ∀ name value, (β.accepts m name value).All Action.IsAloof)
    (spared : Spared m quiet w) (name : String) (value : Value) :
    Ends (watchProperty run (β.beside Chronicle) m name value) w fun outcome w' =>
      ∃ e, Adds m quiet (Episode.log e) w w' ∧ Episode.Allowed fills [e] ∧
        SetTo (β.beside Chronicle) m name value w w' outcome e := by
  refine .bind ((watcher.write discreet spared .model name value).mono fun outcome w₁ wrote => ?_)
  rcases wrote with ⟨other, idle, same⟩ | ⟨rfl, hook, property, data, allowed, adds⟩
  · have ended := idle.trans (adds_jot idle.spared (.wrote .model outcome))
    cases outcome with
    | changed => exact absurd rfl other
    | unchanged =>
        refine .modify_bind ((ends_pure _ _ _).mpr ?_)
        exact ⟨.idle .model true, ended, fun _ => rfl, .unchanged same⟩
    | rejected =>
        refine .modify_bind ((ends_pure _ _ _).mpr ?_)
        exact ⟨.idle .model false, ended, fun _ => rfl, .rejected same⟩
  · refine .bind ((watcher.validity adds.spared).mono fun _ w₂ told => ?_)
    obtain ⟨judged, -⟩ := told
    have ended := (adds.trans judged).trans (adds_jot judged.spared (.wrote .model .changed))
    refine .modify_bind ((ends_pure _ _ _).mpr ?_)
    refine ⟨_, ?_, Episode.allowed_done allowed, .changed hook property data⟩
    exact ended

/-- What is told once a model has been filled. -/
theorem reloaded (spared : Spared m quiet w) :
    Ends (watchReloaded run (β.beside Chronicle) m) w fun _ w' => ∃ data,
      Adds m quiet (Episode.log (.filled data (isModelValid (β.beside Chronicle) w' m))) w w' := by
  have first := adds_jot spared (.tell .data)
  refine .modify_bind ?_
  refine .bind ((grows (grown_emit watcher.calls _ _) first.spared).mono fun _ w₁ told => ?_)
  obtain ⟨data, second, -⟩ := told
  refine .bind ((watcher.validity second.spared).mono fun _ w₂ told => ?_)
  obtain ⟨judged, -⟩ := told
  refine (ends_modify _ _ _).mpr ⟨data, ?_⟩
  exact ((first.trans second).trans judged).trans (adds_jot judged.spared .filled)

/-- A model is filled, after what had nothing to tell. -/
theorem filled (idle : Adds m quiet (Episode.logs []) w w₁)
    {f : Ensemble σ (Noted Chronicle ε) → Ensemble σ (Noted Chronicle ε)}
    (gentle : Gentle m quiet w₁ (f w₁)) :
    Ends (do
        modify f
        watchReloaded run (β.beside Chronicle) m
        return (.ok () : Except ModelError Unit)) w₁ fun _ w' => ∃ episodes,
      Adds m quiet (Episode.logs episodes) w w' ∧
        FilledTo (β.beside Chronicle) m w w' episodes := by
  have stored := idle.trans (gentle.adds idle.spared)
  refine .modify_bind ?_
  refine .bind ((watcher.reloaded stored.spared).mono fun _ w' told => ?_)
  obtain ⟨data, adds⟩ := told
  refine (ends_pure _ _ _).mpr ⟨_, ?_, .filled data⟩
  simpa [Episode.logs] using stored.trans adds

theorem fill (populate : (β.populate m).All Action.IsAloof) (spared : Spared m quiet w) :
    Ends (watchInitialize run (β.beside Chronicle) m) w fun _ w' => ∃ episodes,
      Adds m quiet (Episode.logs episodes) w w' ∧
        FilledTo (β.beside Chronicle) m w w' episodes := by
  refine .get_bind ?_
  split
  · exact (ends_pure _ _ _).mpr ⟨[], (hushed_composes.refl w).adds spared, .kept rfl⟩
  · refine .bind ((watcher.client populate w).mono fun populated w₁ hushed => ?_)
    have asked : Adds m quiet (Episode.logs []) w w₁ := hushed.adds spared
    have same := hushed.model m
    cases populated with
    | error e => exact (ends_pure _ _ _).mpr ⟨[], asked, .kept same⟩
    | ok defaults =>
        refine .get_bind ?_
        split
        · exact (ends_pure _ _ _).mpr ⟨[], asked, .kept same⟩
        · exact watcher.filled asked (gentle_updateModel w₁ m (by exact fun _ => ⟨rfl, rfl, rfl⟩))

theorem refill (populate : (β.populate m).All Action.IsAloof) (spared : Spared m quiet w) :
    Ends (watchReset run (β.beside Chronicle) m) w fun _ w' => ∃ episodes,
      Adds m quiet (Episode.logs episodes) w w' ∧
        FilledTo (β.beside Chronicle) m w w' episodes := by
  refine .bind ((watcher.client populate w).mono fun populated w₁ hushed => ?_)
  have asked : Adds m quiet (Episode.logs []) w w₁ := hushed.adds spared
  cases populated with
  | error e => exact (ends_pure _ _ _).mpr ⟨[], asked, .kept (hushed.model m)⟩
  | ok defaults => exact watcher.filled asked (gentle_store w₁ m _)

/-! ## Runs -/

variable (discreet : β.Discreet m quiet fills)
include discreet

/-- Everything that is done under watch is episodes. -/
theorem body (fuel : Nat) (call : Call σ (Noted Chronicle ε))
    (admitted : (sparing m quiet fills).admits w call = true) :
    Ends (watchBody run (β.beside Chronicle) m fuel call) w fun _ w' =>
      Grows m quiet fills w w' := by
  have k := grown_keeper watcher.calls (β.beside Chronicle)
  have unwatched (a : Action σ (Noted Chronicle ε)) (spares : a.spares m quiet fills = true)
      (own : ∀ f, a ≠ .change f) :=
    (grown_performAction watcher.calls (β.beside Chronicle) fuel spares own).keeps w
  cases call with
  | slot slot notice =>
      refine (k.serve slot notice fun c _ _ => k.handleClosing c fun w => ?_).keeps w
      exact (gentle_updateController w c _).grows
  | task t => exact (runTask_tracks grows_composes _ watcher.calls t).keeps w
  | subscription code => exact (k.client _).keeps w
  | action a =>
      have spares : a.spares m quiet fills = true := admitted
      cases a with
      | write n hooked name value =>
          show Ends (if n = m then watchStore run (β.beside Chronicle) m hooked name value
            else Ensemble.write run (β.beside Chronicle) n hooked name value) w _
          split
          · refine ends_spared fun spared =>
              (watcher.store discreet.accepts spared hooked name value).mono ?_
            rintro _ _ ⟨e, adds, allowed⟩
            exact ⟨[e], by simpa using adds, allowed⟩
          · exact (k.write n hooked name value).keeps w
      | setProperty n name value =>
          show Ends (if n = m then watchProperty run (β.beside Chronicle) m name value
            else Ensemble.setProperty run (β.beside Chronicle) n name value) w _
          split
          · refine ends_spared fun spared =>
              (watcher.property discreet.accepts spared name value).mono ?_
            rintro _ _ ⟨e, adds, allowed, -⟩
            exact ⟨[e], by simpa using adds, allowed⟩
          · exact (k.setProperty n name value).keeps w
      | initializeModel n =>
          show Ends (if n = m then watchInitialize run (β.beside Chronicle) m
            else Ensemble.initializeModel run (β.beside Chronicle) n) w _
          split
          · next here =>
              have may : fills = true := by simpa [Action.spares, here] using spares
              refine ends_spared fun spared =>
                (watcher.fill (discreet.populate may) spared).mono ?_
              rintro _ _ ⟨episodes, adds, -⟩
              exact ⟨episodes, adds, fun never => by simp [may] at never⟩
          · exact (k.initializeModel n).keeps w
      | resetModel n =>
          show Ends (if n = m then watchReset run (β.beside Chronicle) m
            else Ensemble.resetModel run (β.beside Chronicle) n) w _
          split
          · next here =>
              have may : fills = true := by simpa [Action.spares, here] using spares
              refine ends_spared fun spared =>
                (watcher.refill (discreet.populate may) spared).mono ?_
              rintro _ _ ⟨episodes, adds, -⟩
              exact ⟨episodes, adds, fun never => by simp [may] at never⟩
          · exact (k.resetModel n).keeps w
      | change f =>
          have gentle : Gentle m quiet w
              { w with client := { f w.client with notes := w.client.notes } } :=
            gentle_of_signals (signal_setClient w _) rfl
          exact (ends_modify _ _ _).mpr gentle.grows
      | _ => exact unwatched _ spares (by simp)

end Watcher

theorem watcher_watch (discreet : β.Discreet m quiet fills) (depth : Nat) :
    Watcher (ε := ε) m quiet fills (watch β m quiet fills depth) := by
  induction depth with
  | zero =>
      have never : ∀ (call : Call σ (Noted Chronicle ε)) (R : Ensemble σ (Noted Chronicle ε) → _ → Prop),
          Keeps R (watch β m quiet fills 0 call) := by
        intro call R w r w' h
        cases h
      exact ⟨fun _ => .tooDeep _, fun _ _ => never _ _, fun _ _ _ => never _ _⟩
  | succ depth ih =>
      refine ⟨fun call => (tracks_self _).mpr fun w r w' h => ?_, fun a quietly w r w' h => ?_,
        fun slot quietly valid => ?_⟩
      · simp only [watch] at h
        split at h
        · next admitted => exact ih.body discreet depth call admitted r w' h
        · cases h
      · rw [watch_action] at h
        split at h
        case isFalse => cases h
        case isTrue =>
          cases a with
          | change f | enable v enabled | post d code =>
              cases h
              exact ⟨rfl, fun _ => rfl⟩
          | inBackground a =>
              have inner := (tracks_self _).mpr (ih.quietly a quietly)
              exact (inBackground_tracks hushed_composes
                (fun _ _ => ⟨rfl, fun _ => rfl⟩) inner).keeps w r w' h
          | _ => exact quietly.elim
      · cases slot with
        | client code =>
            exact ih.client (discreet.slot code quietly valid)
        | _ => exact (Tracks.pure hushed_composes ()).keeps

/-! ## Runs from outside -/

/-- Every run that spares the model can be watched from any notes on. -/
theorem exists_watched {ρ : Type} {code : Client σ ε ρ} {depth : Nat} {w w' : Ensemble σ ε} {r : ρ}
    (ran : (runUnder β depth (sparing m quiet fills)).client code w = some (r, w'))
    (notes : Chronicle) : ∃ notes', (watch β m quiet fills depth).client (code.beside Chronicle)
      (w.noted notes) = some (r, w'.noted notes') :=
  exists_beside (bare_watch β m quiet fills depth) ran notes

/-- Every run that spares a model can be watched, and what is told is told by episodes, as often
    as the store changed. A write through the model at any time and at any depth tells nothing if
    it is refused or changes nothing. Otherwise it tells the hook, and the episodes that the hook
    causes follow; then the property, with the episodes of the slots that hear of it; then the
    data, with the episodes of those slots; and in the end the validity. -/
theorem announced_by_episodes (discreet : β.Discreet m quiet false) {w : Ensemble σ ε}
    (spared : Spared m quiet w) :
    (∀ {ρ : Type} (code : Client σ ε ρ) (depth : Nat) (r : ρ) (w' : Ensemble σ ε),
      (runUnder β depth (sparing m quiet false)).client code w = some (r, w') →
      (run β depth).client code w = some (r, w') ∧
      ∃ c, (watch β m quiet false depth).client (code.beside Chronicle) (w.noted Chronicle.empty) =
          some (r, w'.noted c) ∧
        (∃ episodes, c = Episode.logs episodes) ∧
        c.told.countP (· matches .property ..) = c.changes ∧
        c.told.countP (· matches .data) = c.changes ∧
        c.told.countP (· matches .validity ..) = c.modelChanges ∧
        c.told.countP (· matches .reacted ..) = c.hookedChanges) ∧
    (∀ (depth : Nat) (name : String) (value : Value) (outcome : SetOutcome)
        (v v' : Ensemble σ (Noted Chronicle ε)), Spared m quiet v →
      watch β m quiet false depth (.action (.setProperty m name value)) v = some (outcome, v') →
      ∃ told, v'.client.notes.told = v.client.notes.told ++ told ∧
        ((outcome ≠ .changed ∧ told = []) ∨
          (outcome = .changed ∧ ∃ hook property data valid,
            told = .reacted name ((v.model m).store.get name) value :: (Episode.logs hook).told ++
              .property name value :: (Episode.logs property).told ++
              .data :: (Episode.logs data).told ++ [.validity valid valid]))) := by
  constructor
  · intro ρ code depth r w' ran
    refine ⟨((covers_runUnder β depth _).client code w r w' ran).1, ?_⟩
    obtain ⟨c, watched⟩ := exists_watched ran Chronicle.empty
    have grown := (grown_client (watcher_watch discreet depth).calls (code.beside Chronicle)
      _ _ _ watched).2
    obtain ⟨episodes, adds, none⟩ := grown (spared.of_signals (signal_noted w Chronicle.empty))
    have made : c = Episode.logs episodes := by
      simpa [noted] using adds.notes
    have balanced : c.Balanced := made ▸ Episode.balanced_logs episodes
    have none : c.fillings = 0 := made ▸ none rfl
    refine ⟨c, watched, ⟨episodes, made⟩, balanced.property, ?_, ?_, balanced.hook⟩
    · rw [balanced.data, none, Nat.add_zero]
    · rw [balanced.validity, none, Nat.add_zero]
  · intro depth name value outcome v v' spared ran
    cases depth with
    | zero => cases ran
    | succ depth =>
        have watcher := watcher_watch discreet depth
        have spares : (Action.setProperty m name value : Action σ (Noted Chronicle ε)).spares
          m quiet false = true := rfl
        rw [watch_action, if_pos spares] at ran
        simp only [watchBody, if_true] at ran
        obtain ⟨e, adds, -, came⟩ :=
          watcher.property discreet.accepts spared name value _ _ ran
        refine ⟨e.log.told, congrArg Chronicle.told adds.notes, ?_⟩
        cases came with
        | rejected => exact .inl ⟨by simp, rfl⟩
        | unchanged => exact .inl ⟨by simp, rfl⟩
        | changed hook property data =>
            refine .inr ⟨rfl, hook, property, data, isModelValid (β.beside Chronicle) v' m, ?_⟩
            simp [Episode.log, Chronicle.written, Chronicle.judged, Chronicle.tell,
              Chronicle.wrote]

/-- The hook computes an area from a width, a slot writes down which width it saw, another one
    marks the model as ready, and a quiet slot counts. -/
def measuring : Behaviour Nat Nat :=
  { Behaviour.plain with
    afterSet := fun _ name _ new =>
      if name = "width" then do
        let _ ← Program.perform (Action.setProperty 0 "area" new)
      else pure ()
    slot := fun code notice =>
      match code, notice with
      | 0, .property "width" value => do
        let _ ← Program.perform (Action.write 0 false "seen" value)
      | 1, .dataChanged => do
        let _ ← Program.perform (Action.setProperty 0 "ready" (.bool true))
      | 2, .validity _ => .perform (Action.change Nat.succ)
      | _, _ => pure () }

/-- An initialized model without properties, and three slots. -/
def measuringStart : Ensemble Nat Nat :=
  updateModel 0 (fun o =>
    { o with
      initialized := true
      propertyChanged := (Signal.new.connect (.client 0) .direct).2
      dataChanged := (Signal.new.connect (.client 1) .direct).2
      validityChanged := (Signal.new.connect (.client 2) .direct).2 }) (.new 0)

/-- A width is written. -/
def widen : Client Nat Nat SetOutcome := .perform (Action.setProperty 0 "width" (.integer 3))

theorem discreet_measuring : measuring.Discreet 0 (· = 2) false where
  accepts _ _ := trivial
  populate may := by cases may
  slot code quiet valid := by
    obtain rfl : code = 2 := of_decide_eq_true quiet
    exact ⟨trivial, fun _ => trivial⟩

theorem spared_measuringStart : Spared 0 (· = 2) measuringStart := by
  refine ⟨fun s own => ?_, ?_⟩
  · cases s with
    | modelProperty n | modelData n | modelValidity n =>
        obtain rfl : n = 0 := of_decide_eq_true own
        rfl
    | _ => cases own
  · have none : (Signal.new : Signal (Slot Nat)).Carries (·.isQuiet (· = 2) = true) := by
      intro cell member
      cases member
    exact none.connect (k := .client 2) rfl .direct

/-- Four writes change the store, three through the model and one past it. -/
theorem announced_of_measured_width :
    ∃ (w' : Ensemble Nat Nat) (c : Chronicle),
      (run measuring 12).client widen measuringStart = some (.changed, w') ∧
      (watch measuring 0 (· = 2) false 12).client (widen.beside Chronicle)
          (measuringStart.noted Chronicle.empty) = some (.changed, w'.noted c) ∧
      c.told = [.reacted "width" .null (.integer 3), .reacted "area" .null (.integer 3),
        .property "area" (.integer 3), .data, .reacted "ready" .null (.bool true),
        .property "ready" (.bool true), .data, .validity true true, .validity true true,
        .property "width" (.integer 3), .property "seen" (.integer 3), .data, .data,
        .validity true true] ∧
      c.told.countP (· matches .property ..) = c.changes ∧
      c.told.countP (· matches .validity ..) = c.modelChanges ∧ c.modelChanges = 3 := by
  have ends : ((runUnder measuring 12 (sparing 0 (· = 2) false)).client widen
      measuringStart).map (·.1) = some .changed := by
    decide +kernel
  obtain ⟨⟨r, w'⟩, ran, same⟩ := Option.map_eq_some_iff.mp ends
  obtain rfl : r = .changed := same
  obtain ⟨plain, c, watched, -, property, -, validity, -⟩ :=
    (announced_by_episodes discreet_measuring spared_measuringStart).1 widen 12 _ w' ran
  have noted : ((watch measuring 0 (· = 2) false 12).client (widen.beside Chronicle)
      (measuringStart.noted Chronicle.empty)).map (fun x => x.2.client.notes) =
        some ⟨[.reacted "width" .null (.integer 3), .reacted "area" .null (.integer 3),
          .property "area" (.integer 3), .data, .reacted "ready" .null (.bool true),
          .property "ready" (.bool true), .data, .validity true true, .validity true true,
          .property "width" (.integer 3), .property "seen" (.integer 3), .data, .data,
          .validity true true],
          [(.model, .unchanged), (.model, .changed), (.model, .changed), (.model, .unchanged),
            (.store false, .changed), (.model, .unchanged), (.model, .changed)], 0⟩ := by
    decide +kernel
  rw [watched] at noted
  obtain rfl := Option.some.inj noted
  exact ⟨w', _, plain, watched, rfl, property, validity, rfl⟩

end Ensemble

end Mvc
