import Mvc.App.Behaviour
import Mvc.Proofs.Onlookers

/-! # What the application's programs may do

Rules say which properties a program may write, how it may change the application's own state, and
whether it may hand on user actions or have other code run. Each program of the application keeps
the rules, if these are lax enough: whoever looks at the settings and at the panels that views show
must not mind what else the application keeps.
-/

namespace Mvc.App

/-! ## What screens show -/

/-- The panel that is printed, if it is one. -/
def Printed.panel? : Printed → Option Panel
  | panel p => some p
  | _ => none

namespace Screen

/-- The panel that was printed last. -/
def shown (s : Screen) : Option Panel := (s.printed.filterMap Printed.panel?).getLast?

/-- One screen shows what the other does. -/
structure Alike (a b : Screen) : Prop where
  hasModel : b.hasModel = a.hasModel
  broken : b.broken = a.broken
  shown : b.shown = a.shown

theorem Alike.refl (s : Screen) : Alike s s := ⟨rfl, rfl, rfl⟩

theorem Alike.trans {a b c : Screen} (first : Alike a b) (second : Alike b c) : Alike a c :=
  ⟨second.hasModel.trans first.hasModel, second.broken.trans first.broken,
    second.shown.trans first.shown⟩

theorem print_hasModel (s : Screen) (p : Printed) : (s.print p).hasModel = s.hasModel := by
  unfold print
  split <;> rfl

theorem print_broken (s : Screen) (p : Printed) : (s.print p).broken = s.broken := by
  unfold print
  split <;> rfl

/-- What is no panel covers none. -/
theorem alike_print (s : Screen) {p : Printed} (other : p.panel? = none) : Alike s (s.print p) := by
  refine ⟨print_hasModel s p, print_broken s p, ?_⟩
  unfold print
  split
  · rfl
  · simp [Screen.shown, other]

theorem shown_print {s : Screen} (sound : s.broken = false) (p : Panel) :
    (s.print (.panel p)).shown = some p := by
  rw [print, sound]
  simp [Screen.shown, Printed.panel?]

end Screen

/-! ## Rules -/

/-- Neither the settings nor what the screens show is any different. -/
structure Alike (s s' : State) : Prop where
  service : s'.service = s.service
  started : s'.started = s.started
  screens : ∀ v, (s.screens.get v).Alike (s'.screens.get v)

/-- What a program may do. -/
structure Rules where
  /-- Which properties it may write. -/
  writes : String → Prop
  /-- How it may change the application's own state. -/
  changes : (State → State) → Prop
  /-- Whether it may hand on user actions, and have other code run. -/
  acts : Prop

/-- What an action may be. -/
def Rules.Allow (rules : Rules) : Action Code State → Prop
  | .setProperty m name _ => m = model ∧ rules.writes name
  | .change f => rules.changes f
  | .emit _ notice => notice.isAction = true → rules.acts
  | .post .. | .reportError .. | .reportDone .. | .finishUpdate _ | .enable .. | .refresh _ => True
  | .report .. | .perform _ => rules.acts
  | .inBackground a => rules.acts ∧ rules.Allow a
  | _ => False

/-- The properties that tell what the application is doing. It writes no others by itself. -/
def indicators : List String := [Property.status, Property.updated, Property.busy]

/-- At least what nobody minds is allowed. -/
structure Rules.Lax (rules : Rules) : Prop where
  writes : ∀ name ∈ indicators, rules.writes name
  changes : ∀ f, (∀ s, Alike s (f s)) → rules.changes f

/-- It is allowed to start, to stop, and to keep texts in the settings. -/
structure Rules.Free (rules : Rules) : Prop where
  starts : rules.changes fun s => { s with started := true }
  stops : rules.changes fun s => { s with started := false }
  keeps : ∀ key text, (changeService fun s =>
    s.adopt (s.settings.set key (.string text))).All rules.Allow

section Programs

variable {rules : Rules}

theorem see_allowed {ρ : Type} (f : Whole → ρ) : (see f).All rules.Allow := fun _ => trivial

theorem emit_allowed (s : SignalRef) {notice : Notice} (quiet : notice.isAction = false) :
    (emit s notice).All rules.Allow :=
  ⟨fun act => by simp [quiet] at act, fun _ => trivial⟩

theorem set_allowed {name : String} (permitted : rules.writes name) (value : Value) :
    (set name value).All rules.Allow :=
  ⟨⟨rfl, permitted⟩, fun _ => trivial⟩

theorem change_allowed {f : State → State} (permitted : rules.changes f) :
    (change f).All rules.Allow :=
  ⟨permitted, fun _ => trivial⟩

theorem reportError_allowed (message : String) : (reportError message).All rules.Allow :=
  ⟨trivial, fun _ => trivial⟩

theorem afterSet_allowed (name : String) (value : Value) :
    (afterSet name value).All rules.Allow := by
  unfold afterSet
  split
  · exact emit_allowed _ rfl
  · split
    · exact emit_allowed _ rfl
    · split
      · exact emit_allowed _ rfl
      · trivial

theorem dataChanged_allowed (c : Nat) : (behaviour.dataChanged c).All rules.Allow :=
  ⟨trivial, fun _ => trivial⟩

theorem display_allowed (printed : ∀ v p, rules.changes fun s =>
    { s with screens := s.screens.set v ((s.screens.get v).print p) }) (v : Nat) :
    (display v).All rules.Allow := by
  refine .bind (see_allowed _) fun ready => ?_
  split
  · refine .bind (see_allowed _) fun panel => .bind (change_allowed (printed _ _)) fun _ => ?_
    exact ⟨trivial, fun _ => trivial⟩
  · trivial

theorem loadSettings_allowed (user : rules.writes Property.user)
    (theme : rules.writes Property.theme) : loadSettings.All rules.Allow := by
  refine .bind (see_allowed _) fun _ => .bind (set_allowed user _) fun _ => ?_
  exact .bind (set_allowed theme _) fun _ => emit_allowed _ rfl

theorem saveSettings_allowed (free : rules.Free) : saveSettings.All rules.Allow := by
  have kept : ∀ key name, (keep key name).All rules.Allow := fun key name =>
    .bind (see_allowed _) fun _ => free.keeps _ _
  exact .bind (kept _ _) fun _ => .bind (kept _ _) fun _ => emit_allowed _ rfl

variable (lax : rules.Lax)
include lax

/-- What changes only a part of the state that nobody looks at. -/
theorem quiet_allowed {f : State → State}
    (same : ∀ s, (f s).service = s.service ∧ (f s).started = s.started ∧
      (f s).screens = s.screens) : (change f).All rules.Allow := by
  refine change_allowed (lax.changes f fun s => ⟨(same s).1, (same s).2.1, fun v => ?_⟩)
  rw [(same s).2.2]
  exact .refl _

theorem readClock_allowed : readClock.All rules.Allow :=
  .bind (see_allowed _) fun _ => .bind (quiet_allowed lax fun _ => ⟨rfl, rfl, rfl⟩) fun _ => trivial

theorem note_allowed (e : Entry) : (note e).All rules.Allow :=
  quiet_allowed lax fun _ => ⟨rfl, rfl, rfl⟩

theorem print_allowed (v : Nat) {p : Printed} (other : p.panel? = none) :
    (print v p).All rules.Allow := by
  refine change_allowed (lax.changes _ fun s => ⟨rfl, rfl, fun u => ?_⟩)
  simp only [Family.get_set]
  split
  · next same => exact same ▸ Screen.alike_print _ other
  · exact .refl _

theorem updateStatus_allowed (message : String) : (updateStatus message).All rules.Allow := by
  refine .bind (set_allowed (lax.writes _ (by decide)) _) fun _ => ?_
  refine .bind (readClock_allowed lax) fun _ => ?_
  exact .bind (set_allowed (lax.writes _ (by decide)) _) fun _ => trivial

theorem setBusy_allowed (busy : Bool) : (setBusy busy).All rules.Allow :=
  .bind (set_allowed (lax.writes _ (by decide)) _) fun _ => trivial

theorem populate_allowed (m : Nat) : (behaviour.populate m).All rules.Allow :=
  .bind (.bind (see_allowed _) fun _ => .bind (readClock_allowed lax) fun _ => trivial)
    fun _ => trivial

theorem deriveTitle_allowed : deriveTitle.All rules.Allow :=
  .bind (see_allowed _) fun _ => quiet_allowed lax fun _ => ⟨rfl, rfl, rfl⟩

theorem slot_allowed (code : Code) (notice : Notice) :
    (behaviour.slot code notice).All rules.Allow := by
  cases code with
  | listen s => exact note_allowed lax _
  | followBusy view =>
      cases notice with
      | flag busy =>
          refine .bind (see_allowed _) fun alive => ?_
          split
          · exact ⟨trivial, fun _ => trivial⟩
          · trivial
      | _ => trivial
  | followTheme =>
      cases notice with
      | text theme => exact updateStatus_allowed lax _
      | _ => trivial
  | _ => trivial

theorem complete_allowed (message : String) : (complete message).All rules.Allow :=
  .bind (quiet_allowed lax fun _ => ⟨rfl, rfl, rfl⟩) fun _ => ⟨trivial, fun _ => trivial⟩

theorem work_allowed (operation : Operation) : (work operation).All rules.Allow := by
  refine .bind (setBusy_allowed lax _) fun _ => .bind (setBusy_allowed lax _) fun _ => ?_
  refine .bind (updateStatus_allowed lax _) fun _ => .bind (see_allowed _) fun d => ?_
  split
  · exact ⟨trivial, fun _ => trivial⟩
  · exact complete_allowed lax _

theorem run_allowed (operation : Operation) : (App.run operation).All rules.Allow := by
  refine .bind (see_allowed _) fun busy => ?_
  split
  · exact reportError_allowed _
  · refine .bind (quiet_allowed lax fun _ => ⟨rfl, rfl, rfl⟩) fun _ => ?_
    refine .bind (updateStatus_allowed lax _) fun _ => .bind (see_allowed _) fun accepts => ?_
    split
    · exact quiet_allowed lax fun _ => ⟨rfl, rfl, rfl⟩
    · exact .bind (quiet_allowed lax fun _ => ⟨rfl, rfl, rfl⟩) fun _ => reportError_allowed _

theorem handles_allowed (theme : rules.writes Property.theme) (name : String) (data : Value) :
    (handles name data).All rules.Allow := by
  have changed : (changeTheme data).All rules.Allow := by
    refine .bind (set_allowed theme _) fun outcome => ?_
    cases outcome with
    | rejected => exact reportError_allowed _
    | changed | unchanged => trivial
  refine .bind (see_allowed _) fun config => ?_
  split
  · exact .bind (run_allowed lax _) fun _ => trivial
  · split
    · exact .bind changed fun _ => trivial
    · trivial

theorem awaitWorker_allowed (acts : rules.acts) : awaitWorker.All rules.Allow := by
  have worked : ∀ operations, (workOff operations).All rules.Allow := by
    intro operations
    induction operations with
    | nil => trivial
    | cons operation rest ih =>
        refine .bind ⟨⟨acts, acts⟩, fun _ => trivial⟩ fun _ => ?_
        exact .bind (quiet_allowed lax fun _ => ⟨rfl, rfl, rfl⟩) fun _ => ih
  exact .bind (see_allowed _) worked

theorem job_allowed (acts : rules.acts) (code : Code) : (behaviour.job code).All rules.Allow := by
  cases code with
  | work operation => exact work_allowed lax operation
  | complete message => exact complete_allowed lax message
  | trigger name payload =>
      refine .bind (see_allowed _) fun current => ?_
      split
      · exact note_allowed lax _
      · next view =>
          have triggered : (trigger view name payload).All rules.Allow := by
            refine .bind (see_allowed _) fun enabled => ?_
            split
            · exact .bind ⟨acts, fun _ => trivial⟩ fun _ => trivial
            · exact .bind (print_allowed lax view rfl) fun _ => trivial
          refine .bind triggered fun _ => .bind (awaitWorker_allowed lax acts) fun _ => ?_
          exact note_allowed lax _
  | help =>
      refine .bind (see_allowed _) fun current => ?_
      split
      · trivial
      · exact print_allowed lax _ rfl
  | _ => trivial

section Free

variable (free : rules.Free)
include free

theorem start_allowed : start.All rules.Allow := by
  refine .bind (see_allowed _) fun started => ?_
  split
  · trivial
  · refine .bind (change_allowed free.starts) fun _ => ?_
    refine .bind (updateStatus_allowed lax _) fun _ => .bind (updateStatus_allowed lax _) fun _ => ?_
    exact ⟨trivial, fun _ => trivial⟩

theorem stop_allowed : stop.All rules.Allow := by
  refine .bind (see_allowed _) fun started => ?_
  split
  · refine .bind (change_allowed free.stops) fun _ => ?_
    refine .bind (updateStatus_allowed lax _) fun _ => ?_
    refine .bind (saveSettings_allowed free) fun _ => ?_
    exact .bind (updateStatus_allowed lax _) fun _ => updateStatus_allowed lax _
  · trivial

end Free

end Programs

end Mvc.App
