import Mvc.Proofs.Requests

/-! # The bound view is enabled exactly while no operation is at work

What is done to the application are deeds: the presentation thread and the worker take turns,
any thread asks something of the model, and its owner arranges its parts, which includes
binding a view or none.

If all that is asked is fair, the application stays tied, and so the bound view is enabled exactly
while no operation is at work, unless a word of the busy flag still waits for it; none waits after
the dispatcher was drained (`view_enabled_of_fair`). To fill the model again while an operation is
at work is not fair: the flag is cleared, and the view is never told (`disabled_when_refilled`).
-/

namespace Mvc.App

open Ensemble Proc

/-! ## Deeds -/

/-- What the owner of the application does with its parts. -/
inductive Arrangement where
  /-- Listen to a signal from now on. -/
  | listen (s : SignalRef)
  | makeView (hasModel : Bool)
  | bindView (view : Option Nat)
  /-- Bind the model, or none. -/
  | bindModel (bound : Bool)
  | assemble
  | setUp
  | start

/-- What is done to arrange it. -/
def Arrangement.program : Arrangement → Program Unit
  | listen s => listenTo s
  | makeView hasModel => do
    let _ ← App.makeView hasModel
  | bindView view => App.bind view
  | bindModel bound =>
    Program.perform (Action.setModel controller (if bound then some App.model else none))
  | assemble => App.assemble
  | setUp => do
    let _ ← App.setUp
  | start => App.start

/-- What is done to the application. -/
inductive Deed where
  /-- The presentation thread or the worker takes a turn. -/
  | turn (t : Turn)
  /-- A thread asks something of the model. -/
  | ask (thread : Thread) (r : Request)
  | arrange (a : Arrangement)

/-- How it is done; it tells which pieces are left to the worker. -/
def Deed.perform (depth : Nat) : Deed → Option (List Piece) → Proc Whole (Option (List Piece))
  | turn t, left => t.perform depth left
  | ask .presentation r, left => do
    (runs depth).client r.program
    return left
  | ask .background r, left => do
    inBackground ((runs depth).client r.program)
    return left
  | arrange a, left => do
    (runs depth).client a.program
    return left

/-- A deed is done. -/
def Done (d : Deed) (m m' : Moment) : Prop :=
  ∃ depth, d.perform depth m.left m.whole = some (m'.left, m'.whole)

/-- What is asked is fair on the thread that asks it. -/
def Deed.Fair (w : Whole) : Deed → Prop
  | ask thread r => r.Fair { w with thread }
  | arrange .setUp => Request.fill.Fair w
  | turn _ | arrange _ => True

/-- Deeds were done one after another, each of which was allowed. -/
inductive Sequel (allowed : Whole → Deed → Prop) (w : Whole) : List Deed → Moment → Prop
  | begins : Sequel allowed w [] ⟨w, none⟩
  | deed {deeds : List Deed} {m m' : Moment} (d : Deed) (before : Sequel allowed w deeds m)
      (admitted : allowed m.whole d) (done : Done d m m') : Sequel allowed w (deeds ++ [d]) m'

/-! ## There is one outcome at most -/

theorem Deed.perform_mono {depth depth' : Nat} (le : depth ≤ depth') (d : Deed)
    (left : Option (List Piece)) : Tracks Anyhow (d.perform depth left) (d.perform depth' left) := by
  have covers : Covers (runs depth) (runs depth') := run_mono le
  cases d with
  | turn t => exact t.perform_mono le left
  | ask thread r =>
      cases thread with
      | presentation =>
          exact .bind anyhow_composes (covers.client _) fun _ => .pure anyhow_composes left
      | background =>
          exact .bind anyhow_composes ((covers.keeper behaviour).inBackground (covers.client _))
            fun _ => .pure anyhow_composes left
  | arrange a =>
      exact .bind anyhow_composes (covers.client _) fun _ => .pure anyhow_composes left

theorem done_unique {d : Deed} {m m₁ m₂ : Moment} (first : Done d m m₁) (second : Done d m m₂) :
    m₁ = m₂ := by
  have same := outcome_unique (fun le => d.perform_mono le m.left) first second
  exact Moment.ext (congrArg Prod.snd same) (congrArg Prod.fst same)

/-! ## Fair deeds keep the application tied -/

variable {n : Nat} {w : Whole} {m : Moment} {deeds : List Deed}

theorem Tied.onThread (tied : Tied w) (thread : Thread) : Tied { w with thread } := by
  have signals : ∀ s, ({ w with thread } : Whole).signal s = w.signal s :=
    fun s => signal_setThread w thread s
  have hears : ∀ {id v}, Hears { w with thread } id v ↔ Hears w id v := by
    intro id v
    rw [Hears, Hears, slotAt, slotAt, signals]
  refine ⟨tied.toRigged.of_signals rfl rfl (fun _ => rfl) rfl signals fun l => tied.aside l, ?_,
    fun id v told => tied.booked id v (hears.mp told), tied.unrouted,
    fun id v told => tied.agrees id v (hears.mp told)⟩
  simp only [hears]
  exact tied.bound

theorem arrangement_fares (tied : Tied w) {a : Arrangement} (fair : (Deed.arrange a).Fair w) :
    Fares ((runs (n + 9)).client a.program) w := by
  cases a with
  | listen s =>
      have connected : Fares ((runs (n + 9)).client (connect s (.listen s) .direct)) w :=
        connect_fares tied ⟨rfl, rfl⟩ nofun
      exact connected.program fun _ w₁ _ tied₁ => fares_pure tied₁ _
  | makeView hasModel =>
      exact (makeView_fares (n := n + 8) tied hasModel).program fun _ w₁ _ tied₁ =>
        fares_pure tied₁ _
  | bindView view =>
      exact fares_perform (holdingController_fares tied fun w₁ _ tied₁ =>
        holdingView?_fares tied₁ view fun w₂ _ tied₂ => setView_fares (n := n + 4) tied₂ view)
  | bindModel bound =>
      exact fares_perform (holdingController_fares tied fun w₁ _ tied₁ =>
        setModel_fares (n := n + 4) tied₁ _)
  | assemble =>
      have bound : Fares ((runs (n + 9)).client
          (.perform (Action.setModel controller (some model)))) w :=
        fares_perform (holdingController_fares tied fun w₁ _ tied₁ =>
          setModel_fares (n := n + 4) tied₁ _)
      refine bound.program fun _ w₁ _ tied₁ => ?_
      have connected : Fares ((runs (n + 9)).client (connect Channel.theme .followTheme .direct)) w₁ :=
        connect_fares tied₁ ⟨rfl, rfl⟩ nofun
      exact connected.program fun _ w₂ _ tied₂ => fares_pure tied₂ _
  | setUp =>
      exact (setUp_fares tied fair).program fun _ w₁ _ tied₁ => fares_pure tied₁ _
  | start => exact start_fares (n := n + 3) tied

theorem deed_fares (tied : Tied w) (presentation : w.thread = .presentation) {d : Deed}
    (fair : d.Fair w) (left : Option (List Piece)) : ∃ depth, Fares (d.perform depth left) w := by
  cases d with
  | turn t =>
      exact ⟨_, (perform_moves tied.toMounted presentation (Nat.lt_succ_self _) t left).fares tied
        fun _ _ turns => turns.faithful⟩
  | ask thread r =>
      have asked := request_goes (n := 0) (tied.onThread thread) fair
      refine ⟨9, ?_⟩
      cases thread with
      | presentation =>
          have here : ({ w with thread := .presentation } : Whole) = w := by
            rw [← presentation]
          rw [here] at asked
          exact Fares.bind (asked.fares tied fun _ _ => id) fun _ w₁ _ tied₁ => fares_pure tied₁ _
      | background =>
          refine Fares.bind ((inBackground_moves asked).fares tied ?_) fun _ w₁ _ tied₁ =>
            fares_pure tied₁ _
          rintro _ _ ⟨g, faithful, rfl⟩
          rw [gist_thread] at faithful
          exact ((Gist.faithful_thread _ _).trans faithful).trans (Gist.faithful_thread _ _)
  | arrange a =>
      refine ⟨9, Fares.bind (arrangement_fares (n := 0) tied fair) fun _ w₁ _ tied₁ => ?_⟩
      exact fares_pure tied₁ _

/-- A fair deed can be done, and however it is, the application is tied. -/
theorem done_tied (tied : Tied m.whole) (presentation : m.whole.thread = .presentation) {d : Deed}
    (fair : d.Fair m.whole) : (∃ m', Done d m m') ∧
      ∀ m', Done d m m' → m'.whole.thread = .presentation ∧ Tied m'.whole := by
  obtain ⟨depth, left', w', ended, thread, tied'⟩ := deed_fares tied presentation fair m.left
  have done : Done d m ⟨w', left'⟩ := ⟨depth, ended⟩
  refine ⟨⟨_, done⟩, fun m' done' => ?_⟩
  obtain rfl := done_unique done done'
  exact ⟨thread.trans presentation, tied'⟩

/-- A tied application stays tied through fair deeds. -/
theorem Tied.sequel (tied : Tied w) (presentation : w.thread = .presentation)
    (sequel : Sequel (fun w d => d.Fair w) w deeds m) :
    m.whole.thread = .presentation ∧ Tied m.whole := by
  induction sequel with
  | begins => exact ⟨presentation, tied⟩
  | deed d before fair done ih => exact (done_tied ih.2 ih.1 fair).2 _ done

/-! ## The view and the flag -/

/-- The bound view is enabled exactly while no operation is at work, unless word of the busy flag
    waits for it. -/
def Reflects (w : Whole) : Prop :=
  ∀ v, isReady (w.controller controller) = true → (w.controller controller).view = some v →
    Wordless w → (w.view v).enabled = !isBusy (properties w)

theorem Tied.reflects (tied : Tied w) : Reflects w := by
  intro v ready view wordless
  have bound := tied.bound
  rw [if_pos ready] at bound
  obtain ⟨id, v', view', -, hears⟩ := bound
  obtain rfl := Option.some.inj (view.symm.trans view')
  have connected : (frame w).connected id = true := Signal.contains_of_slot? hears
  have agrees := tied.agrees id v hears
  rw [((wordless_iff tied.chores).mp wordless).words connected, List.getLastD_nil] at agrees
  rw [show isBusy (properties w) = (gist w).flag from rfl, ← agrees, Bool.not_not]

theorem Tied.wordless_of_drain (tied : Tied m.whole) (presentation : m.whole.thread = .presentation)
    {m' : Moment} (drained : Done (.turn .drain) m m') : Wordless m'.whole := by
  obtain ⟨steady, -, same⟩ :=
    (turned_mounted tied.toMounted presentation m.left .drain).2 m' drained
  refine (wordless_iff (steady.mounted tied.toMounted).chores).mpr fun id view busy waits => ?_
  rw [same, Gist.drain, (Gist.foldl_perform_keeps _ _).2.2] at waits
  cases waits

/-- What an application has come to that is tied. -/
structure Abiding (m : Moment) : Prop where
  /-- The bound view is enabled exactly while no operation is at work. -/
  reflects : Reflects m.whole
  /-- No word of the busy flag waits when the dispatcher was drained. -/
  drained : ∀ m', Done (.turn .drain) m m' → Wordless m'.whole
  /-- Every fair deed can be done. -/
  able : ∀ d : Deed, d.Fair m.whole → ∃ m', Done d m m'

/-- Through fair deeds the bound view is enabled exactly while no operation is at work. -/
theorem view_enabled_of_fair {config : Config} {service : Service} {files : Files}
    {hasDispatcher : Bool} {clock : Instant}
    (sequel : Sequel (fun w d => d.Fair w) (parts config service files hasDispatcher clock)
      deeds m) : Abiding m := by
  have tied := tied_parts config service files hasDispatcher clock
  obtain ⟨presentation, tied⟩ := tied.sequel rfl sequel
  exact ⟨tied.reflects, fun _ => tied.wordless_of_drain presentation,
    fun d fair => (done_tied tied presentation fair).1⟩

/-! ## In a small application -/

section Small

variable {allowed : Whole → Deed → Prop}

instance (w : Whole) : Decidable (Wordless w) :=
  inferInstanceAs (Decidable (∀ t ∈ queue w, isWord w t = false))

instance (w : Whole) : (r : Request) → Decidable (r.Fair w)
  | .set name value =>
    inferInstanceAs (Decidable (name = Property.busy →
      servesInline (modelDelivery w controller) w.thread = true →
        isBusy (properties w) = value.asBool?.getD false ∨ Wordless w))
  | .fill => inferInstanceAs (Decidable ((w.model model).initialized = false →
      isReady (w.controller controller) = true → isBusy (properties w) = false))
  | .refill => inferInstanceAs (Decidable (isReady (w.controller controller) = true →
      isBusy (properties w) = false))
  | .updateStatus _ | .loadSettings | .saveSettings => inferInstanceAs (Decidable True)

instance (w : Whole) : (d : Deed) → Decidable (d.Fair w)
  | .ask thread r => inferInstanceAs (Decidable (r.Fair { w with thread }))
  | .arrange .setUp => inferInstanceAs (Decidable (Request.fill.Fair w))
  | .turn _ | .arrange (.listen _) | .arrange (.makeView _) | .arrange (.bindView _)
  | .arrange (.bindModel _) | .arrange .assemble | .arrange .start =>
    inferInstanceAs (Decidable True)

/-- What deeds come to that are allowed, if no call nests too deep. -/
def play (allowed : Whole → Deed → Prop) [∀ w d, Decidable (allowed w d)] :
    List Deed → Moment → Option Moment
  | [], m => some m
  | d :: rest, m =>
    if allowed m.whole d then
      match d.perform 30 m.left m.whole with
      | some (left, whole) => play allowed rest ⟨whole, left⟩
      | none => none
    else none

theorem Sequel.play [∀ w d, Decidable (allowed w d)] {rest : List Deed} {m' : Moment}
    (before : Sequel allowed w deeds m) (played : play allowed rest m = some m') :
    Sequel allowed w (deeds ++ rest) m' := by
  induction rest generalizing deeds m with
  | nil =>
      cases played
      rw [List.append_nil]
      exact before
  | cons d rest ih =>
      unfold App.play at played
      split at played
      · next admitted =>
          split at played
          · next left whole ends =>
              have through := ih (before.deed d admitted ⟨30, ends⟩) played
              rwa [List.append_assoc] at through
          · cases played
      · cases played

/-- Deeds of which it is checked what they come to. -/
theorem sequel_of_check [∀ w d, Decidable (allowed w d)] {P : Moment → Prop} [DecidablePred P]
    (checked : (play allowed deeds ⟨w, none⟩).any (fun m => P m) = true) :
    ∃ m, Sequel allowed w deeds m ∧ P m := by
  cases played : play allowed deeds ⟨w, none⟩ with
  | none =>
      rw [played] at checked
      cases checked
  | some m =>
      rw [played] at checked
      exact ⟨m, Sequel.begins.play played, of_decide_eq_true checked⟩

/-- The parts of an application with a dispatcher. -/
def someParts : Whole := parts .standard (.new none) .empty true .epoch

/-- The parts are put together with a view and set up. -/
def settingUp : List Deed :=
  [.arrange .assemble, .arrange (.makeView true), .arrange (.bindView (some 0)), .arrange .setUp]

/-- An operation begins on the worker's thread, and what it leaves word of is heard. -/
def beginning : List Deed :=
  settingUp ++ [.turn (.act "new" .null), .turn .work, .turn .work, .turn .drain]

/-- The view is disabled while the operation is at work. -/
theorem disabled_by_operation : ∃ m, Sequel (fun w d => d.Fair w) someParts beginning m ∧
    Abiding m ∧ isReady (m.whole.controller controller) = true ∧
    (m.whole.controller controller).view = some 0 ∧ Wordless m.whole ∧
    (m.whole.view 0).enabled = false ∧ isBusy (properties m.whole) = true := by
  have found : ∃ m, Sequel (fun w d => d.Fair w) someParts beginning m ∧
      isReady (m.whole.controller controller) = true ∧
      (m.whole.controller controller).view = some 0 ∧ Wordless m.whole ∧
      (m.whole.view 0).enabled = false ∧ isBusy (properties m.whole) = true :=
    sequel_of_check (by decide +kernel)
  obtain ⟨m, sequel, facts⟩ := found
  exact ⟨m, sequel, view_enabled_of_fair sequel, facts⟩

/-- The flag is set, the model is filled again, and all that was left word of is heard. -/
def refilling : List Deed :=
  settingUp ++ [.ask .presentation (.set Property.busy (.bool true)), .ask .presentation .refill,
    .turn .drain]

/-- The flag is cleared without a word, so that the view stays disabled while nothing is at work. -/
theorem disabled_when_refilled : ∃ m, Sequel (fun _ _ => True) someParts refilling m ∧
    isReady (m.whole.controller controller) = true ∧
    (m.whole.controller controller).view = some 0 ∧ queue m.whole = [] ∧
    m.whole.client.worker.queue = [] ∧
    (m.whole.view 0).enabled = false ∧ isBusy (properties m.whole) = false :=
  sequel_of_check (by decide +kernel)

end Small

end Mvc.App
