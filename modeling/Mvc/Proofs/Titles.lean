import Mvc.App.Behaviour
import Mvc.Proofs.Obedience

/-! # The title as of the last time that it was derived

The application keeps a title for whoever shows a view. It takes the title over from the model
whenever the controller shows its view anew. But a view also shows itself anew when it hears of
a new phase of its controller, and then nobody takes the title over. So beside a run it is noted
each time that the title is derived and each time that a view is shown anew, by which way, what
title is kept then and what title the model has.
-/

namespace Mvc.App

open Ensemble Proc

/-- By which way a view comes to be shown anew. -/
inductive Way where
  /-- By its controller. -/
  | refresh
  /-- By itself, since its controller enters a phase. -/
  | phase
  /-- By somebody else. -/
  | asked
  deriving DecidableEq

/-- What is kept as title, and what the model's title is, at some moment. -/
inductive Glimpse where
  /-- When the title has been derived. -/
  | derived (kept current : String)
  /-- When a view is about to be shown anew. -/
  | shown (view : Nat) (way : Way) (kept current : String)
  deriving DecidableEq

/-- The application with glimpses of its title beside it. -/
abbrev Titled := Ensemble Code (Noted (List Glimpse) State)

/-- Note a glimpse. -/
def glimpse (g : String → String → Glimpse) (w : Titled) : Titled :=
  { w with client := { w.client with
      notes := w.client.notes ++
        [g w.client.own.windowTitle (App.windowTitle (properties w.bare))] } }

/-! ## Noting glimpses -/

section Noting

variable (run : Runner Code (Noted (List Glimpse) State))
  (β : Behaviour Code (Noted (List Glimpse) State))

/-- A view is shown anew, by some way. -/
def showTitled (v : Nat) (way : Way) : Proc Titled Unit := do
  modify (glimpse (.shown v way))
  run.client (β.display v)

/-- `refresh`, with glimpses. -/
def titledRefresh (c : Nat) : Proc Titled Unit := do
  match ((← get).controller c).view with
  | none => pure ()
  | some v =>
    holdingView run v do
      run.client (β.derive c)
      modify (glimpse .derived)
      showTitled run β v .refresh

/-- `handleAction`, with glimpses. -/
def titledAction (c : Nat) (name : String) (data : Value) : Proc Titled Unit := do
  if ((← get).controller c).phase ≠ .initialized then Ensemble.reportError run c notInitialized
  else if ← run.client (β.handles c name data) then pure ()
  else if name = "refresh" ∨ name = "update" then
    titledRefresh run β c
    Ensemble.reportDone run c viewUpdated

/-- `serve`, with glimpses. -/
def titledServe : Slot Code → Notice → Proc Titled Unit
  | .controllerAction c, .action name data =>
    ifControllerAlive run c (titledAction run β c name data)
  | .viewPhase v, .phase phase =>
    if phase = .viewClosing then pure () else ifViewAlive run v (showTitled run β v .phase)
  | slot, notice => serve run β slot notice

/-- `body`, with glimpses. -/
def titledBody (fuel : Nat) : Runner Code (Noted (List Glimpse) State)
  | .slot slot notice => titledServe run β slot notice
  | .action (.handleAction c name data) => holdingController run c (titledAction run β c name data)
  | .action (.refresh c) => holdingController run c (titledRefresh run β c)
  | .action (.displayView v) => holdingView run v (showTitled run β v .asked)
  | call => body run β fuel call

end Noting

/-- Run a call of the application and note the glimpses. -/
def titled : Nat → Runner Code (Noted (List Glimpse) State)
  | 0 => fun _ => Proc.tooDeep
  | depth + 1 => titledBody (titled depth) (behaviour.beside _) depth

/-! ## Without the glimpses -/

section Bare

variable {run' : Runner Code (Noted (List Glimpse) State)} {run : Runner Code State}
  (calls : BareRunner run' run)
include calls

theorem bares_showTitled (v : Nat) (way : Way) :
    Bares id (showTitled run' (behaviour.beside _) v way) (run.client (behaviour.display v)) :=
  .note rfl (bares_client calls _)

theorem bares_titledRefresh (c : Nat) :
    Bares id (titledRefresh run' (behaviour.beside _) c) (refresh run behaviour c) := by
  refine .look fun w => ?_
  simp only [controller_bare]
  cases (w.controller c).view with
  | none => exact .pure ()
  | some v =>
      refine bares_holdingView calls v (.bind (bares_client calls _) fun _ => ?_)
      exact .note rfl (bares_showTitled calls v .refresh)

theorem bares_titledAction (c : Nat) (name : String) (data : Value) :
    Bares id (titledAction run' (behaviour.beside _) c name data)
      (handleAction run behaviour c name data) := by
  refine .look fun w => .ite (bares_emit calls _ _) ?_
  refine .bind (bares_client calls _) fun handled => .ite (.pure ()) (.ite ?_ (.pure ()))
  exact .bind (bares_titledRefresh calls c) fun _ => bares_emit calls _ _

theorem bares_titledServe (slot : Slot Code) (notice : Notice) :
    Bares id (titledServe run' (behaviour.beside _) slot notice)
      (serve run behaviour slot notice) := by
  have plain := bares_serve calls behaviour slot notice
  cases slot with
  | controllerAction c =>
      cases notice with
      | action name data =>
          exact bares_ifControllerAlive calls c (bares_titledAction calls c name data)
      | _ => exact plain
  | viewPhase v =>
      cases notice with
      | phase phase =>
          refine .ite (.pure ()) (bares_ifViewAlive calls v ?_)
          exact bares_showTitled calls v .phase
      | _ => exact plain
  | client code => cases notice <;> exact plain
  | _ => exact plain

theorem bare_titledBody (fuel : Nat) :
    BareRunner (titledBody run' (behaviour.beside _) fuel) (body run behaviour fuel) := by
  have plain := bares_body calls behaviour fuel
  refine ⟨bares_titledServe calls, plain.task, plain.subscription, fun a => ?_⟩
  have same := plain.action a
  cases a with
  | handleAction c name data =>
      exact bares_holdingController calls c (bares_titledAction calls c name data)
  | refresh c => exact bares_holdingController calls c (bares_titledRefresh calls c)
  | displayView v => exact bares_holdingView calls v (bares_showTitled calls v .asked)
  | _ => exact same

end Bare

/-- Without the glimpses, a run with glimpses is a run. -/
theorem bare_titled (depth : Nat) : BareRunner (titled depth) (Ensemble.run behaviour depth) := by
  induction depth with
  | zero => exact ⟨fun _ _ => .tooDeep, fun _ => .tooDeep, fun _ => .tooDeep, fun _ => .tooDeep⟩
  | succ depth ih => exact bare_titledBody ih depth

/-! ## Titles in order -/

/-- A title is kept, and a view that is shown finds it kept, until the next time that it is derived.
    What is derived is the model's title, and the controller shows what it has just derived. -/
inductive InOrder : String → List Glimpse → String → Prop where
  | nothing (title : String) : InOrder title [] title
  | derived {title title' current : String} {rest : List Glimpse}
      (later : InOrder current rest title') :
      InOrder title (.derived current current :: rest) title'
  | shown {title title' current : String} {v : Nat} {way : Way} {rest : List Glimpse}
      (fresh : way = .refresh → title = current) (later : InOrder title rest title') :
      InOrder title (.shown v way title current :: rest) title'

/-- The title that was derived last, if one was. -/
def lastDerived (title : String) : List Glimpse → String
  | [] => title
  | .derived kept _ :: rest => lastDerived kept rest
  | .shown .. :: rest => lastDerived title rest

namespace InOrder

variable {t t₁ t' : String} {log log' : List Glimpse}

theorem append (first : InOrder t log t₁) (second : InOrder t₁ log' t') :
    InOrder t (log ++ log') t' := by
  induction first with
  | nothing _ => exact second
  | derived _ ih => exact .derived (ih second)
  | shown fresh _ ih => exact .shown fresh (ih second)

theorem kept (order : InOrder t log t') : t' = lastDerived t log := by
  induction order with
  | nothing _ => rfl
  | derived _ ih | shown _ _ ih => exact ih

/-- What is derived is the model's title. -/
theorem taken (order : InOrder t log t') {kept current : String}
    (there : .derived kept current ∈ log) : kept = current := by
  induction order with
  | nothing _ => simp at there
  | derived _ ih =>
      rcases List.mem_cons.mp there with here | later
      · cases here
        rfl
      · exact ih later
  | shown _ _ ih =>
      rcases List.mem_cons.mp there with here | later
      · cases here
      · exact ih later

/-- A view that is shown finds the title kept that was derived last, and its controller shows it
    only after deriving it. -/
theorem found (order : InOrder t log t') {before after : List Glimpse} {v : Nat} {way : Way}
    {kept current : String} (here : log = before ++ .shown v way kept current :: after) :
    kept = lastDerived t before ∧ (way = .refresh → kept = current) := by
  induction order generalizing before with
  | nothing _ => simp at here
  | derived _ ih =>
      cases before with
      | nil => simp at here
      | cons g before =>
          obtain ⟨rfl, later⟩ := List.cons.inj here
          have found := ih later
          exact found
  | shown fresh _ ih =>
      cases before with
      | nil =>
          cases here
          exact ⟨rfl, fresh⟩
      | cons g before =>
          obtain ⟨rfl, later⟩ := List.cons.inj here
          have found := ih later
          exact found

end InOrder

/-! ## What leaves the title alone -/

/-- Client code does not touch the title that is kept. -/
def LeavesTitle : Action Code State → Prop
  | .change f => ∀ s, (f s).windowTitle = s.windowTitle
  | .inBackground a => LeavesTitle a
  | _ => True

section Programs

theorem see_leaves {ρ : Type} (f : Whole → ρ) : (see f).All LeavesTitle := fun _ => trivial

theorem perform_leaves {a : Action Code State} (leaves : LeavesTitle a) :
    (Program.perform a : Program a.Result).All LeavesTitle := ⟨leaves, fun _ => trivial⟩

theorem change_leaves {f : State → State} (same : ∀ s, (f s).windowTitle = s.windowTitle) :
    (change f).All LeavesTitle := perform_leaves same

theorem set_leaves (name : String) (value : Value) : (set name value).All LeavesTitle :=
  perform_leaves trivial

theorem note_leaves (e : Entry) : (note e).All LeavesTitle := change_leaves fun _ => rfl

theorem print_leaves (v : Nat) (p : Printed) : (print v p).All LeavesTitle :=
  change_leaves fun _ => rfl

theorem readClock_leaves : readClock.All LeavesTitle :=
  .bind (see_leaves _) fun _ => .bind (change_leaves fun _ => rfl) fun _ => trivial

theorem updateStatus_leaves (message : String) : (updateStatus message).All LeavesTitle := by
  refine .bind (set_leaves _ _) fun _ => .bind readClock_leaves fun _ => ?_
  exact .bind (set_leaves _ _) fun _ => trivial

theorem setBusy_leaves (busy : Bool) : (setBusy busy).All LeavesTitle :=
  .bind (set_leaves _ _) fun _ => trivial

theorem afterSet_leaves (name : String) (value : Value) :
    (afterSet name value).All LeavesTitle := by
  unfold afterSet
  split
  · exact perform_leaves trivial
  · split
    · exact perform_leaves trivial
    · split
      · exact perform_leaves trivial
      · trivial

theorem reportError_leaves (message : String) : (reportError message).All LeavesTitle :=
  perform_leaves trivial

theorem complete_leaves (message : String) : (complete message).All LeavesTitle :=
  .bind (change_leaves fun _ => rfl) fun _ => perform_leaves trivial

theorem work_leaves (operation : Operation) : (work operation).All LeavesTitle := by
  refine .bind (setBusy_leaves _) fun _ => .bind (setBusy_leaves _) fun _ => ?_
  refine .bind (updateStatus_leaves _) fun _ => .bind (see_leaves _) fun d => ?_
  split
  · exact perform_leaves trivial
  · exact complete_leaves _

theorem run_leaves (operation : Operation) : (App.run operation).All LeavesTitle := by
  refine .bind (see_leaves _) fun busy => ?_
  split
  · exact reportError_leaves _
  · refine .bind (change_leaves fun _ => rfl) fun _ => .bind (updateStatus_leaves _) fun _ => ?_
    refine .bind (see_leaves _) fun accepts => ?_
    split
    · exact change_leaves fun _ => rfl
    · exact .bind (change_leaves fun _ => rfl) fun _ => reportError_leaves _

theorem changeTheme_leaves (data : Value) : (changeTheme data).All LeavesTitle := by
  refine .bind (set_leaves _ _) fun outcome => ?_
  cases outcome with
  | rejected => exact reportError_leaves _
  | changed | unchanged => trivial

theorem handles_leaves (name : String) (data : Value) : (handles name data).All LeavesTitle := by
  refine .bind (see_leaves _) fun config => ?_
  split
  · exact .bind (run_leaves _) fun _ => trivial
  · split
    · exact .bind (changeTheme_leaves _) fun _ => trivial
    · trivial

theorem saveSettings_leaves : saveSettings.All LeavesTitle := by
  have kept : ∀ key name, (keep key name).All LeavesTitle := fun key name =>
    .bind (see_leaves _) fun _ => change_leaves fun _ => rfl
  exact .bind (kept _ _) fun _ => .bind (kept _ _) fun _ => perform_leaves trivial

theorem stop_leaves : stop.All LeavesTitle := by
  refine .bind (see_leaves _) fun started => ?_
  split
  · refine .bind (change_leaves fun _ => rfl) fun _ => .bind (updateStatus_leaves _) fun _ => ?_
    refine .bind saveSettings_leaves fun _ => ?_
    exact .bind (updateStatus_leaves _) fun _ => updateStatus_leaves _
  · trivial

theorem display_leaves (v : Nat) : (display v).All LeavesTitle := by
  refine .bind (see_leaves _) fun ready => ?_
  split
  · refine .bind (see_leaves _) fun panel => .bind (print_leaves _ _) fun _ => ?_
    exact perform_leaves trivial
  · trivial

theorem bindings_leaves : bindings.All LeavesTitle := by
  refine .bind (see_leaves _) fun c => ?_
  split
  · trivial
  · exact .bind (see_leaves _) fun busy =>
      .bind (perform_leaves trivial) fun _ => perform_leaves trivial

theorem slot_leaves (code : Code) (notice : Notice) :
    (behaviour.slot code notice).All LeavesTitle := by
  cases code with
  | listen s => exact note_leaves _
  | followBusy view =>
      cases notice with
      | flag busy =>
          refine .bind (see_leaves _) fun alive => ?_
          split
          · exact perform_leaves trivial
          · trivial
      | _ => trivial
  | followTheme =>
      cases notice with
      | text theme => exact updateStatus_leaves _
      | _ => trivial
  | _ => trivial

theorem workOff_leaves (operations : List Operation) : (workOff operations).All LeavesTitle := by
  induction operations with
  | nil => trivial
  | cons operation rest ih =>
      refine .bind (perform_leaves trivial) fun _ => ?_
      exact .bind (change_leaves fun _ => rfl) fun _ => ih

theorem triggerCurrent_leaves (name payload : String) :
    (triggerCurrent name payload).All LeavesTitle := by
  refine .bind (see_leaves _) fun current => ?_
  split
  · exact note_leaves _
  · next view =>
      have triggered : (trigger view name payload).All LeavesTitle := by
        refine .bind (see_leaves _) fun enabled => ?_
        split
        · exact .bind (perform_leaves trivial) fun _ => trivial
        · exact .bind (print_leaves _ _) fun _ => trivial
      refine .bind triggered fun _ => .bind (.bind (see_leaves _) workOff_leaves) fun _ => ?_
      exact note_leaves _

theorem job_leaves (code : Code) : (behaviour.job code).All LeavesTitle := by
  cases code with
  | work operation => exact work_leaves operation
  | complete message => exact complete_leaves message
  | trigger name payload => exact triggerCurrent_leaves name payload
  | help =>
      refine .bind (see_leaves _) fun current => ?_
      split
      · trivial
      · exact print_leaves _ _
  | _ => trivial

/-- The application without deriving its title. -/
def untitled : Behaviour Code State := { behaviour with derive := fun _ => pure () }

theorem untitled_leaves : untitled.Obeys LeavesTitle where
  accepts _ _ _ := trivial
  afterSet _ name _ value := afterSet_leaves name value
  populate _ := .bind (.bind (see_leaves _) fun _ => .bind readClock_leaves fun _ => trivial)
    fun _ => trivial
  setup _ := trivial
  connect _ := bindings_leaves
  handles _ name data := handles_leaves name data
  derive _ := trivial
  dataChanged _ := perform_leaves trivial
  updateRequested _ := trivial
  closing _ := stop_leaves
  viewSetup _ := see_leaves _
  display v := display_leaves v
  showError _ _ := print_leaves _ _
  showInfo _ _ := print_leaves _ _
  slot := slot_leaves
  job := job_leaves

end Programs

/-! ## Calls -/

variable {w w₁ w' : Titled}

/-- New glimpses are in order, from the title that is kept before to the one that is kept after. -/
def Glimpsed (w w' : Titled) : Prop :=
  ∃ log, w'.client.notes = w.client.notes ++ log ∧
    InOrder w.client.own.windowTitle log w'.client.own.windowTitle

theorem glimpsed_of_same (notes : w'.client.notes = w.client.notes)
    (kept : w'.client.own.windowTitle = w.client.own.windowTitle) : Glimpsed w w' :=
  ⟨[], by rw [notes, List.append_nil], kept ▸ .nothing _⟩

theorem Glimpsed.trans (first : Glimpsed w w₁) (second : Glimpsed w₁ w') : Glimpsed w w' := by
  obtain ⟨log, notes, order⟩ := first
  obtain ⟨log', notes', order'⟩ := second
  exact ⟨log ++ log', by rw [notes', notes, List.append_assoc], order.append order'⟩

theorem glimpsed_composes : Composes Glimpsed where
  refl _ := glimpsed_of_same rfl rfl
  trans first second := first.trans second

/-- A view is shown, by its controller only if the title is up to date. -/
theorem glimpsed_shown (v : Nat) {way : Way}
    (fresh : way = .refresh → w.client.own.windowTitle = App.windowTitle (properties w.bare)) :
    Glimpsed w (glimpse (.shown v way) w) :=
  ⟨_, rfl, .shown fresh (.nothing _)⟩

/-- The title is up to date, and that is noted. -/
theorem glimpsed_derived (title : w₁.client.own.windowTitle = App.windowTitle (properties w₁.bare))
    (notes : w₁.client.notes = w.client.notes) : Glimpsed w (glimpse .derived w₁) := by
  refine ⟨_, by rw [glimpse, notes], ?_⟩
  rw [title]
  exact .derived (title ▸ .nothing _)

/-- What client code may do beside the glimpses. -/
def LeavesBeside (a' : Action Code (Noted (List Glimpse) State)) : Prop :=
  ∃ a, LeavesTitle a ∧ a' = a.beside _

/-- What a runner has to do for the glimpses to be in order. -/
structure Glances (run : Runner Code (Noted (List Glimpse) State)) : Prop where
  action : ∀ a, LeavesTitle a → Keeps Glimpsed (run (.action (a.beside _)))
  slot : ∀ slot notice, Keeps Glimpsed (run (.slot slot notice))
  task : ∀ task, Keeps Glimpsed (run (.task task))
  subscription : ∀ code, Keeps Glimpsed (run (.subscription code))
  change : ∀ f w,
    Ends (run (.action (.change f))) w fun _ w' => w' = { w with client := f w.client }

theorem connect_glimpsed (s : SignalRef) (slot : Slot Code) (d : Delivery) :
    Keeps Glimpsed (Ensemble.connect s slot d) := by
  intro w r w' h
  cases h
  exact glimpsed_of_same (by simp) (by simp)

namespace Glances

variable {run : Runner Code (Noted (List Glimpse) State)} (calls : Glances run)
include calls

theorem bystander : Bystander Glimpsed LeavesBeside run where
  order := glimpsed_composes
  tacit still := glimpsed_of_same (by rw [still.client]) (by rw [still.client])
  giveUpController _ _ _ := glimpsed_of_same rfl rfl
  giveUpView _ _ _ := glimpsed_of_same rfl rfl
  action := by
    rintro _ ⟨a, leaves, rfl⟩
    exact calls.action a leaves
  slot := calls.slot
  task := calls.task
  subscription := calls.subscription
  link s slot _ := connect_glimpsed s slot .direct
  subscribe _ _ _ :=
    .look fun _ => .bind glimpsed_composes (connect_glimpsed _ _ _) fun _ =>
      .pure glimpsed_composes _

theorem hooked : Hooked Glimpsed (untitled.beside _) run :=
  (untitled_leaves.beside _).hooked fun all => calls.bystander.client all

/-- The title is taken over from the model. -/
theorem derive (c : Nat) : Ends (run.client ((behaviour.beside _).derive c)) w fun _ w' =>
    w'.client.own.windowTitle = App.windowTitle (properties w'.bare) ∧
      w'.client.notes = w.client.notes := by
  refine .get_bind (.bind ((calls.change _ w).mono ?_))
  rintro _ w₁ rfl
  exact (ends_pure _ _ _).mpr ⟨rfl, rfl⟩

/-- A view is shown anew. Only by its controller it is shown with the title up to date for sure. -/
theorem showTitled (v : Nat) (way : Way)
    (fresh : way = .refresh → w.client.own.windowTitle = App.windowTitle (properties w.bare)) :
    Ends (showTitled run (behaviour.beside _) v way) w fun _ w' => Glimpsed w w' :=
  .modify_bind ((calls.hooked.display v _).mono fun _ _ later =>
    (glimpsed_shown v fresh).trans later)

/-- The controller derives the title and then shows its view. -/
theorem refresh (c : Nat) : Keeps Glimpsed (titledRefresh run (behaviour.beside _) c) := by
  have b := calls.bystander
  refine .look fun w => ?_
  cases (w.controller c).view with
  | none => exact .pure b.order ()
  | some v =>
      refine b.onlooker.holdingView v fun w => .bind ((calls.derive c).mono ?_)
      rintro _ w₁ ⟨title, notes⟩
      have shown := calls.showTitled (w := glimpse .derived w₁) v .refresh fun _ => title
      exact .modify_bind (shown.mono fun _ _ later => (glimpsed_derived title notes).trans later)

theorem shown (v : Nat) {way : Way} (other : way ≠ .refresh) :
    Keeps Glimpsed (App.showTitled run (behaviour.beside _) v way) := fun _ =>
  calls.showTitled v way fun same => absurd same other

theorem handleAction (c : Nat) (name : String) (data : Value) :
    Keeps Glimpsed (titledAction run (behaviour.beside _) c name data) := by
  have b := calls.bystander
  refine .look fun w => .ite (b.emit _ _) (.bind b.order ?_ fun handled => ?_)
  · exact calls.hooked.handles trivial c name data
  · refine .ite (.pure b.order ()) (.ite ?_ (.pure b.order ()))
    exact .bind b.order (calls.refresh c) fun _ => b.emit _ _

theorem serve (slot : Slot Code) (notice : Notice) :
    Keeps Glimpsed (titledServe run (behaviour.beside _) slot notice) := by
  have o := calls.bystander.onlooker
  have plain := o.serve calls.hooked.toAnswers slot notice fun _ => trivial
  cases slot with
  | controllerAction c =>
      cases notice with
      | action name data => exact o.ifControllerAlive c (calls.handleAction c name data)
      | _ => exact plain
  | viewPhase v =>
      cases notice with
      | phase phase => exact .ite (.pure o.order ()) (o.ifViewAlive v (calls.shown v nofun))
      | _ => exact plain
  | client code | controllerData | controllerClosing | controllerUpdate | viewError | viewInfo =>
      cases notice <;> exact plain

theorem performAction (fuel : Nat) {a : Action Code State} (leaves : LeavesTitle a) :
    Keeps Glimpsed (titledBody run (behaviour.beside _) fuel (.action (a.beside _))) := by
  have b := calls.bystander
  have o := b.onlooker
  have scribe : ∀ m, Scribe Glimpsed (untitled.beside _) run m := fun m =>
    b.scribe calls.hooked fun _ _ => glimpsed_of_same rfl rfl
  have plainly : (a.beside (List Glimpse)).isNoticed = false → Keeps Glimpsed
      (Ensemble.performAction run (untitled.beside _) fuel (a.beside _)) := fun plain =>
    b.performAction calls.hooked fuel _ ⟨a, leaves, rfl⟩ fun noticed =>
      absurd noticed (plain ▸ nofun)
  cases a with
  | connect s slot d => exact connect_glimpsed s slot d
  | write m hooked name value => exact (scribe m).write hooked name value
  | setProperty m name value => exact (scribe m).setProperty name value
  | setSilently | replaceAll | clear => exact .modify fun _ => glimpsed_of_same rfl rfl
  | initializeModel m =>
      exact (scribe m).initializeModel fun _ _ => glimpsed_of_same rfl rfl
  | resetModel m => exact (scribe m).resetModel
  | inBackground a =>
      exact (inBackground_tracks b.order (fun _ _ => glimpsed_of_same rfl rfl)
        ((tracks_self _).mpr (calls.action a leaves))).keeps
  | change f => exact .modify fun w => glimpsed_of_same rfl (leaves w.client.own)
  | handleAction c name data => exact o.holdingController c (calls.handleAction c name data)
  | refresh c => exact o.holdingController c (calls.refresh c)
  | displayView v => exact o.holdingView v (calls.shown v nofun)
  | _ => exact plainly rfl

theorem body (fuel : Nat) : Glances (titledBody run (behaviour.beside _) fuel) where
  action _ leaves := calls.performAction fuel leaves
  slot := calls.serve
  task t := calls.bystander.runTask calls.hooked t
  subscription code := calls.hooked.job code
  change _ _ := (ends_modify _ _ _).mpr rfl

end Glances

theorem glances (depth : Nat) : Glances (titled depth) := by
  induction depth with
  | zero =>
      have never : ∀ {α : Type} {post : Titled → α → Titled → Prop} (w : Titled),
          Ends Proc.tooDeep w (post w) := fun _ _ _ => nofun
      exact ⟨fun _ _ => never, fun _ _ => never, fun _ => never, fun _ => never, fun _ => never⟩
  | succ depth ih => exact ih.body depth

/-- However a run of the application goes, what it keeps as title, and what a view finds that is
    shown anew, is the title that was derived last. The controller shows a view only with the
    model's title. So a view that hears of a new phase and shows itself finds the model's title
    just if it is the one that was derived last. -/
theorem title_when_shown {ρ : Type} {code : Program ρ} (leaves : code.All LeavesTitle)
    {depth : Nat} {r : ρ} {w w' : Whole}
    (ran : (Ensemble.run behaviour depth).client code w = some (r, w')) :
    ∃ log, (titled depth).client (code.beside _) (w.noted []) = some (r, w'.noted log) ∧
      (∀ kept current, .derived kept current ∈ log → kept = current) ∧
      (∀ before v way kept current after, log = before ++ .shown v way kept current :: after →
        kept = lastDerived w.client.windowTitle before ∧ (way = .refresh → kept = current)) ∧
      w'.client.windowTitle = lastDerived w.client.windowTitle log := by
  obtain ⟨log, noted⟩ := exists_beside (bare_titled depth) ran []
  obtain ⟨log', same, order⟩ :=
    (glances depth).bystander.client (Program.all_beside leaves) _ _ _ noted
  obtain rfl : log = log' := same
  exact ⟨log, noted, fun _ _ there => order.taken there,
    fun _ _ _ _ _ _ here => order.found here, order.kept⟩

/-- A view is bound and everything is set up. While no view is bound, the model gets another title,
    and then the same view is bound again. -/
def retitling : Program Unit := do
  assemble
  let view ← makeView true
  bind (some view)
  let _ ← setUp
  bind none
  let _ ← set Property.title (.string "Late")
  bind (some view)

theorem setUp_leaves : setUp.All LeavesTitle := by
  have given : ∀ message cause, (giveUp message cause).All LeavesTitle := fun _ _ =>
    .bind (reportError_leaves _) fun _ => trivial
  have loaded : loadSettings.All LeavesTitle :=
    .bind (see_leaves _) fun _ => .bind (set_leaves _ _) fun _ => .bind (set_leaves _ _) fun _ =>
      perform_leaves trivial
  have controller : setUpController.All LeavesTitle := by
    refine .bind (perform_leaves trivial) fun result => ?_
    cases result with
    | error e => exact given _ _
    | ok => exact .bind loaded fun _ => .bind (updateStatus_leaves _) fun _ => trivial
  have view : ∀ v, (setUpView v).All LeavesTitle := fun v => by
    refine .bind (perform_leaves trivial) fun result => ?_
    cases result with
    | error e => exact given _ _
    | ok => exact controller
  refine .bind (see_leaves _) fun c => ?_
  cases c.model with
  | none => exact given _ _
  | some m =>
      cases c.view with
      | none => exact given _ _
      | some v =>
          refine .bind (perform_leaves trivial) fun result => ?_
          cases result with
          | error e => exact given _ _
          | ok => exact view v

theorem retitling_leaves : retitling.All LeavesTitle := by
  have made : (makeView true).All LeavesTitle :=
    .bind (see_leaves _) fun _ => .bind (change_leaves fun _ => rfl) fun _ => trivial
  have bound : ∀ view, (bind view).All LeavesTitle := fun _ => perform_leaves trivial
  have assembled : assemble.All LeavesTitle :=
    .bind (perform_leaves trivial) fun _ => .bind (perform_leaves trivial) fun _ => trivial
  refine .bind assembled fun _ => .bind made fun _ => ?_
  refine .bind (bound _) fun _ => .bind setUp_leaves fun _ => .bind (bound _) fun _ => ?_
  exact .bind (set_leaves _ _) fun _ => bound _

/-- Before the view is bound again, the title was derived four times. -/
theorem titles_of_retitling :
    ∃ (w' : Whole) (log : List Glimpse), retitling.All LeavesTitle ∧
      (Ensemble.run behaviour 16).client retitling
        (parts .standard (.new none) .empty false .epoch) = some ((), w') ∧
      (titled 16).client (retitling.beside _)
        ((parts .standard (.new none) .empty false .epoch).noted []) = some ((), w'.noted log) ∧
      log.length = 9 ∧ w'.client.windowTitle = lastDerived " - v" log ∧
      w'.client.windowTitle = "Triad Simple Template - v1.0.0" := by
  have ends : ((Ensemble.run behaviour 16).client retitling
      (parts .standard (.new none) .empty false .epoch)).map (·.2.client.windowTitle) =
      some "Triad Simple Template - v1.0.0" := by
    decide +kernel
  obtain ⟨⟨_, w'⟩, ran, title⟩ := Option.map_eq_some_iff.mp ends
  obtain ⟨log, noted, -, -, kept⟩ := title_when_shown retitling_leaves ran
  have listed : ((titled 16).client (retitling.beside _)
      ((parts .standard (.new none) .empty false .epoch).noted [])).map
        (·.2.client.notes.length) = some 9 := by
    decide +kernel
  rw [noted] at listed
  exact ⟨w', log, retitling_leaves, ran, noted, Option.some.inj listed, kept, title⟩

/-- When the view is bound again it shows itself with the model's title, but the application keeps
    the old one. -/
theorem old_title_when_shown :
    ¬ ∀ (code : Program Unit) (depth : Nat) (w' : Titled), code.All LeavesTitle →
      (titled depth).client (code.beside _)
        ((parts .standard (.new none) .empty false .epoch).noted []) = some ((), w') →
      ∀ v way kept current, .shown v way kept current ∈ w'.client.notes → way ≠ .asked →
        kept = current := by
  intro claim
  have shown : ((titled 16).client (retitling.beside _)
      ((parts .standard (.new none) .empty false .epoch).noted [])).map
        (·.2.client.notes.getLast?) = some (some
          (.shown 0 .phase "Triad Simple Template - v1.0.0" "Late - v1.0.0")) := by
    decide +kernel
  obtain ⟨⟨_, w'⟩, ran, last⟩ := Option.map_eq_some_iff.mp shown
  have same := claim retitling 16 w' retitling_leaves ran _ _ _ _ (List.mem_of_getLast? last) nofun
  exact absurd same (by decide)

end Mvc.App
