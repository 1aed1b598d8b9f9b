import Mvc.Proofs.Conduct

/-! # What user actions, the worker and the dispatcher do to the gist

Changing the theme and stopping write some texts to the status line. An operation is accepted or
refused, the worker does its part of it bit by bit on its own thread, and its end is reported
when the dispatcher is drained.
-/

namespace Mvc.App

open Ensemble Proc

variable {n : Nat} {w : Whole}

/-! ## The theme -/

theorem Gist.setTexts_append (texts texts' : List String) (g : Gist) :
    g.setTexts (texts ++ texts') = (g.setTexts texts).setTexts texts' := by
  simp only [Gist.setTexts, List.foldl_append]

theorem Chained.setTexts {α : Type} {l : List α} {g g' : Gist}
    (chained : Chained (fun _ g g' => ∃ texts, g' = g.setTexts texts) l g g') :
    ∃ texts, g' = g.setTexts texts := by
  induction l generalizing g with
  | nil => exact ⟨[], chained⟩
  | cons a rest ih =>
      obtain ⟨g₁, ⟨texts, rfl⟩, later⟩ := chained
      obtain ⟨texts', rfl⟩ := ih later
      exact ⟨texts ++ texts', (Gist.setTexts_append texts texts' g).symm⟩

/-- A new theme is told of in the status line. -/
theorem emitTheme_goes (mounted : Mounted w) (theme : String) :
    Goes (Ensemble.emit (runs (n + 7)) Channel.theme (.text theme)) w fun _ g =>
      ∃ texts, g = (gist w).setTexts texts := by
  have emitted : Goes (Ensemble.emit (runs (n + 7)) Channel.theme (.text theme)) w fun _ =>
      Chained (fun _ g g' => ∃ texts, g' = g.setTexts texts)
        (w.signal Channel.theme).connections (gist w) := by
    refine emit_goes mounted ?_
    rintro id ⟨slot, delivery⟩ fits w₁ mounted₁ -
    cases slot with
    | client code =>
        cases code with
        | listen t =>
            refine (listen_goes (n := n + 5) fits rfl).mono fun _ g same => ⟨[], same.trans ?_⟩
            exact enter_of_ne (by simp [Channel.theme]) (by simp [Channel.theme])
              (by simp [Channel.theme, Channel.status]) _
        | followTheme =>
            obtain ⟨-, rfl⟩ := fits
            exact (updateStatus_goes mounted₁ _).mono fun _ g same => ⟨[_], same⟩
        | _ => simp [Fits, Channel.busy, Channel.theme] at fits
    | _ => simp [Fits, Channel.theme] at fits
  exact emitted.mono fun _ g => Chained.setTexts

/-- A theme that is none is refused; another one is told of in the status line, if it is new. -/
theorem setTheme_goes (mounted : Mounted w) (theme : Value) :
    Goes ((runs (n + 9)).client (set Property.theme theme)) w fun r g =>
      (r = .rejected ∧ g = gist w) ∨ (r ≠ .rejected ∧ ∃ texts, g = (gist w).setTexts texts) := by
  refine goes_perform (setProperty_goes (n := n + 3) mounted (fun _ => .inl ⟨rfl, rfl⟩)
    (fun _ => .inr ⟨by simp, [], rfl⟩) fun _ _ w₁ mounted₁ same => ?_)
  refine goes_perform ((emitTheme_goes mounted₁ _).mono fun _ g told => .inr ⟨by simp, ?_⟩)
  rw [same] at told
  exact told

theorem changeTheme_goes (mounted : Mounted w) (data : Value) :
    Goes ((runs (n + 9)).client (changeTheme data)) w fun _ g =>
      (∃ texts, g = (gist w).setTexts texts) ∨
        g = (gist w).complain ("Invalid theme: " ++ data.lossyText) := by
  refine (setTheme_goes mounted _).program ?_
  rintro r w₁ onward (⟨rfl, same⟩ | ⟨accepted, texts, same⟩)
  · refine (reportError_goes (n := n + 6) (onward.mounted mounted) _).mono fun _ g told => ?_
    exact .inr (same ▸ told)
  · cases r with
    | rejected => exact absurd rfl accepted
    | changed | unchanged => exact goes_done (.inl ⟨texts, same⟩)

/-! ## Operations and user actions -/

theorem run_goes (mounted : Mounted w) (operation : Operation) :
    Goes ((runs (n + 6)).client (run operation)) w fun _ g => g = (gist w).run operation := by
  refine goes_see ?_
  have inFlight : (gist w).inFlight = w.client.inFlight := rfl
  unfold Gist.run
  rw [inFlight]
  split
  · exact reportError_goes (n := n + 3) mounted _
  · have taken : Goes ((runs (n + 6)).client (change fun s => { s with inFlight := true })) w
        fun _ g => g = { gist w with inFlight := true } :=
      changeTo_goes (n := n + 5) _ (fun _ => rfl) fun _ _ => rfl
    refine taken.program fun _ w₁ onward same₁ => ?_
    have mounted₁ := onward.mounted mounted
    refine (updateStatus_goes mounted₁ _).program fun _ w₂ onward same₂ => ?_
    have mounted₂ := onward.mounted mounted₁
    rw [same₁] at same₂
    refine goes_see ?_
    rw [← same₂]
    have worker : (gist w₂).worker = w₂.client.worker := rfl
    simp only [worker]
    split
    · exact changeTo_goes (n := n + 5) _ (fun _ => rfl) fun _ _ => rfl
    · have refused : Goes ((runs (n + 6)).client (change fun s => { s with inFlight := false })) w₂
          fun _ g => g = { gist w₂ with inFlight := false } :=
        changeTo_goes (n := n + 5) _ (fun _ => rfl) fun _ _ => rfl
      refine refused.program fun _ w₃ onward same₃ => ?_
      refine (reportError_goes (n := n + 3) (onward.mounted mounted₂) _).mono fun _ g told => ?_
      exact told.trans (congrArg _ same₃)

theorem complete_goes (mounted : Mounted w) (message : String) :
    Goes ((runs (n + 3)).client (complete message)) w fun _ g => g = (gist w).complete message := by
  have done : Goes ((runs (n + 3)).client (change fun s => { s with inFlight := false })) w
      fun _ g => g = { gist w with inFlight := false } :=
    changeTo_goes (n := n + 2) _ (fun _ => rfl) fun _ _ => rfl
  refine done.program fun _ w₁ onward same => ?_
  unfold Gist.complete
  rw [← same]
  exact reportDone_goes (onward.mounted mounted) message

/-- The hook handles the operations and the theme. -/
theorem handles_goes (mounted : Mounted w) (name : String) (data : Value) :
    Goes ((runs (n + 9)).client (handles name data)) w fun r g =>
      match Operation.ofAction? (gist w).frame.config.work name data with
      | some operation => r = true ∧ g = (gist w).run operation
      | none =>
        if name = "theme" then r = true ∧ ((∃ texts, g = (gist w).setTexts texts) ∨
          g = (gist w).complain ("Invalid theme: " ++ data.lossyText))
        else r = false ∧ g = gist w := by
  refine goes_see ?_
  have config : (gist w).frame.config = w.client.config := rfl
  rw [config]
  cases Operation.ofAction? w.client.config.work name data with
  | some operation =>
      refine (run_goes (n := n + 3) mounted operation).program fun _ w₁ _ same => ?_
      exact goes_done ⟨rfl, same⟩
  | none =>
      dsimp only
      split
      · exact (changeTheme_goes mounted data).program fun _ w₁ _ told => goes_done ⟨rfl, told⟩
      · exact goes_done ⟨rfl, rfl⟩

/-- A user action comes to what it may come to. -/
theorem handleAction_goes (mounted : Mounted w) (name : String) (data : Value) :
    Goes (handleAction (runs (n + 9)) behaviour controller name data) w fun _ =>
      (gist w).Acts name data := by
  refine goes_get ?_
  have serving : (gist w).serving = decide ((w.controller controller).phase = .initialized) := rfl
  unfold Gist.Acts
  by_cases initialized : (w.controller controller).phase = .initialized
  · rw [if_neg (not_not.mpr initialized)]
    simp only [serving, initialized, decide_true, if_true]
    refine (handles_goes mounted name data).bind fun r w₁ onward handled => ?_
    have mounted₁ := onward.mounted mounted
    cases found : Operation.ofAction? (gist w).frame.config.work name data with
    | some operation =>
        rw [found] at handled
        obtain ⟨rfl, same⟩ := handled
        exact goes_pure same
    | none =>
        rw [found] at handled
        dsimp only at handled
        split at handled
        · next theme =>
            obtain ⟨rfl, told⟩ := handled
            simp only [theme, if_true]
            exact goes_pure told
        · next other =>
            obtain ⟨rfl, same⟩ := handled
            simp only [other, if_false, Bool.false_eq_true]
            split
            · refine (refresh_goes (n := n + 6) mounted₁).bind fun _ w₂ onward same' => ?_
              rw [← same, ← same']
              exact emitDone_goes (n := n + 7) (onward.mounted mounted₁) viewUpdated
            · exact goes_pure same
  · rw [if_pos initialized]
    simp only [serving, initialized, decide_false, Bool.false_eq_true, if_false]
    exact emitError_goes (n := n + 7) mounted notInitialized

/-! ## Stopping and closing -/

theorem keep_goes (key name : String) :
    Goes ((runs (n + 1)).client (keep key name)) w fun _ g => g = gist w := by
  refine goes_see (change_quietly _ (fun _ => rfl) (fun _ => rfl) (fun _ => rfl) fun s t => ?_)
  have silent : ∀ events : List ServiceEvent,
      (events.map Entry.service).filterMap (Entry.text? t) = [] := by
    intro events
    simp [List.filterMap_map, Entry.text?]
  rw [List.filterMap_append, silent, List.append_nil]

theorem saveSettings_goes (mounted : Mounted w) :
    Goes ((runs (n + 3)).client saveSettings) w fun _ g => g = gist w := by
  refine (keep_goes (n := n + 2) _ _).program fun _ w₁ onward₁ same₁ => ?_
  refine (keep_goes (n := n + 2) _ _).program fun _ w₂ onward₂ same₂ => ?_
  have mounted₂ := onward₂.mounted (onward₁.mounted mounted)
  refine goes_perform ((emitPlain_goes mounted₂ (.inr (.inr (.inr rfl)))).mono fun _ g same => ?_)
  exact same.trans (same₂.trans same₁)

/-- Stopping writes some texts to the status line. -/
theorem stop_goes (mounted : Mounted w) :
    Goes ((runs (n + 6)).client stop) w fun _ g => ∃ texts, g = (gist w).setTexts texts := by
  refine goes_see ?_
  split
  · have stopped : Goes ((runs (n + 6)).client (change fun s => { s with started := false })) w
        fun _ g => g = gist w :=
      change_quietly (n := n + 5) _ (fun _ => rfl) (fun _ => rfl) (fun _ => rfl) fun _ _ => rfl
    refine stopped.program fun _ w₁ onward same₁ => ?_
    have mounted₁ := onward.mounted mounted
    refine (updateStatus_goes mounted₁ _).program fun _ w₂ onward same₂ => ?_
    have mounted₂ := onward.mounted mounted₁
    refine (saveSettings_goes (n := n + 3) mounted₂).program fun _ w₃ onward same₃ => ?_
    have mounted₃ := onward.mounted mounted₂
    refine (updateStatus_goes mounted₃ _).program fun _ w₄ onward same₄ => ?_
    refine (updateStatus_goes (onward.mounted mounted₃) _).mono fun _ g same₅ => ?_
    refine ⟨["Stopping application...", "Settings saved", "Application stopped"], ?_⟩
    rw [same₅, same₄, same₃, same₂, same₁]
    rfl
  · exact goes_done ⟨[], rfl⟩

/-- Closing writes some texts to the status line, and the controller takes user actions or it
    does not. -/
def Gist.Closes (g g' : Gist) : Prop := ∃ texts serving, g' = { g.setTexts texts with serving }

theorem Gist.setStatus_serving (value : Value) (serving : Bool) (g : Gist) :
    { g with serving }.setStatus value = { g.setStatus value with serving } := by
  unfold Gist.setStatus
  dsimp only
  split <;> rfl

theorem Gist.setTexts_serving (texts : List String) (serving : Bool) (g : Gist) :
    { g with serving }.setTexts texts = { g.setTexts texts with serving } := by
  induction texts generalizing g with
  | nil => rfl
  | cons text rest ih =>
      show Gist.setTexts rest ({ g with serving }.setStatus _) = _
      rw [Gist.setStatus_serving, ih]
      rfl

theorem Gist.Closes.refl (g : Gist) : g.Closes g := ⟨[], g.serving, rfl⟩

theorem Gist.Closes.trans {g g₁ g' : Gist} (first : g.Closes g₁) (second : g₁.Closes g') :
    g.Closes g' := by
  obtain ⟨texts, serving, rfl⟩ := first
  obtain ⟨texts', serving', rfl⟩ := second
  refine ⟨texts ++ texts', serving', ?_⟩
  rw [Gist.setTexts_serving, Gist.setTexts_append]

theorem Chained.closes {α : Type} {l : List α} {g g' : Gist}
    (chained : Chained (fun _ => Gist.Closes) l g g') : g.Closes g' := by
  induction l generalizing g with
  | nil => exact chained ▸ .refl g
  | cons a rest ih =>
      obtain ⟨g₁, here, later⟩ := chained
      exact here.trans (ih later)

theorem handleClosing_goes (mounted : Mounted w) :
    Goes (handleClosing (runs (n + 6)) behaviour controller) w fun _ => (gist w).Closes := by
  refine goes_get ?_
  split
  · exact goes_pure (.refl _)
  · refine (stop_goes mounted).bind fun _ w₁ onward₁ stopped => ?_
    let w₂ := updateController controller (fun o => { o with closing := true }) w₁
    have onward₂ : Onward w₁ w₂ :=
      onward_updateController (fun _ => ⟨rfl, rfl, rfl⟩) fun _ => rfl
    have closed : Goes (modify (updateController controller fun o => { o with closing := true })) w₁
        fun _ => (gist w₁).Closes :=
      goes_of_eq rfl onward₂ ⟨[], (gist w₂).serving, onward₂.gist⟩
    refine closed.bind fun _ w₃ onward₃ closes => ?_
    have mounted₃ := onward₃.mounted (onward₁.mounted mounted)
    refine (emitPhase_goes (n := n + 2) mounted₃).mono fun _ g same => ?_
    obtain ⟨texts, same₁⟩ := stopped
    have stops : (gist w).Closes (gist w₁) := ⟨texts, (gist w₁).serving, by rw [same₁]⟩
    rw [same]
    exact stops.trans closes

/-- A view that closes makes the controller close. -/
theorem announceClosing_goes (mounted : Mounted w) (v : Nat) :
    Goes ((runs (n + 8)).client (close v)) w fun _ => (gist w).Closes := by
  refine goes_perform (holdingView_goes mounted v fun w₁ onward₁ same₁ => goes_get ?_)
  have mounted₁ := onward₁.mounted mounted
  rw [← same₁]
  split
  · exact goes_pure (.refl _)
  · have onward₂ : Onward w₁ (updateView v (fun o => { o with closing := true }) w₁) :=
      onward_updateView v (fun _ => ⟨rfl, rfl, rfl⟩) (fun _ => rfl) fun _ => rfl
    have closed : Goes (modify (updateView v fun o => { o with closing := true })) w₁
        fun _ g => g = gist w₁ := by
      refine goes_of_eq rfl onward₂ (onward₂.gist.trans ?_)
      have enabled := blind_updateView w₁ v (fun o => { o with closing := true }) (·.enabled)
        fun _ => rfl
      simp only [gist, enabled]
      rfl
    refine closed.bind fun _ w₃ onward₃ same₃ => ?_
    have mounted₃ := onward₃.mounted mounted₁
    rw [← same₃]
    have emitted : Goes (Ensemble.emit (runs (n + 7)) (.viewClosing v) .closing) w₃ fun _ =>
        Chained (fun _ => Gist.Closes) (w₃.signal (.viewClosing v)).connections (gist w₃) := by
      refine emit_goes mounted₃ ?_
      rintro id ⟨slot, delivery⟩ fits w₄ mounted₄ -
      cases slot with
      | controllerClosing c =>
          obtain ⟨-, rfl, rfl⟩ := fits
          refine ifControllerAlive_goes mounted₄ fun w₅ onward same => ?_
          exact same ▸ handleClosing_goes (onward.mounted mounted₄)
      | client code =>
          cases code with
          | listen t =>
              refine (listen_goes (n := n + 5) fits rfl).mono fun _ g same => ?_
              rw [same, enter_of_ne (by simp) (by simp) (by simp [Channel.status])]
              exact .refl _
          | _ => simp [Fits, Channel.busy, Channel.theme] at fits
      | _ => simp [Fits] at fits
    exact emitted.mono fun _ g => Chained.closes

/-! ## User actions by way of a view -/

/-- The same is done to a gist some times. -/
def Again (step : Gist → Gist → Prop) : Nat → Gist → Gist → Prop
  | 0, g, g' => g' = g
  | n + 1, g, g' => ∃ g₁, step g g₁ ∧ Again step n g₁ g'

theorem Chained.again {α : Type} {p : α → Bool} {step : Gist → Gist → Prop} {l : List α}
    {g g' : Gist} (chained : Chained (fun a g g' => if p a then step g g' else g' = g) l g g') :
    Again step (l.countP p) g g' := by
  induction l generalizing g with
  | nil => exact chained
  | cons a rest ih =>
      obtain ⟨g₁, here, later⟩ := chained
      cases selected : p a with
      | false =>
          rw [List.countP_cons_of_neg (by simp [selected])]
          simp only [selected, Bool.false_eq_true, if_false] at here
          exact here ▸ ih later
      | true =>
          rw [List.countP_cons_of_pos selected]
          simp only [selected, if_true] at here
          exact ⟨g₁, here, ih later⟩

/-- What a user action on a view may come to. -/
def Gist.Reports (view : Nat) (name : String) (data : Value) (g g' : Gist) : Prop :=
  if g.enabled view = true then Again (Acts name data) (g.frame.handlers view) g g' else g' = g

theorem report_goes (mounted : Mounted w) (v : Nat) (name : String) (data : Value) :
    Goes (runs (n + 11) (.action (.report v name data))) w fun _ =>
      (gist w).Reports v name data := by
  refine holdingView_goes mounted v fun w₁ onward₁ same₁ => goes_get ?_
  have mounted₁ := onward₁.mounted mounted
  rw [← same₁]
  have enabled : (gist w₁).enabled v = (w₁.view v).enabled := rfl
  unfold Gist.Reports
  rw [enabled]
  split
  · have emitted : Goes (Ensemble.emit (runs (n + 10)) (.viewAction v) (.action name data)) w₁
        fun _ => Chained
          (fun e g g' => if isHandler e.2 then g.Acts name data g' else g' = g)
          (w₁.signal (.viewAction v)).connections (gist w₁) := by
      refine emit_goes mounted₁ ?_
      rintro id ⟨slot, delivery⟩ fits w₂ mounted₂ -
      cases slot with
      | controllerAction c =>
          obtain ⟨-, rfl, rfl⟩ := fits
          refine ifControllerAlive_goes mounted₂ fun w₃ onward same => ?_
          exact same ▸ handleAction_goes (onward.mounted mounted₂) name data
      | client code =>
          cases code with
          | listen t =>
              refine (listen_goes (n := n + 8) fits rfl).mono fun _ g same => ?_
              rw [enter_of_ne (by simp) (by simp) (by simp [Channel.status])] at same
              exact same
          | _ => simp [Fits, Channel.busy, Channel.theme] at fits
      | _ => simp [Fits] at fits
    exact emitted.mono fun _ g chained => chained.again
  · exact goes_pure rfl

/-! ## The worker -/

/-- The worker's part of an operation comes in pieces. -/
inductive Piece where
  /-- The busy flag is set. -/
  | begins
  /-- The busy flag is cleared. -/
  | ends
  /-- The status line is written. -/
  | tells
  /-- The time is written. -/
  | stamps
  /-- The end is reported, or posted to be reported. -/
  | reports
  deriving DecidableEq

/-- The pieces in order. -/
def Piece.all : List Piece := [begins, ends, tells, stamps, reports]

/-- What is done in a piece. -/
def Piece.code (operation : Operation) : Piece → Program Unit
  | begins => setBusy true
  | ends => setBusy false
  | tells => do
    let _ ← setText Property.status operation.finished
  | stamps => do
    let now ← readClock
    let _ ← set Property.updated (.timestamp now)
  | reports => do
    match ← see fun w => (w.controller controller).dispatcher with
    | some d => Program.perform (Action.post d (.complete operation.completed))
    | none => complete operation.completed

/-- Some pieces, one after another. -/
def bits (operation : Operation) : List Piece → Program Unit
  | [] => pure ()
  | piece :: rest => do
    piece.code operation
    bits operation rest

/-- The pieces are all that the worker does. -/
theorem work_eq (operation : Operation) : work operation = bits operation Piece.all := by
  have last : bits operation [.reports] = Piece.code operation .reports := Program.bind_done _
  unfold Piece.all
  rw [bits, bits, bits, bits, last]
  rfl

/-- What a piece does to the gist. -/
def Gist.does (operation : Operation) (g : Gist) : Piece → Gist
  | .begins => g.setBusy (.bool true)
  | .ends => g.setBusy (.bool false)
  | .tells => g.setStatus (.string operation.finished)
  | .stamps => g
  | .reports => g.report operation.completed

theorem piece_goes (mounted : Mounted w) (background : w.thread = .background)
    (operation : Operation) (piece : Piece) :
    Goes ((runs (n + 6)).client (piece.code operation)) w fun _ g =>
      g = (gist w).does operation piece := by
  cases piece with
  | begins => exact setBusy_goes mounted true
  | ends => exact setBusy_goes mounted false
  | tells =>
      refine (setText_goes mounted operation.finished (by decide)).program fun _ w₁ _ same => ?_
      exact goes_done same
  | stamps =>
      refine (readClock_goes (n := n + 5)).program fun now w₁ onward same => ?_
      refine (set_goes (onward.mounted mounted) (.timestamp now) (by decide)).program ?_
      exact fun _ w₂ _ same' => goes_done (same'.trans same)
  | reports =>
      refine goes_see ?_
      have routed : (gist w).frame.routed = (w.controller controller).dispatcher.isSome := rfl
      simp only [Gist.does, Gist.report, routed]
      cases there : (w.controller controller).dispatcher with
      | none => exact complete_goes (n := n + 3) mounted _
      | some d =>
          obtain rfl := mounted.sole d there
          refine goes_perform (goes_of_eq rfl ⟨steady_post (.complete _), fun here => ?_⟩ ?_)
          · simp [background] at here
          · exact gist_post _ (.complete _)

theorem bits_goes (mounted : Mounted w) (background : w.thread = .background)
    (operation : Operation) (pieces : List Piece) :
    Goes ((runs (n + 6)).client (bits operation pieces)) w fun _ g =>
      g = pieces.foldl (Gist.does operation) (gist w) := by
  induction pieces generalizing w with
  | nil => exact goes_done rfl
  | cons piece rest ih =>
      refine (piece_goes mounted background operation piece).program fun _ w₁ onward same => ?_
      rw [List.foldl_cons, ← same]
      exact ih (onward.mounted mounted) (onward.thread.trans background)

/-- Some pieces are done on the worker's own thread. -/
def Gist.behind (operation : Operation) (pieces : List Piece) (g : Gist) : Gist :=
  { pieces.foldl (does operation) { g with thread := .background } with thread := g.thread }

theorem bits_moves (mounted : Mounted w) (operation : Operation) (pieces : List Piece) :
    Moves (inBackground ((runs (n + 6)).client (bits operation pieces))) w fun _ g =>
      g = (gist w).behind operation pieces := by
  have inner := bits_goes (n := n) (mounted.onThread .background) rfl operation pieces
  rw [gist_thread] at inner
  refine (inBackground_moves inner).mono ?_
  rintro _ g ⟨g', rfl, rfl⟩
  rfl

/-- The worker does an operation. -/
def Gist.work (g : Gist) (operation : Operation) : Gist :=
  let g' := g.behind operation Piece.all
  { g' with worker := g'.worker.finish }

section Programs

variable {run : Runner Code State} {ρ τ : Type} {mid : ρ → Gist → Prop} {post : τ → Gist → Prop}

theorem Moves.program {p : Program ρ} {f : ρ → Program τ} (first : Moves (run.client p) w mid)
    (rest : ∀ r w₁, Steady w w₁ → mid r (gist w₁) → Moves (run.client (f r)) w₁ post) :
    Moves (run.client (p >>= f)) w post := by
  unfold Runner.client
  rw [Program.run_bind]
  exact first.bind rest

end Programs

theorem finish_goes :
    Goes ((runs (n + 1)).client (change fun s => { s with worker := s.worker.finish })) w fun _ g =>
      g = { gist w with worker := (gist w).worker.finish } :=
  changeTo_goes _ (fun _ => rfl) fun _ _ => rfl

theorem workOff_moves (mounted : Mounted w) (operations : List Operation) :
    Moves ((runs (n + 8)).client (workOff operations)) w fun _ g =>
      g = operations.foldl Gist.work (gist w) := by
  induction operations generalizing w with
  | nil => exact Goes.moves (goes_done rfl)
  | cons operation rest ih =>
      have worked : Moves ((runs (n + 8)).client (.perform
          (Action.inBackground (.perform (.work operation))))) w fun _ g =>
            g = (gist w).behind operation Piece.all := by
        have moves := bits_moves (n := n) mounted operation Piece.all
        rw [← work_eq] at moves
        unfold Runner.client
        rw [Program.run_perform]
        exact moves
      refine worked.program fun _ w₁ steady₁ same₁ => ?_
      refine (finish_goes (n := n + 7)).moves.program fun _ w₂ steady₂ same₂ => ?_
      have here : gist w₂ = (gist w).work operation := by
        rw [same₂, same₁]
        rfl
      rw [List.foldl_cons, ← here]
      exact ih ((steady₁.trans steady₂).mounted mounted)

/-- Waiting for the worker is having it do all its operations. -/
theorem awaitWorker_moves (mounted : Mounted w) :
    Moves ((runs (n + 8)).client awaitWorker) w fun _ g =>
      g = (gist w).worker.queue.foldl Gist.work (gist w) :=
  workOff_moves mounted w.client.worker.queue

/-! ## The dispatcher -/

theorem task_goes {t : Task Code} (mounted : Mounted w) (chore : IsChore t) :
    Goes (runs (n + 6) (.task t)) w fun _ g =>
      g = ((Errand.ofTask? t).toList).foldl Gist.perform (gist w) := by
  cases chore with
  | data s id =>
      refine goes_get ?_
      split
      · exact dataChanged_goes mounted
      · exact goes_pure rfl
  | busy id v busy =>
      refine goes_get ?_
      have connected : (gist w).frame.connected id = (w.signal Channel.busy).isConnected id := rfl
      simp only [Errand.ofTask?, Option.toList_some, List.foldl_cons, List.foldl_nil, Gist.perform,
        connected]
      split
      · exact follow_goes (n := n + 3) mounted v busy
      · exact goes_pure rfl
  | complete message => exact complete_goes (n := n + 2) mounted message

theorem Gist.perform_waiting (errands : List Errand) (waiting : List Errand) (g : Gist) :
    errands.foldl perform { g with waiting } = { errands.foldl perform g with waiting } := by
  induction errands generalizing g with
  | nil => rfl
  | cons errand rest ih =>
      have first : { g with waiting }.perform errand = { g.perform errand with waiting } := by
        cases errand with
        | complete message => rfl
        | tell id v busy =>
            simp only [perform]
            split <;> rfl
      rw [List.foldl_cons, List.foldl_cons, first, ih]

/-- Counters of a dispatcher do not matter, its queue does. -/
theorem steady_queue (f : Dispatcher (Task Code) → Dispatcher (Task Code))
    (fewer : ∀ t ∈ (f (w.dispatcher dispatcher)).queue, t ∈ queue w) :
    Steady w (updateDispatcher dispatcher f w) ∧
      gist (updateDispatcher dispatcher f w) =
        { gist w with
          waiting := (f (w.dispatcher dispatcher)).queue.filterMap Errand.ofTask? } := by
  have queued : queue (updateDispatcher dispatcher f w) = (f (w.dispatcher dispatcher)).queue := by
    rw [queue, dispatcher_updateDispatcher, if_pos rfl]
  have steady : Steady w (updateDispatcher dispatcher f w) :=
    ⟨rfl, signal_updateDispatcher w dispatcher f, rfl, fun _ => rfl, fun _ => rfl, rfl,
      fun t member => .inl (fewer t (queued ▸ member))⟩
  refine ⟨steady, steady.gist.trans ?_⟩
  simp only [gist, queued]
  rfl

theorem drain_moves {tasks : List (Task Code)} {fuel : Nat} (mounted : Mounted w)
    (presentation : w.thread = .presentation) (waiting : queue w = tasks)
    (enough : tasks.length < fuel) :
    Moves (Ensemble.drain (runs (n + 6)) dispatcher fuel) w fun _ g =>
      g = (tasks.filterMap Errand.ofTask?).foldl Gist.perform { gist w with waiting := [] } := by
  induction tasks generalizing w fuel with
  | nil =>
      obtain ⟨fuel, rfl⟩ : ∃ more, fuel = more + 1 := ⟨fuel - 1, by omega⟩
      have none : (w.dispatcher dispatcher).next? = none := by
        simp only [Dispatcher.next?, show (w.dispatcher dispatcher).queue = [] from waiting]
      have nothing : (gist w).waiting = [] := by
        show (queue w).filterMap Errand.ofTask? = []
        rw [waiting, List.filterMap_nil]
      unfold drain
      refine moves_get ?_
      rw [none]
      refine moves_of_eq rfl (.refl w) ?_
      rw [List.filterMap_nil, List.foldl_nil, ← nothing]
  | cons t rest ih =>
      obtain ⟨fuel, rfl⟩ : ∃ more, fuel = more + 1 := ⟨fuel - 1, by omega⟩
      have next : (w.dispatcher dispatcher).next? =
          some (t, { w.dispatcher dispatcher with queue := rest }) := by
        simp only [Dispatcher.next?, show (w.dispatcher dispatcher).queue = t :: rest from waiting]
      have chore : IsChore t := mounted.chores t (by rw [waiting]; exact List.mem_cons_self)
      unfold drain
      refine moves_get ?_
      rw [next]
      -- The task is taken from the queue, it is run, and it is counted.
      obtain ⟨taken, taken'⟩ := steady_queue (w := w)
        (fun _ => { w.dispatcher dispatcher with queue := rest })
        (fun u member => by rw [waiting]; exact List.mem_cons_of_mem _ member)
      refine moves_after rfl taken ?_
      have queued : queue (updateDispatcher dispatcher
          (fun _ => { w.dispatcher dispatcher with queue := rest }) w) = rest := by
        rw [queue, dispatcher_updateDispatcher, if_pos rfl]
      obtain ⟨_, w₂, ran, onward, same₂⟩ := task_goes (n := n) (taken.mounted mounted) chore
      refine moves_after ran onward.toSteady ?_
      have queued₂ : queue w₂ = rest :=
        (onward.still (taken.thread.trans presentation)).trans queued
      obtain ⟨counted, counted'⟩ := steady_queue (w := w₂) Dispatcher.finish fun _ => id
      refine moves_after rfl counted ?_
      have steady := (taken.trans onward.toSteady).trans counted
      have queued₃ : queue (updateDispatcher dispatcher Dispatcher.finish w₂) = rest := by
        rw [queue, dispatcher_updateDispatcher, if_pos rfl]
        exact queued₂
      have enough' : rest.length < fuel := by simpa using enough
      have later := ih (steady.mounted mounted) (steady.thread.trans presentation) queued₃ enough'
      refine later.bind fun _ w₄ _ same₄ => moves_of_eq rfl (.refl w₄) (same₄.trans ?_)
      have through : { gist (updateDispatcher dispatcher Dispatcher.finish w₂) with waiting := [] } =
          (Errand.ofTask? t).toList.foldl Gist.perform { gist w with waiting := [] } := by
        rw [Gist.perform_waiting, counted', same₂, taken', Gist.perform_waiting]
      rw [through, ← List.foldl_append]
      cases h : Errand.ofTask? t <;> simp [h]

/-- Draining the dispatcher does all errands that wait. -/
theorem drainAll_moves (mounted : Mounted w) (presentation : w.thread = .presentation)
    (enough : (queue w).length < n + 6) :
    Moves (runs (n + 7) (.action (.drain dispatcher))) w fun _ g => g = (gist w).drain :=
  drain_moves mounted presentation rfl enough

end Mvc.App
