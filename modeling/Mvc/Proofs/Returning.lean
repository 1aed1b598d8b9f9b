import Mvc.Proofs.Sparing

/-! # What survives a restart

When the application stops, it keeps user and theme in its settings, and the service keeps these
in a file when it stops. The next session with this file begins with them (`texts_survive`).

Before the application stops, the texts stand in the model, and from then on in the settings
(`Kept`). Until the application is stopped for good, only views close and the worker works, and
nobody else writes the texts; after that nobody writes the settings. What comes in between the
two sessions is the file.
-/

namespace Mvc.App

open Ensemble Proc

variable {u t path : String} {files : Files} {w w₁ w' : Whole} {depth : Nat}

/-! ## Texts in the model and in the settings -/

/-- User and theme, as the model knows them. -/
def Knows (u t : String) (w : Whole) : Prop :=
  textOf (properties w) Property.user = u ∧ textOf (properties w) Property.theme = t

/-- User and theme, as the settings keep them. -/
def Stored (u t : String) (s : Service) : Prop :=
  s.settings.values.get? userKey = some (.string u) ∧
    s.settings.values.get? themeKey = some (.string t)

/-- The texts stand in the model until the application stops, and then in the settings. -/
def Kept (u t : String) (w : Whole) : Prop :=
  if w.client.started then Knows u t w else Stored u t w.client.service

/-- As long as the application is not started, stopping does nothing. -/
theorem stop_resting (resting : w.client.started = false) :
    Ends ((runs depth).client App.stop) w fun _ w' => w' = w := by
  refine ends_see ?_
  rw [resting]
  exact (ends_pure _ _ _).mpr rfl

/-- What is spared goes on to hold if the application is not started. -/
theorem sparing_resting {spared : List String} {K : Whole → Prop}
    (only : ∀ name ∈ spared, name ∉ indicators)
    (same : ∀ {w w' : Whole}, w'.client.service = w.client.service →
      (∀ name ∈ spared, (properties w').get name = (properties w).get name) → K w → K w') :
    Sparing spared fun w => w.client.started = false ∧ K w where
  only := only
  same service started texts holds := ⟨started.trans holds.1, same service texts holds.2⟩
  stop _ _ _ holds := (stop_resting holds.1).mono fun _ _ rests => rests ▸ holds

/-- The properties that hold user and theme. -/
def texts : List String := [Property.user, Property.theme]

theorem only_texts : ∀ name ∈ texts, name ∉ indicators := by decide

theorem knows_of_same (same : ∀ name ∈ texts, (properties w').get name = (properties w).get name)
    (knows : Knows u t w) : Knows u t w' := by
  have user := same Property.user (by simp [texts])
  have theme := same Property.theme (by simp [texts])
  rwa [Knows, textOf, textOf, user, theme]

theorem sparing_knows (u t : String) :
    Sparing texts fun w => w.client.started = false ∧ Knows u t w :=
  sparing_resting only_texts fun _ same => knows_of_same same

theorem sparing_stored (u t : String) :
    Sparing texts fun w => w.client.started = false ∧ Stored u t w.client.service :=
  sparing_resting only_texts fun service _ stored => service ▸ stored

/-! ## Stopping -/

theorem change_ends (f : State → State) (w : Whole) :
    Ends ((runs depth).client (change f)) w fun _ w' => w' = { w with client := f w.client } := by
  refine ends_perform ?_
  cases depth with
  | zero => exact fun _ _ ran => nomatch ran
  | succ depth => exact (ends_modify _ w _).mpr rfl

theorem held_client (held : Held w) (s : State) : Held { w with client := s } :=
  ⟨held.controllers, held.views⟩

theorem keep_ends (key name : String) (w : Whole) :
    Ends ((runs depth).client (keep key name)) w fun _ w' =>
      ∃ s : State, w' = { w with client := s } ∧ s.started = w.client.started ∧
        s.service.settings =
          (w.client.service.settings.set key (.string (textOf (properties w) name))).after :=
  ends_see ((change_ends _ w).mono fun _ _ same => ⟨_, same, rfl, rfl⟩)

theorem normal_keys : Key.IsNormal userKey ∧ Key.IsNormal themeKey := by decide +kernel

theorem stored_of_set {s s₁ s' : Service}
    (user : s₁.settings = (s.settings.set userKey (.string u)).after)
    (theme : s'.settings = (s₁.settings.set themeKey (.string t)).after) : Stored u t s' := by
  have apart : userKey ≠ themeKey := by decide
  obtain ⟨first, second⟩ := normal_keys
  constructor
  · rw [theme, Settings.get?_set, second.2, if_neg fun both => apart both.1, user,
      Settings.get?_set, first.2, if_pos ⟨rfl, first.1⟩]
    rfl
  · rw [theme, Settings.get?_set, second.2, if_pos ⟨rfl, second.1⟩]
    rfl

theorem saveSettings_ends (held : Held w) (resting : w.client.started = false)
    (knows : Knows u t w) : Ends ((runs depth).client saveSettings) w fun _ w' =>
      Held w' ∧ w'.client.started = false ∧ Stored u t w'.client.service := by
  have told : Keeps (Minds fun w => w.client.started = false ∧ Stored u t w.client.service)
      ((runs depth).client (emit Channel.settingsSaved .plain)) :=
    (sparing_stored u t).client depth (emit_allowed _ rfl)
  obtain ⟨rfl, rfl⟩ := knows
  refine ends_program ((keep_ends _ _ w).mono ?_)
  rintro _ _ ⟨s₁, rfl, started, user⟩
  refine ends_program ((keep_ends _ _ _).mono ?_)
  rintro _ _ ⟨s₂, rfl, started', theme⟩
  refine (told _).mono fun _ w' minds => ?_
  obtain ⟨held', on⟩ := minds (held_client (held_client held s₁) s₂)
  exact ⟨held', on ⟨started'.trans (started.trans resting), stored_of_set user theme⟩⟩

/-- When the application stops, the texts are kept in the settings. -/
theorem stop_ends (held : Held w) (running : w.client.started = true) (knows : Knows u t w) :
    Ends ((runs depth).client App.stop) w fun _ w' =>
      w'.client.started = false ∧ Stored u t w'.client.service := by
  have status := (sparing_knows u t).client depth
    (updateStatus_allowed (sparing_knows u t).lax "Stopping application...")
  have told : ∀ message, Keeps (Minds fun w => w.client.started = false ∧ Stored u t w.client.service)
      ((runs depth).client (updateStatus message)) := fun message =>
    (sparing_stored u t).client depth (updateStatus_allowed (sparing_stored u t).lax message)
  refine ends_see ?_
  rw [running]
  refine ends_program ((change_ends _ w).mono ?_)
  rintro _ _ rfl
  refine ends_program ((status _).mono fun _ w₁ minds => ?_)
  obtain ⟨held₁, on⟩ := minds (held_client held _)
  obtain ⟨resting, knows₁⟩ := on ⟨rfl, knows⟩
  refine ends_program ((saveSettings_ends held₁ resting knows₁).mono fun _ w₂ saved => ?_)
  refine ends_program ((told _ w₂).mono fun _ w₃ minds => (told _ w₃).mono fun _ w' minds' => ?_)
  obtain ⟨held₃, on⟩ := minds saved.1
  exact (minds' held₃).2 (on saved.2)

theorem kept_of_stored (resting : w.client.started = false) (stored : Stored u t w.client.service) :
    Kept u t w := by
  rw [Kept, resting]
  exact stored

theorem sparing_kept (u t : String) : Sparing texts (Kept u t) where
  only := only_texts
  same service started texts kept := by
    unfold Kept at *
    rw [started, service]
    split
    · next running => exact knows_of_same texts (by rwa [if_pos running] at kept)
    · next resting => rwa [if_neg resting] at kept
  stop depth w held kept := by
    cases running : w.client.started with
    | false => exact (stop_resting running).mono fun _ _ rests => rests ▸ kept
    | true =>
        rw [Kept, running] at kept
        refine (stop_ends held running kept).mono fun _ w' stopped => ?_
        exact kept_of_stored stopped.1 stopped.2

/-! ## Until the application is stopped for good -/

/-- A view closes, the application stops, the worker works, or somebody writes the status line. -/
def Act.IsCalm : Act → Prop
  | step (.deed (.turn t)) => t.IsCalm
  | step (.deed (.ask _ (.updateStatus _))) => True
  | _ => False

theorem Act.keeps_kept {a : Act} (calm : a.IsCalm) (depth : Nat) (left : Option (List Piece)) :
    Keeps (Minds (Kept u t)) (a.perform depth left) := by
  have spares := sparing_kept u t
  have tends := spares.tends depth
  have order := tends.order
  cases a with
  | store r => exact calm.elim
  | step s =>
      cases s with
      | deed d =>
          cases d with
          | turn t => exact tends.turn spares.lax calm left
          | arrange a => exact calm.elim
          | ask thread r =>
              cases r with
              | updateStatus message =>
                  have told := tends.program (updateStatus_allowed spares.lax message)
                  cases thread with
                  | presentation => exact .bind order told fun _ => .pure order left
                  | background =>
                      exact .bind order (tends.inBackground told) fun _ => .pure order left
              | _ => exact calm.elim
      | _ => exact calm.elim

/-! ## Setting up again -/

/-- A text that is accepted is known afterwards. -/
theorem setText_ends {name text : String} (ours : name ∈ texts)
    (accepted : accepts name (.string text) = true) (held : Held w)
    (resting : w.client.started = false) :
    Ends ((runs depth).client (setText name text)) w fun _ w' =>
      Held w' ∧ w'.client.started = false ∧ (properties w').get name = .string text := by
  have spares : Sparing [name] fun w => w.client.started = false ∧
      (properties w).get name = .string text :=
    sparing_resting (fun n member => List.mem_singleton.mp member ▸ only_texts name ours)
      fun _ same known => (same name (List.mem_singleton_self name)).trans known
  have known : (properties (updateStore model (·.write name (.string text)) w)).get name =
      .string text := by
    rw [properties, updateStore, model_updateModel, if_pos rfl, Store.get_write, if_pos rfl]
  exact (spares.set_ends held accepted (fun same => ⟨resting, same⟩) ⟨resting, known⟩ depth).mono
    fun _ _ => And.right

theorem settingText_of_stored {s : Settings} {key text standard : String}
    (normal : Key.IsNormal key) (stored : s.values.get? key = some (.string text)) : settingText s key standard = text := by
  rw [settingText, Settings.get?, normal.2, stored]
  rfl

/-- Whatever the model knew before, it knows the texts in the settings then. -/
theorem loadSettings_ends (theme : isTheme t = true) (held : Held w)
    (resting : w.client.started = false) (stored : Stored u t w.client.service) :
    Ends ((runs depth).client loadSettings) w fun _ w' =>
      Held w' ∧ w'.client.started = false ∧ Knows u t w' := by
  refine ends_see ?_
  rw [settingText_of_stored normal_keys.1 stored.1, settingText_of_stored normal_keys.2 stored.2]
  refine ends_program ((setText_ends (by simp [texts]) (by rfl) held resting).mono ?_)
  rintro _ w₁ ⟨held₁, resting₁, user⟩
  have spares : Sparing [Property.user] fun w => w.client.started = false ∧
      (properties w).get Property.user = .string u :=
    sparing_resting (by decide)
      fun _ same known => (same _ (List.mem_singleton_self _)).trans known
  have themed : Keeps (Minds _) ((runs depth).client (setText Property.theme t)) :=
    spares.client depth (set_allowed (show Property.theme ∉ [Property.user] by decide) _)
  have named : Ends ((runs depth).client (setText Property.theme t)) w₁ fun _ w' =>
      Held w' ∧ w'.client.started = false ∧ (properties w').get Property.theme = .string t :=
    setText_ends (by simp [texts]) (by simpa [accepts, Value.asString?] using theme) held₁ resting₁
  refine ends_program ((named.and (themed w₁)).mono fun _ w₂ both => ?_)
  obtain ⟨⟨held₂, resting₂, name⟩, minds⟩ := both
  have known : Knows u t w₂ := by
    rw [Knows, textOf, textOf, name, ((minds held₁).2 ⟨resting₁, user⟩).2]
    exact ⟨rfl, rfl⟩
  have told : Keeps (Minds fun w => w.client.started = false ∧ Knows u t w)
      ((runs depth).client (emit Channel.settingsLoaded .plain)) :=
    (sparing_knows u t).client depth (emit_allowed _ rfl)
  refine (told w₂).mono fun _ w' minds => ?_
  obtain ⟨held', on⟩ := minds held₂
  exact ⟨held', on ⟨resting₂, known⟩⟩

/-- An application that is set up knows the texts in its settings. -/
theorem knows_of_setUp (theme : isTheme t = true) (held : Held w)
    (resting : w.client.started = false) (stored : Stored u t w.client.service) :
    Ends ((runs depth).client setUp) w fun r w' => r = .ok () → Knows u t w' := by
  rw [setUp_eq]
  have rests : Keeps _ ((runs depth).client setUpParts) := resting_ledger.client Ledger.setUpParts
  have holds : Keeps _ ((runs depth).client setUpParts) := held_ledger.client Ledger.setUpParts
  refine ends_program (((rests w).and (holds w)).mono fun r₁ w₁ both => ?_)
  obtain ⟨resting₁, same⟩ := both.1 resting
  have held₁ := both.2 held
  cases r₁ with
  | error e => exact (ends_pure _ _ _).mpr nofun
  | ok =>
      have stored₁ : Stored u t w₁.client.service := same ▸ stored
      refine ends_program ((loadSettings_ends theme held₁ resting₁ stored₁).mono fun _ w₂ known => ?_)
      have told := (sparing_knows u t).client depth
        (updateStatus_allowed (sparing_knows u t).lax "Settings loaded")
      refine ends_program ((told w₂).mono fun _ w' minds => (ends_pure _ _ _).mpr fun _ => ?_)
      exact ((minds known.1).2 known.2).2

/-! ## Setting up succeeds -/

/-- The parts know each other, and the controller is not set up. -/
structure Joined (w : Whole) : Prop where
  model : (w.controller controller).model = some model
  view : ∃ v, (w.controller controller).view = some v ∧ (w.client.screens.get v).hasModel = true
  unset : (w.controller controller).initialized = false

section Results

variable {n : Nat} {α : Type} {run : Runner Code State} {p : Proc Whole α} {post : α → Prop}

theorem holdingController_result (c : Nat)
    (inner : Ends p (holders c (·.held) (·.pins + 1) w) fun r _ => post r) :
    Ends (holdingController run c p) w fun r _ => post r :=
  .modify_bind (.bind (inner.mono fun _ _ holds =>
    .modify_bind (.bind fun _ _ _ => (ends_pure _ _ _).mpr holds)))

theorem holdingView_result (v : Nat) (inner : Ends p (pinView v w) fun r _ => post r) :
    Ends (holdingView run v p) w fun r _ => post r :=
  .modify_bind (.bind (inner.mono fun _ _ holds =>
    .modify_bind (.bind fun _ _ _ => (ends_pure _ _ _).mpr holds)))

theorem initializeModel_result :
    Ends (runs (n + 2) (.action (.initializeModel model))) w fun r _ => r = .ok () := by
  refine .get_bind ?_
  split
  · exact (ends_pure _ _ _).mpr rfl
  · refine .bind_of_eq (populate_eq w) (.get_bind ?_)
    split
    · exact (ends_pure _ _ _).mpr rfl
    · exact .modify_bind (.bind fun _ _ _ => (ends_pure _ _ _).mpr rfl)

theorem initializeView_result {v : Nat} (hasModel : (w.client.screens.get v).hasModel = true) :
    Ends (runs (n + 1) (.action (.initializeView v))) w fun r _ => r = .ok () := by
  refine holdingView_result v (.get_bind ?_)
  split
  · exact (ends_pure _ _ _).mpr rfl
  · have asked : (runs n).client (behaviour.viewSetup v) (pinView v w) =
        some (.ok (), pinView v w) := by
      show some (if (w.client.screens.get v).hasModel then _ else _, _) = _
      rw [if_pos hasModel]
    exact .bind_of_eq asked (.modify_bind ((ends_pure _ _ _).mpr rfl))

theorem initializeController_result :
    Ends (runs (n + 1) (.action (.initializeController controller))) w fun r _ => r = .ok () := by
  refine holdingController_result controller (.get_bind ?_)
  split
  · exact (ends_pure _ _ _).mpr rfl
  · refine .bind_of_eq (a := .ok ()) rfl (.modify_bind ?_)
    exact .bind fun _ _ _ => .bind fun _ _ _ => (ends_pure _ _ _).mpr rfl

/-- Setting up succeeds if a view that knows the model is bound, and the model. -/
theorem setUp_result (held : Held w) (joined : Joined w) :
    Ends ((runs (n + 3)).client setUp) w fun r _ => r = .ok () := by
  obtain ⟨v, view, hasModel⟩ := joined.view
  refine ends_see ?_
  rw [joined.model, view]
  have filled := ((deals_sustains (n + 3)).fill w).and (initializeModel_result (n := n + 1))
  refine ends_program (ends_perform (filled.mono ?_))
  rintro _ w₁ ⟨sustains, rfl⟩
  have hasModel₁ := ((sustains held).1.hasModel v).trans hasModel
  refine ends_program (ends_perform ((initializeView_result (n := n + 2) hasModel₁).mono ?_))
  rintro _ w₂ rfl
  refine ends_program (ends_perform ((initializeController_result (n := n + 2)).mono ?_))
  rintro _ w₃ rfl
  exact ends_program fun _ _ _ => ends_program fun _ _ _ => (ends_pure _ _ _).mpr rfl

end Results

/-- Setting up for the first time comes to an end, and succeeds. -/
theorem setUp_reaches (tied : Tied w) (held : Held w) (joined : Joined w) :
    Reaches ((runs 9).client setUp) w fun r _ => r = .ok () := by
  have fair : Request.fill.Fair w := fun _ ready => by
    simp [isReady, joined.unset] at ready
  obtain ⟨r, w', ran, -⟩ := setUp_fares (n := 0) tied fair
  exact ⟨r, w', ran, setUp_result (n := 6) held joined r w' ran⟩

/-! ## From one session to the next -/

/-- A service reads its file, and these are the parts of an application with it. -/
inductive Opens (path : String) (files : Files) : Whole → Prop
  | of {read : Service.Change} (started : (Service.unread path).start files = (.ok (), read))
      (config : Config) (hasDispatcher : Bool) (clock : Instant) :
      Opens path files (parts config read.after files hasDispatcher clock)

/-- The application stops, and until then nobody writes anything but the status line. From then on
    it is idle, and at last its service stops and keeps its settings in the file. -/
inductive Quits (m : Moment) : Service → Files → Prop
  | of {leaving rest : List Act} {m₁ m₂ : Moment} {files : Files} {c : Service.Change}
      (leaves : Period m leaving m₁) (calm : ∀ a ∈ leaving, a.IsCalm)
      (stopped : m₁.whole.client.started = false)
      (rests : Period m₁ rest m₂) (idle : ∀ a ∈ rest, a.IsIdle)
      (saved : m₂.whole.client.service.stop m₂.whole.client.files = (files, .ok (), c)) :
      Quits m m₂.whole.client.service files

/-- The texts are known to an application once it is set up. -/
structure Recalls (u t : String) (w : Whole) : Prop where
  /-- Whatever happens before, they are known if setting up succeeds. -/
  known : ∀ {acts m}, Period ⟨w, none⟩ acts m → (∀ a ∈ acts, a.IsIdle) →
    ∀ {depth w'}, (runs depth).client setUp m.whole = some (.ok (), w') → Knows u t w'
  /-- It succeeds the first time if the parts are joined and all that was asked before is fair. -/
  succeeds : ∀ {deeds m}, Sequel (fun w d => d.Fair w) w deeds m →
    (∀ d ∈ deeds, (Step.deed d).IsIdle) → Joined m.whole →
    ∃ depth w', (runs depth).client setUp m.whole = some (.ok (), w') ∧ Knows u t w'

theorem Opens.held (opens : Opens path files w) : Held w := by
  cases opens with
  | of started config hasDispatcher clock => exact (current_parts _ _ _ _ _).toHeld

theorem Opens.serves (opens : Opens path files w) : Service.Serves path w.client.service := by
  cases opens with
  | of started config hasDispatcher clock => exact Service.serves_of_start started

/-- Deeds are what happens in a period. -/
theorem Sequel.period {allowed : Whole → Deed → Prop} {deeds : List Deed} {m : Moment}
    (sequel : Sequel allowed w deeds m) :
    Period ⟨w, none⟩ (deeds.map fun d => .step (.deed d)) m := by
  induction sequel with
  | begins => exact .begins
  | deed d before admitted done ih =>
      rw [List.map_append]
      exact ih.act (.step (.deed d)) done

/-- What the settings keep is known when the application is set up. -/
theorem recalls_of_stored (theme : isTheme t = true) (opens : Opens path files w)
    (stored : Stored u t w.client.service) : Recalls u t w := by
  have resting : w.client.started = false := by
    cases opens
    rfl
  have known : ∀ {acts m}, Period ⟨w, none⟩ acts m → (∀ a ∈ acts, a.IsIdle) →
      ∀ {depth w'}, (runs depth).client setUp m.whole = some (.ok (), w') → Knows u t w' := by
    intro acts m period idle depth w' ran
    have held : Held m.whole := held_ledger.keeps held_writable period opens.held
    obtain ⟨resting', same⟩ := resting_ledger.keeps_idly period idle resting
    exact knows_of_setUp theme held resting' (same ▸ stored) _ _ ran rfl
  refine ⟨known, fun {deeds m} sequel idle joined => ?_⟩
  have period := sequel.period
  have held : Held m.whole := held_ledger.keeps held_writable period opens.held
  have tied : Tied m.whole := by
    cases opens
    exact ((tied_parts _ _ _ _ _).sequel rfl sequel).2
  obtain ⟨_, w', ran, rfl⟩ := setUp_reaches tied held joined
  refine ⟨9, w', ran, known period (fun a member => ?_) ran⟩
  obtain ⟨d, listed, rfl⟩ := List.mem_map.mp member
  exact idle d listed

/-- When the service stops, its settings keep the texts. -/
theorem Quits.stored {m : Moment} {s : Service} (held : Held m.whole) (kept : Kept u t m.whole)
    (quits : Quits m s files) : Stored u t s := by
  obtain ⟨leaves, calm, stopped, rests, idle, -⟩ := quits
  have left : Minds (Kept u t) m.whole _ := leaves.keeps (minds_composes _)
    fun a member depth left => a.keeps_kept (calm a member) depth left
  have kept₁ := (left held).2 kept
  rw [Kept, stopped] at kept₁
  obtain ⟨-, same⟩ := resting_ledger.keeps_idly rests idle stopped
  exact same ▸ kept₁

/-- User and theme survive a restart. Whatever an application did, what it knows when it is about to
    stop is known to the next one with the same file, once this one is set up: the file can be read,
    and setting up succeeds and finds the texts, whatever they were replaced by in between. What else
    the settings keep must not be a map, nor go below the keys of the texts. -/
theorem texts_survive {files files' : Files} {m : Moment} {acts : List Act} {s : Service}
    (opens : Opens path files w) (ran : Period ⟨w, none⟩ acts m)
    (started : m.whole.client.started = true) (knows : Knows u t m.whole)
    (theme : isTheme t = true) (quits : Quits m s files') (keepable : s.Keepable path)
    (alone : ∀ k ∈ s.settings.values.keys, ¬Key.IsBelow k userKey ∧ ¬Key.IsBelow k themeKey) :
    (∃ c, (Service.unread path).start files' = (.ok (), c)) ∧
      ∀ w', Opens path files' w' → Recalls u t w' := by
  have held : Held m.whole := held_ledger.keeps held_writable ran opens.held
  have kept : Kept u t m.whole := by
    rw [Kept, started]
    exact knows
  have stored := quits.stored held kept
  have goes : Service.Continues w.client.service m.whole.client.service :=
    serving_ledger.keeps serving_writable ran
  cases quits with
  | @of leaving rest m₁ m₂ _ c leaves calm stopped rests idle saved =>
      have goes₁ : Service.Continues _ m₁.whole.client.service :=
        serving_ledger.keeps serving_writable leaves
      have goes₂ : Service.Continues _ m₂.whole.client.service :=
        serving_ledger.keeps serving_writable rests
      have serves := ((goes.trans goes₁).trans goes₂).serves opens.serves
      obtain ⟨read, reads, texts⟩ := Service.start_of_stop serves keepable saved
      refine ⟨⟨read, reads⟩, fun w' opens' => recalls_of_stored theme opens' ?_⟩
      have stored' : Stored u t read.after :=
        ⟨texts userKey u stored.1 fun k listed => (alone k listed).1,
          texts themeKey t stored.2 fun k listed => (alone k listed).2⟩
      cases opens' with
      | of started' config hasDispatcher clock =>
          rw [reads] at started'
          cases started'
          exact stored'

/-! ## A small session -/

section Small

/-- Deeds of which it is checked what they come to, while the worker has nothing at hand. -/
theorem period_of_check {deeds : List Deed} {m : Moment} {P : Moment → Prop} [DecidablePred P]
    (free : m.left = none)
    (checked : (play (fun _ _ => True) deeds m).any (fun m' => P m') = true) :
    ∃ m', Period m (deeds.map fun d => .step (.deed d)) m' ∧ P m' := by
  obtain ⟨w, _⟩ := m
  cases free
  obtain ⟨m', sequel, holds⟩ := sequel_of_check checked
  exact ⟨m', sequel.period, holds⟩

/-- The user chooses a theme, and the user is named. -/
def evening : List Deed :=
  settingUp ++ [.arrange .start, .turn (.act "theme" (.string "light")),
    .ask .presentation (.set Property.user (.string "ada"))]

/-- The view closes, and the application is shut down. -/
def closing : List Deed := [.turn (.close 0), .turn .halt]

/-- The worker finishes, and the dispatcher is drained. -/
def clearing : List Deed := [.turn .wait, .turn .drain]

/-- The parts are put together with a view. -/
def joining : List Deed :=
  [.arrange .assemble, .arrange (.makeView true), .arrange (.bindView (some 0))]

/-- The parts of an application with a dispatcher, whose service has read the settings. -/
def opened (files : Files) : Whole :=
  parts .standard ((Service.unread "settings.toml").start files).2.after files true .epoch

theorem opens_opened (reads : ((Service.unread "settings.toml").start files).1 = .ok ()) :
    Opens "settings.toml" files (opened files) := by
  unfold opened
  rcases started : (Service.unread "settings.toml").start files with ⟨r, read⟩
  rw [started] at reads
  cases reads
  exact .of started _ _ _

instance : DecidablePred Joined := fun w =>
  decidable_of_iff ((w.controller controller).model = some model ∧
      (w.controller controller).view.any (fun v => (w.client.screens.get v).hasModel) = true ∧
      (w.controller controller).initialized = false) (by
    constructor
    · rintro ⟨model, known, unset⟩
      cases view : (w.controller controller).view with
      | none => simp [view] at known
      | some v => exact ⟨model, ⟨v, view, by simpa [view] using known⟩, unset⟩
    · rintro ⟨model, ⟨v, view, known⟩, unset⟩
      exact ⟨model, by simpa [view] using known, unset⟩)

/-- What the service keeps are values without parts, under short keys, none of which goes below
    that of a text. -/
def Modest (s : Service) : Prop :=
  ∀ e ∈ s.settings.values.entries, e.2.depth = 0 ∧ (Key.path e.1).length ≤ 2 ∧
    ¬Key.IsBelow e.1 userKey ∧ ¬Key.IsBelow e.1 themeKey

instance : DecidablePred Modest := fun _ => inferInstanceAs (Decidable (∀ _ ∈ _, _ ∧ _))

/-- The settings are kept in the file without a fault, and the application can be joined again. -/
def Closed (m : Moment) : Prop :=
  let left := m.whole.client.service.stop m.whole.client.files
  Modest m.whole.client.service ∧ left.2.1.toOption = some () ∧
    (play (fun w d => d.Fair w) joining ⟨opened left.1, none⟩).any fun m' => Joined m'.whole

instance : DecidablePred Closed := fun _ => inferInstanceAs (Decidable (_ ∧ _ ∧ _))

theorem keepable_of_modest {s : Service} (modest : Modest s) : s.Keepable path := by
  refine Service.keepable_of_shallow (fun e listed => ?_) (fun e listed => ?_) ?_
  · have flat := (modest e listed).1
    cases h : e.2 <;> simp_all [Value.depth, Value.WellFormed]
  · have flat := (modest e listed).1
    cases h : e.2 <;> simp_all [Value.depth, Value.asMap?]
  · intro format _ e listed
    obtain ⟨flat, short, -⟩ := modest e listed
    have limit : 2 ≤ format.limit := by cases format <;> decide
    omega

/-- The next session begins with the texts of the evening. -/
theorem texts_after_evening : ∃ acts m s files w m' depth w',
    Period ⟨opened .empty, none⟩ acts m ∧ Quits m s files ∧ Opens "settings.toml" files w ∧
    Sequel (fun w d => d.Fair w) w joining m' ∧
    (runs depth).client setUp m'.whole = some (.ok (), w') ∧ Knows "ada" "light" w' := by
  have opens : Opens "settings.toml" .empty (opened .empty) := opens_opened (by rfl)
  have found : ∃ m, Period ⟨opened .empty, none⟩ (evening.map fun d => .step (.deed d)) m ∧
      m.left = none ∧ m.whole.client.started = true ∧
      textOf (properties m.whole) Property.user = "ada" ∧
      textOf (properties m.whole) Property.theme = "light" ∧
      (play (fun _ _ => True) closing m).any fun m₁ =>
        m₁.left = none ∧ m₁.whole.client.started = false ∧
        (play (fun _ _ => True) clearing m₁).any fun m₂ => Closed m₂ :=
    period_of_check rfl (by decide +kernel)
  obtain ⟨m, ran, free, started, user, theme, closes⟩ := found
  obtain ⟨m₁, leaves, free₁, stopped, clears⟩ := period_of_check free closes
  obtain ⟨m₂, rests, modest, saved, joins⟩ := period_of_check free₁ clears
  rcases stops : m₂.whole.client.service.stop m₂.whole.client.files with ⟨files, r, c⟩
  rw [stops] at saved joins
  obtain rfl : r = .ok () := by
    cases r with
    | error e => cases saved
    | ok => rfl
  have quits : Quits m m₂.whole.client.service files :=
    .of leaves (by simp [closing, Act.IsCalm, Turn.IsCalm]) stopped rests
      (by simp [clearing, Act.IsIdle, Step.IsIdle]) stops
  obtain ⟨⟨read, reads⟩, recalls⟩ := texts_survive opens ran started ⟨user, theme⟩ (by decide)
    quits (keepable_of_modest modest) fun k listed => by
      obtain ⟨e, member, rfl⟩ := List.mem_map.mp listed
      exact (modest e member).2.2
  have opens' : Opens "settings.toml" files (opened files) := opens_opened (by rw [reads])
  obtain ⟨m', sequel, joined⟩ := sequel_of_check joins
  obtain ⟨depth, w', set, knows⟩ := (recalls _ opens').succeeds sequel
    (by simp [joining, Step.IsIdle]) joined
  exact ⟨_, m, _, files, _, m', depth, w', ran, quits, opens', sequel, set, knows⟩

end Small

end Mvc.App
