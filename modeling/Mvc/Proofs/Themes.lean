import Mvc.Proofs.Guarding

/-! # The model always has a valid theme

Whatever happens to an application: once its model is initialized, it has one of the themes that
there are. A value that names a theme is the theme once it was written, and any other value is
refused without a trace. So the model is valid as long as it has a name and a version
(`theme_always_valid`).

The theme may be written to directly, by a user action, from settings and with the defaults; the
first two take any value, and settings may hold any.
-/

namespace Mvc.App

open Ensemble Proc

variable {w w' : Whole} {depth n : Nat} {m m' : Moment}

/-! ## A theme that is accepted stays -/

/-- Nothing but a write or a filling touches a property that is no indicator; stopping does not. -/
theorem sparing_property {name : String} (other : name ∉ indicators) (value : Value) :
    Sparing [name] fun w => (properties w).get name = value where
  only n member := List.mem_singleton.mp member ▸ other
  same _ _ same known := (same _ (List.mem_singleton_self _)).trans known
  stop depth w held known := by
    have spares : Sparing [name] fun w => w.client.started = false ∧
        (properties w).get name = value :=
      sparing_resting (fun _ member => List.mem_singleton.mp member ▸ other)
        fun _ same known => (same _ (List.mem_singleton_self _)).trans known
    have told : ∀ message, Keeps (Minds _) ((runs depth).client (updateStatus message)) :=
      fun message => spares.client depth (updateStatus_allowed spares.lax message)
    have saved : Keeps (Minds _) ((runs depth).client (emit Channel.settingsSaved .plain)) :=
      spares.client depth (emit_allowed _ rfl)
    cases running : w.client.started with
    | false => exact (stop_resting running).mono fun _ _ rests => rests ▸ known
    | true =>
        refine ends_see ?_
        rw [running]
        refine ends_program ((change_ends _ w).mono ?_)
        rintro _ _ rfl
        refine ends_program ((told _ _).mono fun _ w₁ minds => ?_)
        obtain ⟨held₁, on⟩ := minds (held_client held _)
        obtain ⟨resting₁, known₁⟩ := on ⟨rfl, known⟩
        have kept : Ends ((runs depth).client saveSettings) w₁ fun _ w₂ => Held w₂ ∧
            w₂.client.started = false ∧ (properties w₂).get name = value := by
          refine ends_program ((keep_ends _ _ w₁).mono ?_)
          rintro _ _ ⟨s₁, rfl, started, -⟩
          refine ends_program ((keep_ends _ _ _).mono ?_)
          rintro _ _ ⟨s₂, rfl, started', -⟩
          refine (saved _).mono fun _ w₂ minds => ?_
          obtain ⟨held₂, on⟩ := minds (held_client (held_client held₁ s₁) s₂)
          exact ⟨held₂, on ⟨started'.trans (started.trans resting₁), known₁⟩⟩
        refine ends_program (kept.mono fun _ w₂ kept => ?_)
        refine ends_program ((told _ w₂).mono fun _ w₃ minds => (told _ w₃).mono fun _ w' minds' => ?_)
        obtain ⟨held₃, on⟩ := minds kept.1
        exact ((minds' held₃).2 (on kept.2)).2

/-- A value that names a theme is the theme after it was written. -/
theorem setTheme_ends {theme : Value} (held : Held w) (names : theme.asString?.any isTheme = true)
    (depth : Nat) : Ends ((runs depth).client (set Property.theme theme)) w
      fun r w' => r ≠ .rejected ∧ (properties w').get Property.theme = theme := by
  have written : (properties (updateStore model (·.write Property.theme theme) w)).get
      Property.theme = theme := by
    rw [properties, updateStore, model_updateModel, if_pos rfl, Store.get_write, if_pos rfl]
  exact ((sparing_property (by decide) theme).set_ends held (by simpa [accepts] using names) id written
    depth).mono fun _ _ holds => ⟨holds.1, holds.2.2⟩

/-- Any other value is refused, and nothing comes of the write. -/
theorem setTheme_refused {theme : Value} (other : theme.asString?.any isTheme = false) (depth : Nat)
    (w : Whole) : (runs (depth + 1)).client (set Property.theme theme) w = some (.rejected, w) := by
  have refused : accepts Property.theme theme = false := by simpa [accepts] using other
  have written : write (runs depth) behaviour model true Property.theme theme w =
      some (.rejected, w) := by
    refine (bind_eq_of_eq (show _ = some (accepts Property.theme theme, w) from rfl)).trans ?_
    rw [refused]
    rfl
  unfold Runner.client set
  rw [Program.run_perform]
  exact (bind_eq_of_eq written).trans rfl

/-! ## What happens to an application -/

/-- What happens to an application whose parts stay as they are. -/
inductive Use where
  /-- The presentation thread or the worker takes a turn, as when the user acts. -/
  | turn (t : Turn)
  /-- A thread asks something of the model. -/
  | ask (thread : Thread) (r : Request)
  /-- A thread has the model take user and theme from some settings. -/
  | load (thread : Thread) (settings : Settings)

/-- How it happens; it tells which pieces are left to the worker. -/
def Use.perform (depth : Nat) : Use → Option (List Piece) → Proc Whole (Option (List Piece))
  | turn t, left => (Deed.turn t).perform depth left
  | ask thread r, left => (Deed.ask thread r).perform depth left
  | load thread settings, left => do
    (runs depth).client (change fun s => { s with service := { s.service with settings } })
    (Deed.ask thread .loadSettings).perform depth left

/-- Something happened. -/
def Use.Made (u : Use) (m m' : Moment) : Prop :=
  ∃ depth, u.perform depth m.left m.whole = some (m'.left, m'.whole)

/-- What an application comes to from its parts on. Whoever arranges them leaves handles to them,
    and connects nothing but them and listeners. -/
inductive Life : Moment → Prop
  | parts (config : Config) (service : Service) (files : Files) (hasDispatcher : Bool)
      (clock : Instant) : Life ⟨parts config service files hasDispatcher clock, none⟩
  | use {m m' : Moment} (life : Life m) (u : Use) (made : u.Made m m') : Life m'
  | arrange {m m' : Moment} (life : Life m) (a : Arrangement) (done : Done (.arrange a) m m')
      (mounted : Mounted m'.whole) : Life m'

/-- To empty the status line is to write an empty text to it. -/
example : clearStatus = (Request.set Property.status (.string "")).program := rfl

namespace Use

theorem perform_mono {depth depth' : Nat} (le : depth ≤ depth') (u : Use)
    (left : Option (List Piece)) : Tracks Anyhow (u.perform depth left) (u.perform depth' left) := by
  cases u with
  | turn t => exact (Deed.turn t).perform_mono le left
  | ask thread r => exact (Deed.ask thread r).perform_mono le left
  | load thread settings =>
      have covers : Covers (runs depth) (runs depth') := run_mono le
      exact .bind anyhow_composes (covers.client _) fun _ => (Deed.ask thread _).perform_mono le left

theorem made_unique {u : Use} {m₁ m₂ : Moment} (first : u.Made m m₁) (second : u.Made m m₂) :
    m₁ = m₂ := by
  have same := outcome_unique (fun le => u.perform_mono le m.left) first second
  exact Moment.ext (congrArg Prod.snd same) (congrArg Prod.fst same)

/-- What is asked of the model comes to an end. -/
theorem request_ends (mounted : Mounted w) (r : Request) :
    Goes ((runs (n + 9)).client r.program) w fun _ _ => True := by
  cases r with
  | set name value =>
      by_cases theme : name = Property.theme
      · subst theme
        exact (setTheme_goes mounted value).program fun _ _ _ _ => goes_done trivial
      · exact (set_goes (n := n + 3) mounted value theme).program fun _ _ _ _ => goes_done trivial
  | updateStatus message =>
      exact (updateStatus_goes (n := n + 3) mounted message).mono fun _ _ _ => trivial
  | loadSettings => exact (loadSettings_goes mounted).mono fun _ _ _ => trivial
  | saveSettings => exact (saveSettings_goes (n := n + 6) mounted).mono fun _ _ _ => trivial
  | fill =>
      exact (goes_perform (initializeModel_goes (n := n + 3) mounted)).program fun _ _ _ _ =>
        goes_done trivial
  | refill =>
      exact (goes_perform (resetModel_goes (n := n + 3) mounted)).program fun _ _ _ _ =>
        goes_done trivial

theorem ask_moves (mounted : Mounted w) (thread : Thread) (r : Request)
    (left : Option (List Piece)) :
    Moves ((Deed.ask thread r).perform (n + 9) left) w fun _ _ => True := by
  cases thread with
  | presentation =>
      exact (request_ends mounted r).moves.bind fun _ _ _ _ => (goes_pure trivial).moves
  | background =>
      refine (inBackground_moves (request_ends (mounted.onThread .background) r)).bind ?_
      exact fun _ _ _ _ => (goes_pure trivial).moves

/-- Everything can happen, and nobody is bound or connected by it. -/
theorem moves (mounted : Mounted w) (presentation : w.thread = .presentation) (u : Use)
    (left : Option (List Piece)) : ∃ depth, Moves (u.perform depth left) w fun _ _ => True := by
  cases u with
  | turn t =>
      exact ⟨_, (perform_moves mounted presentation (Nat.lt_succ_self _) t left).mono
        fun _ _ _ => trivial⟩
  | ask thread r => exact ⟨9, ask_moves mounted thread r left⟩
  | load thread settings =>
      have taken : Goes ((runs 9).client (change fun s =>
          { s with service := { s.service with settings } })) w fun _ g => g = gist w :=
        change_quietly (n := 8) _ (fun _ => rfl) (fun _ => rfl) (fun _ => rfl) fun _ _ => rfl
      exact ⟨9, taken.moves.bind fun _ w₁ steady _ =>
        ask_moves (n := 0) (steady.mounted mounted) thread _ left⟩

/-- Whoever keeps a relation keeps it in everything that happens. -/
theorem keeps {R : Whole → Whole → Prop} (deals : Deals (keeping fun _ => True) R (runs depth))
    (u : Use) (left : Option (List Piece)) : Keeps R (u.perform depth left) := by
  have lax : (keeping fun _ => True).Lax := held_ledger.lax
  have asked := fun thread r => deals.ask lax (fun _ => trivial) thread r
    (fun _ => saveSettings_allowed held_writable.free) left
  cases u with
  | turn t => exact deals.turn lax trivial t left
  | ask thread r => exact asked thread r
  | load thread settings =>
      exact .bind deals.order (deals.program (change_allowed trivial)) fun _ => asked thread _

end Use

/-! ## What always holds -/

/-- An application is mounted, nobody lost a handle, and its model has a theme. -/
structure Sound (w : Whole) : Prop extends Mounted w where
  handles : Held w
  presentation : w.thread = .presentation
  themed : Themed w

theorem sound_parts (config : Config) (service : Service) (files : Files) (hasDispatcher : Bool)
    (clock : Instant) : Sound (parts config service files hasDispatcher clock) :=
  ⟨(tied_parts ..).toMounted, (current_parts ..).toHeld, rfl, nofun⟩

theorem Sound.use (sound : Sound m.whole) {u : Use} (made : u.Made m m') : Sound m'.whole := by
  obtain ⟨depth, left, w', ended, steady, -⟩ := u.moves sound.toMounted sound.presentation m.left
  have reached : u.Made m ⟨w', left⟩ := ⟨depth, ended⟩
  obtain rfl := Use.made_unique reached made
  exact ⟨steady.mounted sound.toMounted,
    u.keeps (held_ledger.deals depth) m.left _ _ _ ended sound.handles,
    steady.thread.trans sound.presentation,
    (u.keeps (keepsTheme_deals depth) m.left _ _ _ ended).themed sound.themed⟩

theorem Sound.arrange (sound : Sound m.whole) {a : Arrangement} (done : Done (.arrange a) m m')
    (mounted : Mounted m'.whole) : Sound m'.whole := by
  obtain ⟨depth, ended⟩ := done
  have guarded : a.program.All IsGuarded :=
    a.program_all (fun _ => isGuarded_of_allow) (fun a arranges => by cases a <;> trivial)
      held_ledger.lax (fun _ => trivial) (fun _ _ => trivial) fun _ => held_writable.free
  have thread : Keeps SameThread ((runs depth).client a.program) :=
    .program sameThread_composes (fun a _ => sameThread_run behaviour depth (.action a)) guarded
  have held : Keeps _ ((runs depth).client a.program) :=
    held_ledger.client (held_ledger.arrangement fun _ => held_writable)
  have kept : ∀ {R : Whole → Whole → Prop}, Composes R → Keeps R ((runs depth).client a.program) →
      R m.whole m'.whole := fun order keeps =>
    Keeps.bind order keeps (fun _ => .pure order m.left) _ _ _ ended
  exact ⟨mounted, kept held_composes held sound.handles,
    (kept sameThread_composes thread).trans sound.presentation,
    (kept keepsTheme_composes (keepsTheme_client guarded)).themed sound.themed⟩

theorem Life.sound (life : Life m) : Sound m.whole := by
  induction life with
  | parts => exact sound_parts ..
  | use life u made ih => exact ih.use made
  | arrange life a done mounted ih => exact ih.arrange done mounted

/-! ## Writing the theme -/

/-- Writing a value to the theme has an outcome, which is as the value says: it is the theme
    afterwards, or nothing is any different. -/
structure WritesTheme (w : Whole) (value : Value) : Prop where
  returns : ∃ depth outcome w', (runs depth).client (set Property.theme value) w = some (outcome, w')
  decides : ∀ depth outcome w', (runs depth).client (set Property.theme value) w = some (outcome, w') →
    if value.asString?.any isTheme then
      outcome ≠ .rejected ∧ (properties w').get Property.theme = value
    else outcome = .rejected ∧ w' = w

theorem writesTheme (mounted : Mounted w) (held : Held w) (value : Value) : WritesTheme w value := by
  constructor
  · obtain ⟨outcome, w', ended, -⟩ := setTheme_goes (n := 0) mounted value
    exact ⟨9, outcome, w', ended⟩
  · intro depth outcome w' ended
    split
    · next names => exact setTheme_ends held names depth _ _ ended
    · next other =>
        cases depth with
        | zero => cases ended
        | succ depth =>
            rw [setTheme_refused (eq_false_of_ne_true other) depth w] at ended
            cases ended
            exact ⟨rfl, rfl⟩

/-- Fair deeds are such a life. -/
theorem life_of_sequel {config : Config} {service : Service} {files : Files} {hasDispatcher : Bool}
    {clock : Instant} {deeds : List Deed}
    (sequel : Sequel (fun w d => d.Fair w) (parts config service files hasDispatcher clock)
      deeds m) : Life m := by
  induction sequel with
  | begins => exact .parts ..
  | deed d before fair done ih =>
      cases d with
      | turn t => exact ih.use (.turn t) done
      | ask thread r => exact ih.use (.ask thread r) done
      | arrange a =>
          obtain ⟨presentation, tied⟩ := (tied_parts ..).sequel rfl before
          exact ih.arrange a done ((done_tied tied presentation fair).2 _ done).2.toMounted

/-- The settings say that the theme is 7, the user chooses a theme, and a thread takes away the name
    and the theme. -/
def redecorating : List Deed :=
  settingUp ++ [.turn (.act "theme" (.string "dark")), .turn (.act "theme" .null),
    .ask .background (.set Property.theme .null), .ask .background (.set Property.name .null)]

end Mvc.App
