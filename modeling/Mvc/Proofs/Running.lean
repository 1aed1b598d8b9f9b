import Mathlib.Data.List.Chain
import Mvc.Proofs.Replaying

/-! # When a service runs

A service runs from a start that could read its file to the next stop. Starts and stops that are
announced take turns, whatever else is asked of the service and whatever becomes of its file in
between. Loading and starting fail just when the file is there and cannot be read, and then nothing
has changed; saving and stopping fail just when the settings cannot be saved, and then a service that
was to stop has stopped all the same.
-/

namespace Mvc

namespace Service

variable {s : Service} {files : Files}

/-! ## Reading the file -/

/-- The values in the file, if it is there. -/
def filed (s : Service) (files : Files) : Except SettingsError (Dict Value) :=
  match s.file with
  | some path => if files.leadsSomewhere path then Settings.read files path else .ok .empty
  | none => .ok .empty

/-- Loading takes over the values in the file. -/
theorem load_eq (s : Service) (files : Files) : s.load files = (s.filed files).map fun values =>
    (s.adopt (s.settings.extend values)).andThen fun s => s.announce [.loaded] := by
  unfold load filed
  cases s.file with
  | none => rfl
  | some path =>
      simp only
      split
      · cases Settings.read files path <;> rfl
      · rfl

/-! ## Operations -/

/-- What is done with a service, and what others may do to the files. -/
inductive Operation where
  | ask (request : Request)
  | load
  | save
  | start
  | stop
  | setFile (path : String)
  /-- Somebody else changes files. -/
  | elsewhere (change : Files → Files)

/-- How an operation ends. -/
structure Ending where
  result : Except SettingsError Unit
  /-- What is announced, in order. -/
  events : List ServiceEvent
  after : Service
  files : Files

/-- What an operation does. -/
def Operation.perform (s : Service) (files : Files) : Operation → Ending
  | ask request => let c := request.perform s; ⟨.ok (), c.events, c.after, files⟩
  | load =>
    match s.load files with
    | .error e => ⟨.error e, [], s, files⟩
    | .ok c => ⟨.ok (), c.events, c.after, files⟩
  | save => let (files, result, events) := s.save files; ⟨result, events, s, files⟩
  | start => let (result, c) := s.start files; ⟨result, c.events, c.after, files⟩
  | stop => let (files, result, c) := s.stop files; ⟨result, c.events, c.after, files⟩
  | setFile path => ⟨.ok (), [], s.setFile path, files⟩
  | elsewhere change => ⟨.ok (), [], s, change files⟩

/-- What has become of a service and the files, and what was announced so far. -/
structure Course where
  service : Service
  files : Files
  announced : List ServiceEvent

/-- One more operation. -/
def Course.step (c : Course) (o : Operation) : Course :=
  let e := o.perform c.service c.files
  ⟨e.after, e.files, c.announced ++ e.events⟩

/-- Some operations on a new service, one after another. -/
def course (file : Option String) (files : Files) (operations : List Operation) : Course :=
  operations.foldl Course.step ⟨new file, files, []⟩

/-! ## Starts and stops -/

/-- The starts and stops among some announcements: whether the service runs from then on. -/
def phases (events : List ServiceEvent) : List Bool :=
  events.filterMap fun
    | .started => some true
    | .stopped => some false
    | _ => none

theorem phases_append (a b : List ServiceEvent) : phases (a ++ b) = phases a ++ phases b :=
  List.filterMap_append

/-- A change by which the service neither starts nor stops. -/
def Steady (s : Service) (c : Change) : Prop :=
  c.after.running = s.running ∧ phases c.events = []

theorem Steady.andThen {first : Change} {next : Service → Change} (steady : Steady s first)
    (rest : Steady first.after (next first.after)) : Steady s (first.andThen next) := by
  refine ⟨rest.1.trans steady.1, ?_⟩
  rw [events_andThen, phases_append, steady.2, rest.2, List.append_nil]

theorem steady_announce {events : List ServiceEvent} (none : phases events = []) :
    Steady s (s.announce events) := ⟨rfl, none⟩

theorem steady_adopt (s : Service) (c : Settings.Change) : Steady s (s.adopt c) := by
  refine ⟨rfl, List.filterMap_eq_nil_iff.mpr fun event member => ?_⟩
  obtain ⟨key, -, rfl⟩ := List.mem_map.mp member
  rfl

theorem steady_write (w : Write) : Steady s (w.perform s) := by
  cases w with
  | set key value =>
      rw [Write.perform, Service.set]
      exact (steady_adopt s _).andThen (steady_announce rfl)
  | remove key =>
      rw [Write.perform, Service.remove]
      exact (steady_adopt s _).andThen (steady_announce rfl)
  | clear =>
      rw [Write.perform, Service.clear]
      exact (steady_adopt s _).andThen (steady_announce rfl)

theorem steady_seed (values : List (String × Value)) : Steady s (s.seed values) := by
  induction values generalizing s with
  | nil => exact steady_announce rfl
  | cons e rest ih =>
      rw [seed]
      refine Steady.andThen ?_ ih
      split
      · exact steady_announce rfl
      · exact steady_write (.set e.1 e.2)

theorem steady_request (request : Request) : Steady s (request.perform s) := by
  cases request with
  | fill => exact steady_seed defaults
  | write w => exact steady_write w
  | reset =>
      rw [Request.perform, reset]
      refine Steady.andThen (Steady.andThen (steady_write .clear) ?_) (steady_announce rfl)
      exact steady_seed defaults

theorem steady_load {c : Change} (loaded : s.load files = .ok c) : Steady s c := by
  rw [load_eq] at loaded
  cases read : s.filed files with
  | error e =>
      rw [read] at loaded
      cases loaded
  | ok values =>
      rw [read] at loaded
      cases loaded
      exact (steady_adopt s _).andThen (steady_announce rfl)

theorem phases_save (s : Service) (files : Files) : phases (s.save files).2.2 = [] := by
  unfold save
  split
  · rfl
  · split <;> rfl

theorem setFile_running (s : Service) (path : String) : (s.setFile path).running = s.running := by
  unfold setFile
  split <;> rfl

/-- An operation says that the service starts, or that it stops, just when it does. -/
theorem perform_phases (s : Service) (files : Files) (o : Operation) :
    let e := o.perform s files
    phases e.events = [] ∧ e.after.running = s.running ∨
      phases e.events = [true] ∧ s.running = false ∧ e.after.running = true ∨
      phases e.events = [false] ∧ s.running = true ∧ e.after.running = false := by
  cases o with
  | ask request => exact .inl (steady_request request).symm
  | load =>
      simp only [Operation.perform]
      split
      · exact .inl ⟨rfl, rfl⟩
      · next loaded => exact .inl (steady_load loaded).symm
  | save => exact .inl ⟨phases_save s files, rfl⟩
  | start =>
      simp only [Operation.perform, start]
      split
      · exact .inl ⟨rfl, rfl⟩
      · next idle =>
          have idle : s.running = false := by simpa using idle
          split
          · exact .inl ⟨rfl, rfl⟩
          · next loaded =>
              refine .inr (.inl ⟨?_, idle, rfl⟩)
              rw [events_andThen, phases_append, (steady_load loaded).2]
              rfl
  | stop =>
      simp only [Operation.perform, stop]
      split
      · next running =>
          refine .inr (.inr ⟨?_, running, rfl⟩)
          rw [phases_append, phases_save]
          rfl
      · exact .inl ⟨rfl, rfl⟩
  | setFile path => exact .inl ⟨rfl, setFile_running s path⟩
  | elsewhere change => exact .inl ⟨rfl, rfl⟩

/-- Starts and stops take turns, from a start on, and the service runs if the last was a start. -/
structure Course.TakesTurns (c : Course) : Prop where
  turns : (phases c.announced).IsChain (· ≠ ·)
  begins : (phases c.announced).head? ≠ some false
  runs : c.service.running = true ↔ (phases c.announced).getLast? = some true

theorem Course.TakesTurns.step {c : Course} (sofar : c.TakesTurns) (o : Operation) :
    (c.step o).TakesTurns := by
  obtain ⟨turns, begins, runs⟩ := sofar
  have all : phases (c.step o).announced =
      phases c.announced ++ phases (o.perform c.service c.files).events := phases_append _ _
  rcases perform_phases c.service c.files o with
    ⟨quiet, same⟩ | ⟨started, idle, after⟩ | ⟨stopped, running, after⟩
  · rw [quiet, List.append_nil] at all
    refine ⟨all ▸ turns, all ▸ begins, ?_⟩
    rw [all, ← runs]
    exact Bool.eq_iff_iff.mp same
  · rw [started] at all
    have last : (phases c.announced).getLast? ≠ some true := fun here => by
      rw [runs.mpr here] at idle
      cases idle
    refine ⟨?_, ?_, iff_of_true after (all ▸ List.getLast?_concat)⟩
    · rw [all, List.isChain_append]
      refine ⟨turns, .singleton true, fun x listed y here => ?_⟩
      rw [List.head?_singleton, Option.mem_some_iff] at here
      rintro rfl
      exact last (here ▸ listed)
    · rw [all]
      cases earlier : phases c.announced with
      | nil => simp
      | cons p ps => simpa [earlier] using begins
  · rw [stopped] at all
    have last := runs.mp running
    refine ⟨?_, ?_, iff_of_false (by simp [Course.step, after]) (by simp [all])⟩
    · rw [all, List.isChain_append]
      refine ⟨turns, .singleton false, fun x listed y here => ?_⟩
      rw [List.head?_singleton, Option.mem_some_iff] at here
      rw [Option.mem_def.mp listed, Option.some.injEq] at last
      subst last here
      exact Bool.noConfusion
    · rw [all]
      cases earlier : phases c.announced with
      | nil => simp [earlier] at last
      | cons p ps => simpa [earlier] using begins

theorem takesTurns_course (file : Option String) (files : Files) (operations : List Operation) :
    (course file files operations).TakesTurns := by
  have start : Course.TakesTurns ⟨new file, files, []⟩ :=
    ⟨.nil, by simp [phases], by simp [phases, new]⟩
  unfold course
  generalize (⟨new file, files, []⟩ : Course) = c at start
  induction operations generalizing c with
  | nil => exact start
  | cons o rest ih => exact ih _ (start.step o)

/-! ## Failures -/

/-- Why the settings cannot be saved, if they cannot. -/
def saveFault? (s : Service) (files : Files) : Option SettingsError :=
  s.file.bind fun path =>
    match (s.settings.save files path).2 with
    | .ok () => none
    | .error e => some e

/-- Why the file cannot be read, if it is there and cannot be. -/
def loadFault? (s : Service) (files : Files) : Option SettingsError :=
  s.file.bind fun path =>
    if files.leadsSomewhere path then
      match Settings.read files path with
      | .ok _ => none
      | .error e => some e
    else none

/-- Why an operation fails, if it does. -/
def Operation.fault? (s : Service) (files : Files) : Operation → Option SettingsError
  | load => s.loadFault? files
  | start => if s.running then none else s.loadFault? files
  | save => s.saveFault? files
  | stop => if s.running then s.saveFault? files else none
  | _ => none

/-- What an operation that fails announces. -/
def Operation.complaints (e : SettingsError) : Operation → List ServiceEvent
  | start => [.failed "Failed to load configuration"]
  | save => [.failed e.message]
  | stop => [.failed e.message, .stopped]
  | _ => []

/-- What an operation that fails makes of the service. -/
def Operation.relict (s : Service) : Operation → Service
  | stop => { s with running := false }
  | _ => s

theorem filed_eq_error {e : SettingsError} :
    s.filed files = .error e ↔ s.loadFault? files = some e := by
  unfold filed loadFault?
  cases s.file with
  | none => simp
  | some path =>
      simp only [Option.bind_some]
      split
      · cases Settings.read files path <;> simp
      · simp

/-- The settings are loaded unless the file cannot be read. -/
theorem load_cases (s : Service) (files : Files) :
    (∃ e, s.loadFault? files = some e ∧ s.load files = .error e) ∨
      s.loadFault? files = none ∧ ∃ c, s.load files = .ok c := by
  rw [load_eq]
  cases read : s.filed files with
  | error e => exact .inl ⟨e, filed_eq_error.mp read, rfl⟩
  | ok values =>
      refine .inr ⟨Option.eq_none_iff_forall_ne_some.mpr fun e fault => ?_, _, rfl⟩
      rw [filed_eq_error.mpr fault] at read
      cases read

theorem save_cases (s : Service) (files : Files) :
    (∃ e files', s.saveFault? files = some e ∧
      s.save files = (files', .error e, [.failed e.message])) ∨
      s.saveFault? files = none ∧ (s.save files).2.1 = .ok () := by
  unfold saveFault? save
  cases s.file with
  | none => exact .inr ⟨rfl, rfl⟩
  | some path =>
      simp only [Option.bind_some]
      rcases s.settings.save files path with ⟨files', e | _⟩
      · exact .inl ⟨e, files', rfl, rfl⟩
      · exact .inr ⟨rfl, rfl⟩

/-- An operation that has no fault comes out well, and one that has says so and leaves the service
    alone, but for stopping it if it was to stop. -/
theorem perform_fault (s : Service) (files : Files) (o : Operation) :
    let e := o.perform s files
    match o.fault? s files with
    | some fault => e.result = .error fault ∧ e.events = o.complaints fault ∧ e.after = o.relict s
    | none => e.result = .ok () := by
  cases o with
  | load =>
      simp only [Operation.perform, Operation.fault?]
      rcases load_cases s files with ⟨e, fault, failed⟩ | ⟨none, c, loaded⟩
      · rw [fault, failed]
        exact ⟨rfl, rfl, rfl⟩
      · rw [none, loaded]
  | save =>
      simp only [Operation.perform, Operation.fault?]
      rcases save_cases s files with ⟨e, files', fault, failed⟩ | ⟨none, saved⟩
      · rw [fault, failed]
        exact ⟨rfl, rfl, rfl⟩
      · rw [none]
        exact saved
  | start =>
      simp only [Operation.perform, Operation.fault?, start]
      by_cases running : s.running = true
      · simp only [if_pos running]
      · simp only [if_neg running]
        rcases load_cases s files with ⟨e, fault, failed⟩ | ⟨none, c, loaded⟩
        · rw [fault, failed]
          exact ⟨rfl, rfl, rfl⟩
        · rw [none, loaded]
  | stop =>
      simp only [Operation.perform, Operation.fault?, stop]
      by_cases running : s.running = true
      · simp only [if_pos running]
        rcases save_cases s files with ⟨e, files', fault, failed⟩ | ⟨none, saved⟩
        · rw [fault, failed]
          exact ⟨rfl, rfl, rfl⟩
        · rw [none]
          exact saved
      · simp only [if_neg running]
  | ask request => rfl
  | setFile path => rfl
  | elsewhere change => rfl

/-- Whatever is done to a new service, and whatever becomes of its file: the starts and stops that it
    announces take turns, from a start on, and it runs just when the last of them is a start. The next
    operation, whichever it is, fails just if it has a fault. A start that fails announces no more than
    that, and a loading that fails announces nothing; neither changes anything. A stop that fails stops
    the service, and announces the fault and then the stop. -/
theorem lifecycle_of_service (file : Option String) (files : Files) (operations : List Operation) :
    let c := course file files operations
    (phases c.announced).IsChain (· ≠ ·) ∧ (phases c.announced).head? ≠ some false ∧
      (c.service.running = true ↔ (phases c.announced).getLast? = some true) ∧
      ∀ o : Operation,
        let e := o.perform c.service c.files
        match o.fault? c.service c.files with
        | some fault =>
          e.result = .error fault ∧ e.events = o.complaints fault ∧ e.after = o.relict c.service
        | none => e.result = .ok () := by
  obtain ⟨turns, begins, runs⟩ := takesTurns_course file files operations
  exact ⟨turns, begins, runs, perform_fault _ _⟩

/-- A service whose file holds no document does not start; it starts once the file is another one,
    and stops even if that one cannot be written. -/
example :
    let files : Files := ⟨[(["s.json"], .file "[1, 2".toUTF8)]⟩
    let c := course (some "s.json") files [.start, .setFile "s.ini", .start]
    phases c.announced = [true] ∧
      Operation.fault? (new (some "s.json")) files .start =
        some (.parse "s.json" "not a JSON object") ∧
      Operation.fault? c.service c.files .stop = some (.unsupportedFormat "s.ini") := by
  decide +kernel

end Service

end Mvc
