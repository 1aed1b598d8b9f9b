import Mathlib.Logic.Relation
import Mvc.Proofs.Shifts

/-! # A worker does its tasks in order

Tasks may send others to their own worker, and stop it. The owner of a worker waits until the
worker has nothing to do before doing anything. Then tasks run in the order of acceptance, each
once, and the callbacks are given the results in that order, whatever the history is
(`worker_in_order`).

The invariant (`Logged.Kept`) sets the log against the worker that the thread comes to. Each step
of the thread, and each order that is given by a task or by the owner, keeps it.
-/

namespace Mvc

variable {σ ρ ε : Type}

open Relation

/-! ## What fits where in a log -/

/-- A mark fits what is logged later and what was logged earlier. -/
def Mark.Fits (hasDispatcher : Bool) (later earlier : WorkLog σ ρ ε) : Mark σ ρ ε → Prop
  | accepted _ => .stopped ∉ earlier
  | refused _ => .stopped ∈ earlier
  | ended task result => task.answers = true → hasDispatcher = false →
      later.getLast? = some (.answered task.code result false)
  | joined well => .stopped ∈ earlier ∧
      earlier.read accepted? = (earlier.read ended?).map (·.1) ∧
      (well = true ↔ ∀ before, .joined before ∉ earlier)
  | stopped | started _ | answered .. | changed _ => True

theorem Mark.Fits.later {hasDispatcher : Bool} {later earlier : WorkLog σ ρ ε} {m : Mark σ ρ ε}
    (fits : m.Fits hasDispatcher later earlier) (new : WorkLog σ ρ ε) :
    m.Fits hasDispatcher (new ++ later) earlier := by
  cases m with
  | ended task result =>
      intro answers alone
      rw [List.getLast?_append, fits answers alone]
      rfl
  | _ => exact fits

namespace WorkLog

def Consistent (hasDispatcher : Bool) (log : WorkLog σ ρ ε) : Prop :=
  ∀ later m earlier, log = later ++ m :: earlier → m.Fits hasDispatcher later earlier

variable {hasDispatcher : Bool} {log : WorkLog σ ρ ε}

theorem consistent_nil : Consistent hasDispatcher ([] : WorkLog σ ρ ε) :=
  fun _ _ _ split => absurd split (by simp)

theorem Consistent.append (consistent : log.Consistent hasDispatcher) (new : WorkLog σ ρ ε)
    (fits : ∀ later m earlier, new = later ++ m :: earlier →
      m.Fits hasDispatcher later (earlier ++ log)) :
    Consistent hasDispatcher (new ++ log) := by
  intro later m earlier split
  rcases List.append_eq_append_iff.mp split with ⟨more, rfl, old⟩ | ⟨more, newer, old⟩
  · exact (consistent more m earlier old).later new
  · -- The mark is new, or it is the latest one of the old log.
    cases more with
    | nil =>
        rw [List.append_nil] at newer
        subst newer
        simpa using (consistent [] m earlier old.symm).later new
    | cons first rest =>
        obtain ⟨rfl, rfl⟩ := List.cons.inj old
        exact fits later m rest newer

theorem Consistent.cons (consistent : log.Consistent hasDispatcher) {m : Mark σ ρ ε}
    (fits : m.Fits hasDispatcher [] log) : Consistent hasDispatcher (m :: log) := by
  refine consistent.append [m] fun later m' earlier split => ?_
  obtain ⟨rfl, rfl, rfl⟩ : later = [] ∧ m' = m ∧ earlier = [] := by
    cases later <;> simp_all
  exact fits

end WorkLog

/-! ## The log and the worker -/

/-- What a log says of a worker. -/
structure Roster (w : Worker (Assignment σ)) (log : WorkLog σ ρ ε) : Prop where
  sound : w.sound = true
  order : log.read Mark.accepted? = (log.read Mark.ended?).map (·.1) ++ w.queue
  running : w.running = true ↔ .stopped ∉ log
  joinable : w.joinable = true ↔ ∀ well, .joined well ∉ log
  spent : w.joinable = false → w.running = false ∧ w.queue = []

/-- Neither the tasks nor the worker's end are told of. -/
def Mark.IsAside : Mark σ ρ ε → Prop
  | refused _ | started _ | answered .. | changed _ => True
  | accepted _ | stopped | ended .. | joined _ => False

namespace Roster

variable {hasDispatcher : Bool} {w : Worker (Assignment σ)} {log : WorkLog σ ρ ε}

theorem accepts (roster : Roster w log) : w.accepts = true ↔ .stopped ∉ log := by
  rw [← roster.running, Worker.accepts, roster.sound, Bool.and_true]

theorem stopped (roster : Roster w log) : w.running = false ↔ .stopped ∈ log := by
  rw [← Bool.not_eq_true, roster.running, Classical.not_not]

theorem aside (roster : Roster w log) {m : Mark σ ρ ε} (isAside : m.IsAside) :
    Roster w (m :: log) := by
  obtain ⟨sound, order, running, joinable, spent⟩ := roster
  cases m with
  | refused | started | answered | changed =>
      exact ⟨sound, by simpa [WorkLog.read_cons, Mark.accepted?, Mark.ended?] using order,
        by simpa using running, by simpa using joinable, spent⟩
  | _ => exact isAside.elim

theorem asides (roster : Roster w log) {new : WorkLog σ ρ ε} (asides : ∀ m ∈ new, m.IsAside) :
    Roster w (new ++ log) := by
  induction new with
  | nil => exact roster
  | cons m rest ih =>
      exact (ih fun m there => asides m (.tail _ there)).aside (asides m List.mem_cons_self)

theorem send (roster : Roster w log) (task : Assignment σ) :
    Roster (w.send task) ((Order.send (ε := ε) task).marks w.accepts ++ log) := by
  cases accepts : w.accepts with
  | true =>
      have running : w.running = true := roster.running.mpr (roster.accepts.mp accepts)
      rw [Worker.send, if_pos accepts]
      exact {
        sound := roster.sound
        order := by
          simp [Order.marks, WorkLog.read_cons, roster.order, Mark.accepted?, Mark.ended?]
        running := by simpa [Order.marks] using roster.running
        joinable := by simpa [Order.marks] using roster.joinable
        spent := fun shut => absurd (running.symm.trans (roster.spent shut).1) (by decide) }
  | false =>
      rw [Worker.send, if_neg (by simp [accepts])]
      exact roster.aside trivial

theorem stop (roster : Roster w log) : Roster w.stop (.stopped :: log) where
  sound := roster.sound
  order := by
    simpa [WorkLog.read_cons, Mark.accepted?, Mark.ended?, Worker.stop] using roster.order
  running := by simp [Worker.stop]
  joinable := roster.joinable.trans (by simp)
  spent shut := ⟨rfl, (roster.spent shut).2⟩

theorem finish (roster : Roster w log) {task : Assignment σ} {rest : List (Assignment σ)}
    (queue : w.queue = task :: rest) (result : ρ) :
    Roster w.finish (.ended task result :: log) where
  sound := roster.sound
  order := by
    simp [WorkLog.read_cons, Mark.accepted?, Mark.ended?, roster.order, queue, Worker.finish]
  running := roster.running.trans (by simp)
  joinable := roster.joinable.trans (by simp)
  spent shut := absurd ((roster.spent shut).2.symm.trans queue) nofun

/-- Whoever waits is told that the worker has ended well unless somebody has been told before. -/
theorem join?_eq (roster : Roster w log) :
    w.join? = if w.running = false ∧ w.queue = [] then
      some ({ w with joinable := false }, w.joinable) else none := by
  cases joinable : w.joinable with
  | false =>
      rw [if_pos (roster.spent joinable)]
      cases w
      simp_all [Worker.join?]
  | true =>
      simp [Worker.join?, Worker.ended, joinable, roster.sound]

theorem join (roster : Roster w log) {w' : Worker (Assignment σ)} {well : Bool}
    (joins : w.join? = some (w', well)) :
    Roster w' (.joined well :: log) ∧ Mark.Fits hasDispatcher [] log (.joined well) := by
  rw [roster.join?_eq] at joins
  split at joins
  · obtain ⟨stopped, queue⟩ := ‹w.running = false ∧ w.queue = []›
    cases joins
    have order := roster.order
    rw [queue, List.append_nil] at order
    refine ⟨⟨roster.sound, ?_, roster.running.trans (by simp), ⟨nofun, fun never => ?_⟩,
      fun _ => ⟨stopped, queue⟩⟩, roster.stopped.mp stopped, order, roster.joinable⟩
    · simpa [WorkLog.read_cons, Mark.accepted?, Mark.ended?] using roster.order
    · exact absurd List.mem_cons_self (never w.joinable)
  · cases joins

end Roster

/-- The callbacks were given their results, in order, or these wait for the presentation thread. -/
def Answers (dispatcher : Option (Dispatcher (σ × ρ))) (log : WorkLog σ ρ ε) : Prop :=
  log.read Mark.answered? ++ (queued dispatcher).map (·, true) =
    log.due.map (·, dispatcher.isSome)

namespace Answers

variable {dispatcher : Option (Dispatcher (σ × ρ))} {d : Dispatcher (σ × ρ)}
  {log more : WorkLog σ ρ ε} {code : σ} {result : ρ}

theorem of_read (answers : Answers dispatcher log)
    (ended : more.read Mark.ended? = log.read Mark.ended?)
    (answered : more.read Mark.answered? = log.read Mark.answered?) : Answers dispatcher more := by
  rw [Answers, WorkLog.due_of_read ended, answered]
  exact answers

theorem skip (answers : Answers dispatcher log) :
    Answers dispatcher (.ended ⟨code, false⟩ result :: log) := by
  simp only [Answers, WorkLog.due_ended, WorkLog.read_cons] at answers ⊢
  simpa [Mark.answered?] using answers

theorem post (answers : Answers (some d) log) :
    Answers (some (d.post (code, result))) (.ended ⟨code, true⟩ result :: log) := by
  simp only [Answers, WorkLog.due_ended, WorkLog.read_cons, queued, Dispatcher.post] at answers ⊢
  have more := congrArg (· ++ [((code, result), true)]) answers
  simpa [Mark.answered?] using more

theorem atOnce (answers : Answers none log) :
    Answers none (.answered code result false :: .ended ⟨code, true⟩ result :: log) := by
  have same : WorkLog.due (.answered code result false :: .ended ⟨code, true⟩ result :: log) =
      WorkLog.due (.ended ⟨code, true⟩ result :: log) :=
    WorkLog.due_of_read (by simp [WorkLog.read_cons, Mark.ended?])
  simp only [Answers, same, WorkLog.due_ended, WorkLog.read_cons, queued] at answers ⊢
  simpa [Mark.answered?] using answers

theorem drain (answers : Answers (some d) log) (executed : Nat) :
    Answers (some { d with queue := [], executed }) (.drained d.queue ++ log) := by
  have same : WorkLog.due (.drained d.queue ++ log) = log.due :=
    WorkLog.due_of_read (WorkLog.read_drained (fun _ _ => rfl) d.queue log)
  have given : WorkLog.read Mark.answered? (.drained d.queue : WorkLog σ ρ ε) =
      d.queue.map (·, true) := by
    simp [WorkLog.read, WorkLog.drained, List.filterMap_reverse, List.filterMap_map,
      Function.comp_def, Mark.answered?]
  simp only [Answers, same, WorkLog.read_append, given, queued] at answers ⊢
  simpa using answers

end Answers

/-! ## The invariant -/

/-- Tasks do not wait for their own thread, and do not crash. -/
structure Trade.Fair (T : Trade σ ρ ε) : Prop where
  orders : ∀ code, (T.body code).All Order.Fair
  ends : ∀ code s, (Workshop.follow (T.body code) s).1.isSome

/-- Of orders neither starts nor ends are logged, nor answers. -/
theorem Order.read_marks {α : Type} {f : Mark σ ρ ε → Option α}
    (sending : ∀ task, f (.accepted task) = none ∧ f (.refused task) = none)
    (stopping : f .stopped = none) (changing : ∀ g, f (.changed g) = none) (o : Order σ ε)
    (r : o.Result) : WorkLog.read f (o.marks r) = [] := by
  cases o with
  | send task => cases r <;> simp [marks, WorkLog.read, sending]
  | stop => simp [marks, WorkLog.read, stopping]
  | joinInside => rfl
  | change g => simp [marks, WorkLog.read, changing]

namespace Logged

structure Kept (x : Logged σ ρ ε) : Prop where
  regular : x.shop.thread.Regular
  roster : Roster x.shop.thread.worker x.log
  begun : x.log.read Mark.started? =
    (x.log.read Mark.ended?).map (·.1) ++ x.shop.thread.current.toList
  answers : Answers x.shop.dispatcher x.log
  consistent : x.log.Consistent x.shop.dispatcher.isSome

/-- Neither the task at hand nor the results that wait have changed, and nothing is logged of
    either. -/
structure Beside (x y : Logged σ ρ ε) : Prop where
  current : y.shop.thread.current = x.shop.thread.current
  dispatcher : y.shop.dispatcher = x.shop.dispatcher
  older : x.log <:+ y.log
  started : y.log.read Mark.started? = x.log.read Mark.started?
  ended : y.log.read Mark.ended? = x.log.read Mark.ended?
  answered : y.log.read Mark.answered? = x.log.read Mark.answered?

theorem Beside.refl (x : Logged σ ρ ε) : Beside x x := ⟨rfl, rfl, List.suffix_rfl, rfl, rfl, rfl⟩

theorem Beside.trans {x y z : Logged σ ρ ε} (first : Beside x y) (second : Beside y z) :
    Beside x z where
  current := second.current.trans first.current
  dispatcher := second.dispatcher.trans first.dispatcher
  older := first.older.trans second.older
  started := second.started.trans first.started
  ended := second.ended.trans first.ended
  answered := second.answered.trans first.answered

theorem beside_order (x : Logged σ ρ ε) (o : Order σ ε) : Beside x (x.order o).2 := by
  have same {α : Type} {f : Mark σ ρ ε → Option α}
      (sending : ∀ task, f (.accepted task) = none ∧ f (.refused task) = none)
      (stopping : f .stopped = none) (changing : ∀ g, f (.changed g) = none) :
      (x.order o).2.log.read f = x.log.read f := by
    show WorkLog.read f (o.marks (x.shop.order o).1 ++ x.log) = _
    rw [WorkLog.read_append, Order.read_marks sending stopping changing, List.append_nil]
  exact {
    current := by
      cases o with
      | send task => exact x.shop.thread.current_send task
      | stop => exact x.shop.thread.current_stop
      | joinInside => rfl
      | change f => rfl
    dispatcher := by cases o <;> rfl
    older := List.suffix_append _ _
    started := same (fun _ => ⟨rfl, rfl⟩) rfl fun _ => rfl
    ended := same (fun _ => ⟨rfl, rfl⟩) rfl fun _ => rfl
    answered := same (fun _ => ⟨rfl, rfl⟩) rfl fun _ => rfl }

theorem Kept.beside {x y : Logged σ ρ ε} (kept : x.Kept) (beside : Beside x y)
    (regular : y.shop.thread.Regular) (roster : Roster y.shop.thread.worker y.log)
    (consistent : y.log.Consistent y.shop.dispatcher.isSome) : y.Kept where
  regular := regular
  roster := roster
  consistent := consistent
  begun := by rw [beside.started, beside.ended, beside.current, kept.begun]
  answers := beside.dispatcher ▸ kept.answers.of_read beside.ended beside.answered

theorem Kept.order {x : Logged σ ρ ε} (kept : x.Kept) {o : Order σ ε} (fair : o.Fair) :
    (x.order o).2.Kept := by
  cases o with
  | send task =>
      -- The thread answers as the worker does, and that goes by the log.
      obtain ⟨regular, answer, worker⟩ := kept.regular.send task
      have roster := kept.roster.send (ε := ε) task
      have accepts := kept.roster.accepts
      rw [← answer] at accepts
      rw [← worker, ← answer] at roster
      refine kept.beside (beside_order x _) regular roster ?_
      show WorkLog.Consistent _ ((Order.send task).marks (x.shop.thread.send task).1 ++ x.log)
      cases taken : (x.shop.thread.send task).1 with
      | true => exact kept.consistent.cons (accepts.mp taken)
      | false =>
          refine kept.consistent.cons (Classical.not_not.mp fun never => ?_)
          exact absurd (taken.symm.trans (accepts.mpr never)) (by decide)
  | stop =>
      obtain ⟨regular, worker⟩ := kept.regular.stop
      have roster := kept.roster.stop
      rw [← worker] at roster
      exact kept.beside (beside_order x _) regular roster (kept.consistent.cons trivial)
  | joinInside => exact fair.elim
  | change f =>
      exact kept.beside (beside_order x _) kept.regular (kept.roster.aside trivial)
        (kept.consistent.cons trivial)

theorem Kept.follow {α : Type} {x : Logged σ ρ ε} (kept : x.Kept) {code : Craft σ ρ ε α}
    (fair : code.All Order.Fair) :
    (x.follow code).2.Kept ∧ Beside x (x.follow code).2 := by
  induction code generalizing x with
  | done r => exact ⟨kept, .refl x⟩
  | look next ih => exact ih x.shop kept (fair x.shop)
  | act o next ih =>
      obtain ⟨kept', beside⟩ := ih (x.order o).1 (kept.order fair.1) (fair.2 _)
      exact ⟨kept', (beside_order x o).trans beside⟩

/-! ## What the thread does -/

section Working

variable {T : Trade σ ρ ε}

theorem Kept.finish {x : Logged σ ρ ε} (kept : x.Kept) {task : Assignment σ}
    (busy : x.shop.thread.current = some task) (result : ρ) : (x.finish T task result).Kept := by
  obtain ⟨regular, worker⟩ := kept.regular.finish busy
  have queue : x.shop.thread.worker.queue = task :: x.shop.thread.waiting := by
    simp [WorkerThread.worker, WorkerThread.unfinished, busy]
  have roster := kept.roster.finish queue result
  rw [← worker] at roster
  have begun : WorkLog.read Mark.started? (.ended task result :: x.log) =
      (WorkLog.read Mark.ended? (.ended task result :: x.log)).map (·.1) ++ [] := by
    simp [WorkLog.read_cons, kept.begun, busy, Mark.started?, Mark.ended?]
  have answers := kept.answers
  have consistent := kept.consistent
  obtain ⟨⟨thread, dispatcher, client⟩, log⟩ := x
  obtain ⟨code, answering⟩ := task
  cases answering with
  | false =>
      refine ⟨regular, roster, begun, answers.skip, consistent.cons fun answers => ?_⟩
      exact absurd answers Bool.false_ne_true
  | true =>
      cases dispatcher with
      | some d =>
          refine ⟨regular, roster, begun, answers.post, consistent.cons fun _ alone => ?_⟩
          exact absurd alone.symm Bool.false_ne_true
      | none =>
          refine ⟨regular, roster.aside trivial, begun, answers.atOnce, ?_⟩
          refine consistent.append [.answered code result false, .ended ⟨code, true⟩ result] ?_
          -- Of the two marks only the end asks for a later one, and that is the answer.
          rintro (_ | ⟨first, _ | ⟨second, later⟩⟩) m earlier split
          · obtain ⟨rfl, -⟩ := List.cons.inj split
            trivial
          · obtain ⟨rfl, rest⟩ := List.cons.inj split
            obtain ⟨rfl, -⟩ := List.cons.inj rest
            exact fun _ _ => rfl
          · simp at split

theorem Kept.take {x : Logged σ ρ ε} (kept : x.Kept) (idle : x.shop.thread.current = none)
    {thread : WorkerThread (Assignment σ)} (took : x.shop.thread.take? = some thread) :
    Kept ⟨{ x.shop with thread }, (thread.current.map Mark.started).toList ++ x.log⟩ := by
  obtain ⟨regular, worker⟩ := kept.regular.take idle took
  have roster := kept.roster
  rw [← worker] at roster
  have begun := kept.begun
  rw [idle] at begun
  cases current : thread.current with
  | none =>
      exact ⟨regular, roster, by simpa [current] using begun, kept.answers, kept.consistent⟩
  | some task =>
      refine ⟨regular, roster.aside trivial, ?_, ?_, kept.consistent.cons trivial⟩
      · simpa [WorkLog.read_cons, Mark.started?, Mark.ended?, current] using begun
      · exact kept.answers.of_read (by simp [WorkLog.read_cons, Mark.ended?])
          (by simp [WorkLog.read_cons, Mark.answered?])

/-- What the thread does next. -/
theorem Kept.step?_cases {x y : Logged σ ρ ε} (kept : x.Kept) (fair : T.Fair)
    (stepped : x.step? T = some y) :
    (∃ task result z, x.shop.thread.current = some task ∧ z.Kept ∧ Beside x z ∧
      y = z.finish T task result) ∨
    (∃ thread, x.shop.thread.current = none ∧ x.shop.thread.take? = some thread ∧
      y = ⟨{ x.shop with thread }, (thread.current.map Mark.started).toList ++ x.log⟩) := by
  unfold step? at stepped
  cases current : x.shop.thread.current with
  | none =>
      rw [current] at stepped
      obtain ⟨thread, took, rfl⟩ := Option.map_eq_some_iff.mp stepped
      exact .inr ⟨thread, rfl, took, rfl⟩
  | some task =>
      rw [current] at stepped
      obtain ⟨kept', beside⟩ := kept.follow (fair.orders task.code)
      obtain ⟨result, ends⟩ := Option.isSome_iff_exists.mp (fair.ends task.code x.shop)
      rw [← (follow_shop (T.body task.code) x).1] at ends
      refine .inl ⟨task, result, _, rfl, kept', beside, (Option.some.inj stepped).symm.trans ?_⟩
      rw [work]
      generalize x.follow (T.body task.code) = after at ends ⊢
      obtain ⟨outcome, z⟩ := after
      obtain rfl : outcome = some result := ends
      rfl

theorem Kept.step {x y : Logged σ ρ ε} (kept : x.Kept) (fair : T.Fair)
    (stepped : x.step? T = some y) : y.Kept := by
  rcases kept.step?_cases fair stepped with
    ⟨task, result, z, busy, kept', beside, rfl⟩ | ⟨thread, idle, took, rfl⟩
  · exact kept'.finish (beside.current.trans busy) result
  · exact kept.take idle took

/-- A thread that does nothing more on its own has no task at hand, and finds no letter. -/
theorem step?_eq_none {s : Workshop σ ρ ε} (still : s.step? T = none) :
    s.thread.current = none ∧ s.thread.take? = none := by
  unfold Workshop.step? at still
  cases current : s.thread.current with
  | some task => simp [current] at still
  | none => exact ⟨rfl, by simpa [current] using still⟩

/-! ## What the owner does -/

theorem Kept.drain {x y : Logged σ ρ ε} (kept : x.Kept) (drained : x.drain? T = some y) :
    y.Kept ∧ queued y.shop.dispatcher = [] ∧ y.shop.dispatcher.isSome := by
  obtain ⟨regular, roster, begun, answers, consistent⟩ := kept
  obtain ⟨⟨thread, dispatcher, client⟩, log⟩ := x
  cases dispatcher with
  | none => cases drained
  | some d =>
      cases drained
      refine ⟨⟨regular, roster.asides fun m there => ?_, ?_, answers.drain _,
        consistent.append _ fun later m earlier split => ?_⟩, rfl, rfl⟩
      · obtain ⟨code, result, rfl⟩ := WorkLog.mem_drained there
        trivial
      · rw [queued, WorkLog.read_drained fun _ _ => rfl, WorkLog.read_drained fun _ _ => rfl]
        exact begun
      · have there : m ∈ WorkLog.drained d.queue := by
          rw [queued] at split
          simp [split]
        obtain ⟨code, result, rfl⟩ := WorkLog.mem_drained there
        trivial

theorem Kept.join {x y : Logged σ ρ ε} (kept : x.Kept) (still : x.shop.step? T = none)
    (joined : x.join? = some y) : y.Kept := by
  obtain ⟨⟨well, shop⟩, waited, rfl⟩ := Option.map_eq_some_iff.mp joined
  obtain ⟨⟨well', thread⟩, joins, same⟩ := Option.map_eq_some_iff.mp waited
  obtain ⟨rfl, rfl⟩ := Prod.mk.inj same
  obtain ⟨idle, none⟩ := step?_eq_none still
  obtain ⟨regular, current⟩ := kept.regular.of_join joins
  have tells := kept.regular.join idle none
  rw [joins] at tells
  obtain ⟨roster, fits⟩ := kept.roster.join tells.symm
  refine ⟨regular, roster, ?_, ?_, kept.consistent.cons fits⟩
  · simpa [WorkLog.read_cons, Mark.started?, Mark.ended?, current] using kept.begun
  · exact kept.answers.of_read (by simp [WorkLog.read_cons, Mark.ended?])
      (by simp [WorkLog.read_cons, Mark.answered?])

theorem Kept.call {x y : Logged σ ρ ε} (kept : x.Kept) (fair : T.Fair) {call : Workshop.Call σ ε}
    (called : x.call? T call = some y) : y.Kept := by
  cases call with
  | goOn => exact kept.step fair called
  | order o orderFair =>
      obtain ⟨-, ordered⟩ := Option.ite_none_right_eq_some.mp called
      exact Option.some.inj ordered ▸ kept.order orderFair
  | drain =>
      obtain ⟨-, drained⟩ := Option.ite_none_right_eq_some.mp called
      exact (kept.drain drained).1
  | join =>
      obtain ⟨still, joined⟩ := Option.ite_none_right_eq_some.mp called
      exact kept.join (Option.isNone_iff_eq_none.mp still) joined

theorem Kept.history {x y : Logged σ ρ ε} (kept : x.Kept) (fair : T.Fair)
    {calls : List (Workshop.Call σ ε)} (ran : x.history? T calls = some y) : y.Kept := by
  induction calls generalizing x with
  | nil => exact Option.some.inj ran ▸ kept
  | cons call rest ih =>
      obtain ⟨z, called, ran⟩ := Option.bind_eq_some_iff.mp ran
      exact ih (kept.call fair called) ran

theorem kept_new (hasDispatcher : Bool) (client : ε) :
    Kept (⟨.new hasDispatcher client, []⟩ : Logged σ ρ ε) where
  regular := WorkerThread.regular_new
  roster := ⟨rfl, rfl, ⟨fun _ => List.not_mem_nil, fun _ => rfl⟩,
    ⟨fun _ _ => List.not_mem_nil, fun _ => rfl⟩, nofun⟩
  begun := rfl
  answers := by cases hasDispatcher <;> rfl
  consistent := WorkLog.consistent_nil

/-! ## Every task has its turn -/

/-- The thread may go on for some time. -/
abbrev GoesOn (T : Trade σ ρ ε) : Logged σ ρ ε → Logged σ ρ ε → Prop :=
  ReflTransGen fun x y => x.step? T = some y

theorem log_finish (x : Logged σ ρ ε) (task : Assignment σ) (result : ρ) :
    x.log <:+ (x.finish T task result).log ∧
      (x.finish T task result).log.read Mark.ended? =
        x.log.read Mark.ended? ++ [(task, result)] := by
  unfold Logged.finish
  constructor
  · exact (List.suffix_cons _ _).trans (List.suffix_append _ _)
  · rw [WorkLog.read_append, WorkLog.read_cons]
    split <;> simp [WorkLog.read, Mark.ended?]

theorem Kept.works {x : Logged σ ρ ε} (kept : x.Kept) (fair : T.Fair) {task : Assignment σ}
    (current : x.shop.thread.current = some task) :
    ∃ y, x.step? T = some y ∧ y.Kept ∧ x.log <:+ y.log ∧
      (y.log.read Mark.ended?).length = (x.log.read Mark.ended?).length + 1 := by
  have stepped : x.step? T = some (x.work T task) := by rw [step?, current]
  refine ⟨_, stepped, kept.step fair stepped, ?_⟩
  rcases kept.step?_cases fair stepped with
    ⟨task, result, z, -, -, beside, same⟩ | ⟨thread, idle, -⟩
  · obtain ⟨older, ended⟩ := log_finish (T := T) z task result
    rw [same, ended, beside.ended, List.length_append]
    exact ⟨beside.older.trans older, rfl⟩
  · cases current.symm.trans idle

/-- As long as tasks are not finished the thread goes on, until one more has ended. -/
theorem Kept.goesOn {x : Logged σ ρ ε} (kept : x.Kept) (fair : T.Fair)
    (busy : x.shop.thread.unfinished ≠ []) :
    ∃ y, GoesOn T x y ∧ y.Kept ∧ x.log <:+ y.log ∧
      (y.log.read Mark.ended?).length = (x.log.read Mark.ended?).length + 1 := by
  cases current : x.shop.thread.current with
  | some task =>
      obtain ⟨y, stepped, rest⟩ := kept.works fair current
      exact ⟨y, .single stepped, rest⟩
  | none =>
      cases waiting : x.shop.thread.waiting with
      | nil => exact absurd (by rw [WorkerThread.unfinished, current, waiting]; rfl) busy
      | cons task others =>
          -- The thread takes the task first.
          obtain ⟨thread, took, taken⟩ := kept.regular.take_of_waiting waiting
          have stepped : x.step? T = some ⟨{ x.shop with thread }, .started task :: x.log⟩ := by
            simp [step?, current, took, taken]
          obtain ⟨y, stepped', kept', older, more⟩ := (kept.step fair stepped).works fair taken
          refine ⟨y, .tail (.single stepped) stepped', kept', ?_, more.trans ?_⟩
          · exact (List.suffix_cons _ _).trans older
          · simp [WorkLog.read_cons, Mark.ended?]

theorem Kept.finishes {x : Logged σ ρ ε} (kept : x.Kept) (fair : T.Fair) :
    ∃ y, GoesOn T x y ∧
      x.log.read Mark.accepted? <+: (y.log.read Mark.ended?).map (·.1) := by
  -- By induction on how many of them have not ended.
  have later (n : Nat) : ∀ {z : Logged σ ρ ε}, z.Kept → x.log <:+ z.log →
      (x.log.read Mark.accepted?).length ≤ (z.log.read Mark.ended?).length + n →
      ∃ y, GoesOn T z y ∧
        x.log.read Mark.accepted? <+: (y.log.read Mark.ended?).map (·.1) := by
    induction n with
    | zero =>
        intro z kept older few
        refine ⟨z, .refl, List.prefix_of_prefix_length_le (WorkLog.read_mono older) ?_ (by simpa)⟩
        exact ⟨_, kept.roster.order.symm⟩
    | succ n ih =>
        intro z kept older few
        by_cases busy : z.shop.thread.unfinished = []
        · refine ⟨z, .refl, ?_⟩
          have order := kept.roster.order
          rw [WorkerThread.worker, busy, List.append_nil] at order
          exact order ▸ WorkLog.read_mono older
        · obtain ⟨y, goesOn, kept', older', more⟩ := kept.goesOn fair busy
          obtain ⟨last, goesOn', ended⟩ := ih kept' (older.trans older') (by omega)
          exact ⟨last, goesOn.trans goesOn', ended⟩
  exact later _ kept List.suffix_rfl (Nat.le_add_left _ _)

end Working

/-! ## Altogether -/

structure InOrder (T : Trade σ ρ ε) (client : ε) (x : Logged σ ρ ε) : Prop where
  /-- The accepted tasks have ended, are at hand or wait, in the order of acceptance. -/
  order : x.log.read Mark.accepted? =
    (x.log.read Mark.ended?).map (·.1) ++ x.shop.thread.unfinished
  /-- Each of those that have ended or are at hand was started once, in this order. -/
  begun : x.log.read Mark.started? =
    (x.log.read Mark.ended?).map (·.1) ++ x.shop.thread.current.toList
  /-- Each of those that wait has its turn, without anything done by the owner. -/
  finishes : ∃ y, GoesOn T x y ∧
    x.log.read Mark.accepted? <+: (y.log.read Mark.ended?).map (·.1)
  /-- When the thread does nothing more on its own all accepted tasks have ended. -/
  idle : x.shop.step? T = none →
    x.log.read Mark.accepted? = (x.log.read Mark.ended?).map (·.1)
  /-- A task is accepted if and only if the worker was not stopped before; without a dispatcher its
      callback is given the result right after its end; and whoever waits for the end of the thread
      does so after all accepted tasks have ended. -/
  consistent : x.log.Consistent x.shop.dispatcher.isSome
  accepts : ∀ task, (x.shop.order (.send task)).1 = true ↔ .stopped ∉ x.log
  /-- Once the worker is stopped, neither sending a task nor stopping it changes anything. -/
  stopped : .stopped ∈ x.log →
    (∀ task, (x.shop.order (.send task)).2 = x.shop) ∧ (x.shop.order .stop).2 = x.shop
  /-- Each callback is given the result of its own task, in order. -/
  answers : Answers x.shop.dispatcher x.log
  effects : Effects T client x
  drained : ∀ y, x.drain? T = some y →
    y.log.read Mark.answered? = y.log.due.map (·, true)
  pending : x.shop.thread.pending + (x.log.read Mark.ended?).length =
    (x.log.read Mark.accepted?).length
  /-- Nothing is left after the end of the thread was waited for. -/
  joined : ∀ well, .joined well ∈ x.log → x.shop.thread.pending = 0
  /-- The end of the thread can be waited for once the worker is stopped. -/
  returns : x.shop.step? T = none → (x.join?.isSome ↔ .stopped ∈ x.log)

theorem Kept.inOrder {T : Trade σ ρ ε} {client : ε} {x : Logged σ ρ ε} (kept : x.Kept)
    (fair : T.Fair) (effects : Effects T client x) : InOrder T client x := by
  have order : x.log.read Mark.accepted? =
      (x.log.read Mark.ended?).map (·.1) ++ x.shop.thread.unfinished := kept.roster.order
  have sound : x.shop.thread.course ≠ .crashed := of_decide_eq_true kept.roster.sound
  have count := kept.regular.count sound
  exact {
    order
    begun := kept.begun
    finishes := kept.finishes fair
    consistent := kept.consistent
    answers := kept.answers
    effects
    idle := fun still => by
      obtain ⟨idle, none⟩ := step?_eq_none still
      rw [order, kept.regular.unfinished_of_still idle none, List.append_nil]
    accepts := fun task => by
      have answer := (kept.regular.send task).2.1
      exact (iff_of_eq (congrArg (· = true) answer)).trans kept.roster.accepts
    stopped := fun stopped => by
      have running : x.shop.thread.running = false := kept.roster.stopped.mpr stopped
      simp [Workshop.order, WorkerThread.send_of_stopped running,
        WorkerThread.stop_of_stopped running]
    drained := fun y drained => by
      obtain ⟨kept', empty, posting⟩ := kept.drain drained
      have answers := kept'.answers
      rwa [Answers, empty, posting, List.map_nil, List.append_nil] at answers
    pending := by rw [order, count, List.length_append, List.length_map, Nat.add_comm]
    joined := fun well joined => by
      have shut : x.shop.thread.worker.joinable = false :=
        Bool.eq_false_iff.mpr fun open_ => kept.roster.joinable.mp open_ well joined
      exact count.trans (congrArg List.length (kept.roster.spent shut).2)
    returns := fun still => by
      obtain ⟨idle, none⟩ := step?_eq_none still
      have tells := congrArg Option.isSome (kept.regular.join idle none)
      have empty : x.shop.thread.worker.queue = [] := kept.regular.unfinished_of_still idle none
      rw [kept.roster.join?_eq, Option.isSome_map] at tells
      simp [Logged.join?, Workshop.join?, tells, empty, ← kept.roster.stopped] }

end Logged

open Logged in
/-- Whatever the history of a worker is, its tasks run in the order of acceptance, each once, and
    the callbacks are given the results in that order. -/
theorem worker_in_order {T : Trade σ ρ ε} (fair : T.Fair) {hasDispatcher : Bool} {client : ε}
    {calls : List (Workshop.Call σ ε)} {s : Workshop σ ρ ε}
    (ran : (Workshop.new hasDispatcher client).history? T calls = some s) :
    ∃ log, Logged.history? T ⟨.new hasDispatcher client, []⟩ calls = some ⟨s, log⟩ ∧
      InOrder T client ⟨s, log⟩ := by
  have logged := history?_shop T ⟨.new hasDispatcher client, []⟩ calls
  rw [ran] at logged
  obtain ⟨⟨_, log⟩, noted, rfl⟩ := Option.map_eq_some_iff.mp logged
  have kept := (kept_new hasDispatcher client).history fair noted
  have effects : Effects T client ⟨.new hasDispatcher client, []⟩ := rfl
  exact ⟨log, noted, kept.inOrder fair (effects.history noted)⟩

/-- The first task sends another one, stops the worker, and sends one that is refused. Callbacks
    note what they are given. -/
def errands : Trade Nat Nat (List (Nat × Nat × Bool)) where
  body
    | 0 => .act (.send ⟨1, true⟩) fun _ => .act .stop fun _ => .act (.send ⟨2, true⟩) fun _ =>
        .done (some 10)
    | code + 1 => .done (some (code + 11))
  callback code result onPresentation given := given ++ [(code, result, onPresentation)]

theorem fair_errands : errands.Fair where
  orders
    | 0 => ⟨trivial, fun _ => ⟨trivial, fun _ => ⟨trivial, fun _ => trivial⟩⟩⟩
    | _ + 1 => trivial
  ends
    | 0, _ => rfl
    | _ + 1, _ => rfl

/-- The first task is sent. When both have run their callbacks run, and the end of the thread is
    waited for. -/
def errandDay : List (Workshop.Call Nat (List (Nat × Nat × Bool))) :=
  [.order (.send ⟨0, true⟩) trivial, .goOn, .goOn, .goOn, .goOn, .goOn, .goOn, .drain, .join,
    .order .stop trivial]

open Logged in
theorem order_of_errands : ∃ s log,
    (Workshop.new true []).history? errands errandDay = some s ∧ InOrder errands [] ⟨s, log⟩ ∧
    s.client = [(0, 10, true), (1, 11, true)] ∧
    log.read Mark.ended? = [(⟨0, true⟩, 10), (⟨1, true⟩, 11)] := by
  have ran : (Workshop.new true []).history? errands errandDay =
      some ⟨⟨[], .ended, none, false, 0, false⟩, some ⟨[], 2, 2⟩,
        [(0, 10, true), (1, 11, true)]⟩ := rfl
  obtain ⟨log, logged, inOrder⟩ := worker_in_order fair_errands ran
  refine ⟨_, log, ran, inOrder, rfl, ?_⟩
  obtain rfl := congrArg Logged.log (Option.some.inj logged)
  rfl

end Mvc
