import Mvc.Worker
import Mvc.Worker.Thread

/-! # What the thread of a worker comes to

As long as nobody sends between the check that tasks are accepted and the sending itself, the
letters of a thread are tasks with at most one word to shut down behind them (`Regular`). Then it
does not matter how the thread goes about its letters. A worker is its tasks in the order of
acceptance, the one at hand first, and whether it takes more (`WorkerThread.worker`). Taking a
letter changes nothing about that.
-/

namespace Mvc

variable {τ : Type}

namespace Letter

def task? : Letter τ → Option τ
  | execute task => some task
  | shutdown => none

def tasks (letters : List (Letter τ)) : List τ := letters.filterMap task?

@[simp] theorem tasks_nil : tasks ([] : List (Letter τ)) = [] := rfl

@[simp] theorem tasks_execute (task : τ) (rest : List (Letter τ)) :
    tasks (execute task :: rest) = task :: tasks rest := rfl

@[simp] theorem tasks_shutdown (rest : List (Letter τ)) : tasks (shutdown :: rest) = tasks rest :=
  rfl

@[simp] theorem tasks_append (letters more : List (Letter τ)) :
    tasks (letters ++ more) = tasks letters ++ tasks more := List.filterMap_append

end Letter

namespace WorkerThread

/-- The tasks that were not taken yet. -/
def waiting (t : WorkerThread τ) : List τ := Letter.tasks t.letters

/-- The accepted tasks that are not finished. -/
def unfinished (t : WorkerThread τ) : List τ := t.current.toList ++ t.waiting

/-- What a thread comes to. -/
def worker (t : WorkerThread τ) : Worker τ where
  running := t.running
  sound := t.course ≠ .crashed
  queue := t.unfinished
  lost := if t.course = .crashed then t.pending else 0
  joinable := t.joinable

/-- What the letters of a thread look like that has come so far. -/
def Shape (t : WorkerThread τ) : Prop :=
  match t.course with
  | .receiving =>
    t.letters = t.waiting.map .execute ++ if t.running then [] else [.shutdown]
  | .draining => t.running = false ∧ t.letters = t.waiting.map .execute
  | .ended => t.running = false ∧ t.letters = [] ∧ t.current = none
  | .crashed => t.letters = [] ∧ t.current = none

/-- The letters are in order, and the tasks that are not finished are counted. -/
structure Regular (t : WorkerThread τ) : Prop where
  shape : t.Shape
  count : t.course ≠ .crashed → t.pending = t.unfinished.length

variable {t t' : WorkerThread τ} {task : τ}

theorem regular_new : (new : WorkerThread τ).Regular := ⟨rfl, fun _ => rfl⟩

/-- A thread whose worker accepts tasks waits for letters, unless it has crashed. -/
theorem Regular.course_of_running (regular : t.Regular) (running : t.running = true) :
    t.course = .receiving ∨ t.course = .crashed := by
  have shape := regular.shape
  unfold Shape at shape
  split at shape
  · exact .inl ‹_›
  · exact nomatch running.symm.trans shape.1
  · exact nomatch running.symm.trans shape.1
  · exact .inr ‹_›

/-! ## Sending and stopping -/

theorem send_of_receiving (running : t.running = true) (course : t.course = .receiving)
    (task : τ) : t.send task =
      (true, { t with pending := t.pending + 1, letters := t.letters ++ [.execute task] }) := by
  simp [send, mail, running, course]

theorem send_of_crashed (running : t.running = true) (course : t.course = .crashed) (task : τ) :
    t.send task = (false, t) := by
  cases t
  simp_all [send, mail]

theorem send_of_stopped (running : t.running = false) (task : τ) : t.send task = (false, t) := by
  simp [send, running]

theorem current_send (t : WorkerThread τ) (task : τ) : (t.send task).2.current = t.current := by
  unfold send mail
  cases t.running <;> cases t.course <;> rfl

theorem current_stop (t : WorkerThread τ) : t.stop.current = t.current := by
  unfold stop mail
  cases t.running <;> cases t.course <;> rfl

/-- A task that is accepted is the last one. -/
theorem Regular.send (regular : t.Regular) (task : τ) :
    (t.send task).2.Regular ∧ (t.send task).1 = t.worker.accepts ∧
      (t.send task).2.worker = t.worker.send task := by
  cases running : t.running with
  | false =>
      rw [send_of_stopped running]
      have refuses : t.worker.accepts = false := by simp [Worker.accepts, worker, running]
      exact ⟨regular, refuses.symm, by simp [Worker.send, refuses]⟩
  | true =>
      rcases regular.course_of_running running with course | course
      · rw [send_of_receiving running course]
        have accepts : t.worker.accepts = true := by simp [Worker.accepts, worker, running, course]
        have shape := regular.shape
        have count := regular.count (by simp [course])
        simp only [Shape, course, running, if_true, List.append_nil] at shape
        refine ⟨⟨?_, fun _ => ?_⟩, accepts.symm, ?_⟩
        · simp only [Shape, course, running, if_true, List.append_nil, waiting,
            Letter.tasks_append, List.map_append]
          exact congrArg (· ++ [Letter.execute task]) shape
        · simp only [unfinished, waiting, Letter.tasks_append, Letter.tasks_execute,
            Letter.tasks_nil, List.length_append, List.length_singleton] at count ⊢
          omega
        · simp only [Worker.send, accepts, if_true]
          simp only [worker, unfinished, waiting, Letter.tasks_append, course, List.append_assoc]
          rfl
      · rw [send_of_crashed running course]
        have refuses : t.worker.accepts = false := by simp [Worker.accepts, worker, course]
        exact ⟨regular, refuses.symm, by simp [Worker.send, refuses]⟩

theorem stop_of_stopped (running : t.running = false) : t.stop = t := by
  simp [stop, running]

theorem stop_of_receiving (running : t.running = true) (course : t.course = .receiving) :
    t.stop = { t with running := false, letters := t.letters ++ [.shutdown] } := by
  simp [stop, mail, running, course]

/-- Behind the word to shut down there are no tasks. -/
theorem Regular.stop (regular : t.Regular) :
    t.stop.Regular ∧ t.stop.worker = t.worker.stop := by
  cases running : t.running with
  | false =>
      rw [stop_of_stopped running]
      exact ⟨regular, by cases t; simp_all [Worker.stop, worker]⟩
  | true =>
      have shape := regular.shape
      have count := regular.count
      rcases regular.course_of_running running with course | course
      · have same : Letter.tasks (t.letters ++ [Letter.shutdown]) = t.waiting := by
          simp [waiting]
        rw [stop_of_receiving running course]
        simp only [Shape, course, running, if_true, List.append_nil] at shape
        refine ⟨⟨?_, fun _ => ?_⟩, ?_⟩
        · simp only [Shape, course, waiting, same]
          exact congrArg (· ++ [Letter.shutdown]) shape
        · simpa only [unfinished, waiting, same] using count (by simp [course])
        · simp only [worker, unfinished, waiting, same]
          rfl
      · have stopped : t.stop = { t with running := false } := by
          simp [WorkerThread.stop, mail, running, course]
        rw [stopped]
        refine ⟨⟨?_, count⟩, rfl⟩
        simpa only [Shape, course] using shape

/-! ## Taking letters and finishing tasks -/

theorem eq_of_shutdown {rest letters : List (Letter τ)} {tasks : List τ}
    (shape : .shutdown :: rest = tasks.map .execute ++ letters) : letters = .shutdown :: rest := by
  cases tasks with
  | nil => exact shape.symm
  | cons task others => cases (List.cons.inj shape).1

/-- Taking a letter changes nothing about what a thread comes to. -/
theorem Regular.take (regular : t.Regular) (idle : t.current = none) (took : t.take? = some t') :
    t'.Regular ∧ t'.worker = t.worker := by
  obtain ⟨shape, count⟩ := regular
  obtain ⟨letters, course, current, running, pending, joinable⟩ := t
  obtain rfl : current = none := idle
  cases course with
  | receiving =>
      cases letters with
      | nil => cases took
      | cons letter rest =>
          cases letter with
          | execute task =>
              cases took
              exact ⟨⟨(List.cons.inj shape).2, count⟩, rfl⟩
          | shutdown =>
              -- It is the last letter, so nothing is left behind it.
              cases took
              have last := eq_of_shutdown shape
              cases running with
              | true => cases last
              | false =>
                  obtain rfl : [] = rest := (List.cons.inj last).2
                  exact ⟨⟨⟨rfl, rfl⟩, fun _ => count nofun⟩, rfl⟩
  | draining =>
      obtain ⟨stopped, shape⟩ := shape
      obtain rfl : running = false := stopped
      cases letters with
      | nil =>
          cases took
          exact ⟨⟨⟨rfl, rfl, rfl⟩, fun _ => count nofun⟩, rfl⟩
      | cons letter rest =>
          cases letter with
          | execute task =>
              cases took
              exact ⟨⟨⟨rfl, (List.cons.inj shape).2⟩, count⟩, rfl⟩
          | shutdown =>
              have last := eq_of_shutdown (shape.trans (List.append_nil _).symm)
              cases last
  | ended => cases took
  | crashed => cases took

/-- Whoever has a task at hand has neither ended nor crashed. -/
theorem Regular.course_of_current (regular : t.Regular) (busy : t.current = some task) :
    t.course = .receiving ∨ t.course = .draining := by
  have shape := regular.shape
  unfold Shape at shape
  split at shape
  · exact .inl ‹_›
  · exact .inr ‹_›
  · exact nomatch busy.symm.trans shape.2.2
  · exact nomatch busy.symm.trans shape.2

/-- The task at hand is the first of those that are not finished. -/
theorem Regular.finish (regular : t.Regular) (busy : t.current = some task) :
    t.finish.Regular ∧ t.finish.worker = t.worker.finish := by
  have course := regular.course_of_current busy
  obtain ⟨shape, count⟩ := regular
  obtain ⟨letters, way, current, running, pending, joinable⟩ := t
  obtain rfl : current = some task := busy
  rcases course with course | course
  all_goals
    obtain rfl : way = _ := course
    have counted : pending = (Letter.tasks letters).length + 1 := count nofun
    refine ⟨⟨shape, fun _ => ?_⟩, rfl⟩
    show pending - 1 = (Letter.tasks letters).length
    omega

/-- A crash leaves unfinished what is not finished. -/
theorem Regular.crash (regular : t.Regular) (busy : t.current = some task) :
    t.crash.Regular ∧ t.crash.worker = t.worker.crash := by
  have course := regular.course_of_current busy
  have sound : t.course ≠ .crashed := by
    rcases course with course | course <;> simp [course]
  refine ⟨⟨⟨rfl, rfl⟩, fun sound => absurd rfl sound⟩, ?_⟩
  simp [worker, Worker.crash, WorkerThread.crash, unfinished, waiting, sound, regular.count sound]

theorem Regular.unfinished_of_still (regular : t.Regular) (idle : t.current = none)
    (still : t.take? = none) : t.unfinished = [] := by
  obtain ⟨shape, -⟩ := regular
  obtain ⟨letters, course, current, running, pending, joinable⟩ := t
  obtain rfl : current = none := idle
  cases letters with
  | nil => rfl
  | cons letter rest =>
      cases course with
      | receiving => cases letter <;> cases still
      | draining => cases letter <;> cases still
      | ended => cases shape.2.1
      | crashed => cases shape.1

/-- The first task that waits is the next letter. -/
theorem Regular.take_of_waiting (regular : t.Regular) {rest : List τ}
    (waiting : t.waiting = task :: rest) :
    ∃ t', t.take? = some t' ∧ t'.current = some task := by
  obtain ⟨shape, -⟩ := regular
  obtain ⟨letters, course, current, running, pending, joinable⟩ := t
  cases letters with
  | nil => cases waiting
  | cons letter others =>
      cases letter with
      | execute first =>
          obtain rfl : first = task := (List.cons.inj waiting).1
          cases course with
          | receiving => exact ⟨_, rfl, rfl⟩
          | draining => exact ⟨_, rfl, rfl⟩
          | ended => cases shape.2.1
          | crashed => cases shape.1
      | shutdown =>
          have later : Letter.tasks others = task :: rest := waiting
          simp only [Shape, WorkerThread.waiting, Letter.tasks_shutdown, later] at shape
          cases course with
          | receiving => cases (List.cons.inj shape).1
          | draining => cases (List.cons.inj shape.2).1
          | ended => cases shape.2.1
          | crashed => cases shape.1

/-- Waiting for the end of a thread changes nothing about its tasks. -/
theorem Regular.of_join (regular : t.Regular) {well : Bool} (joins : t.join? = some (well, t')) :
    t'.Regular ∧ t'.current = t.current := by
  obtain ⟨letters, course, current, running, pending, joinable⟩ := t
  cases joinable with
  | false =>
      cases joins
      exact ⟨regular, rfl⟩
  | true =>
      obtain ⟨shape, count⟩ := regular
      cases course with
      | receiving => cases joins
      | draining => cases joins
      | ended =>
          cases joins
          exact ⟨⟨shape, count⟩, rfl⟩
      | crashed =>
          cases joins
          exact ⟨⟨shape, count⟩, rfl⟩

/-- Whoever waits for the end of a thread that does nothing more on its own is told what the worker
    tells. -/
theorem Regular.join (regular : t.Regular) (idle : t.current = none) (still : t.take? = none) :
    t.join?.map (fun x => (x.2.worker, x.1)) = t.worker.join? := by
  obtain ⟨shape, -⟩ := regular
  obtain ⟨letters, course, current, running, pending, joinable⟩ := t
  obtain rfl : current = none := idle
  cases joinable with
  | false => rfl
  | true =>
      cases course with
      | receiving =>
          cases letters with
          | nil =>
              cases running with
              | true => rfl
              | false => cases shape
          | cons letter rest => cases letter <;> cases still
      | draining =>
          cases letters with
          | nil => cases still
          | cons letter rest => cases letter <;> cases still
      | ended =>
          obtain ⟨rfl, rfl, -⟩ := shape
          rfl
      | crashed =>
          obtain ⟨rfl, -⟩ := shape
          rfl

end WorkerThread

end Mvc
