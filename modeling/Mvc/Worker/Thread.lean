/-! # The thread of a worker

A worker is a channel to a thread of its own, and two things that both sides share: whether tasks
are accepted, and how many accepted tasks are not finished. The thread takes one letter after
another and runs a task before it takes the next letter. When it is told to shut down it runs the
tasks that it still finds in the channel, and ends. A task that crashes ends it at once, and what
is in the channel is lost.
-/

namespace Mvc

/-- What is sent to the thread of a worker. -/
inductive Letter (τ : Type) where
  | execute (task : τ)
  | shutdown

/-- How far the thread of a worker has come. -/
inductive Course where
  /-- It waits for letters. -/
  | receiving
  /-- It was told to shut down and takes the letters that are there. -/
  | draining
  | ended
  | crashed
  deriving DecidableEq

/-- A worker for tasks of a type, as its thread sees it. -/
structure WorkerThread (τ : Type) where
  /-- The letters that were not taken yet. -/
  letters : List (Letter τ)
  course : Course
  /-- The task that was taken and is not finished. -/
  current : Option τ
  /-- Whether tasks are accepted. -/
  running : Bool
  /-- The number of accepted tasks that are not finished. -/
  pending : Nat
  /-- Whether nobody has waited for the end of the thread yet. -/
  joinable : Bool

namespace WorkerThread

variable {τ : Type}

/-- A thread without tasks. -/
def new : WorkerThread τ := ⟨[], .receiving, none, true, 0, true⟩

/-- Put a letter into the channel; tell whether the thread is still there to take it. -/
def mail (t : WorkerThread τ) (letter : Letter τ) : Bool × WorkerThread τ :=
  match t.course with
  | .receiving | .draining => (true, { t with letters := t.letters ++ [letter] })
  | .ended | .crashed => (false, t)

/-- Send a task and tell whether it was accepted. -/
def send (t : WorkerThread τ) (task : τ) : Bool × WorkerThread τ :=
  if t.running then
    match { t with pending := t.pending + 1 }.mail (.execute task) with
    | (true, t) => (true, t)
    | (false, t) => (false, { t with pending := t.pending - 1 })
  else (false, t)

/-- Accept no more tasks, and tell the thread to shut down. -/
def stop (t : WorkerThread τ) : WorkerThread τ :=
  if t.running then ({ t with running := false }.mail .shutdown).2 else t

/-- Take the next letter. A thread that waits for letters has to find one; one that was told to
    shut down ends when it finds no task. -/
def take? (t : WorkerThread τ) : Option (WorkerThread τ) :=
  match t.course, t.letters with
  | .receiving, .execute task :: letters | .draining, .execute task :: letters =>
    some { t with letters, current := some task }
  | .receiving, .shutdown :: letters => some { t with letters, course := .draining }
  | .draining, _ => some { t with letters := [], course := .ended, running := false }
  | _, _ => none

/-- The task at hand is finished. -/
def finish (t : WorkerThread τ) : WorkerThread τ :=
  { t with current := none, pending := t.pending - 1 }

/-- The task at hand crashes. -/
def crash (t : WorkerThread τ) : WorkerThread τ :=
  { t with letters := [], course := .crashed, current := none }

/-- Wait for the end of the thread; tell whether it ended well and nobody had waited before. There
    is no result as long as it does not end. -/
def join? (t : WorkerThread τ) : Option (Bool × WorkerThread τ) :=
  if t.joinable then
    match t.course with
    | .ended => some (true, { t with joinable := false })
    | .crashed => some (false, { t with joinable := false })
    | .receiving | .draining => none
  else some (false, t)

/-- Wait for the end of the thread on the thread itself, which cannot be done; nobody else can
    do it afterwards. -/
def joinInside (t : WorkerThread τ) : Bool × WorkerThread τ := (false, { t with joinable := false })

/-- The diagnostic text. -/
def diagnostic (t : WorkerThread τ) : String :=
  "Worker \x7b running: " ++ (if t.running then "true" else "false") ++ ", pending: " ++
    toString t.pending ++ " \x7d"

end WorkerThread

end Mvc
