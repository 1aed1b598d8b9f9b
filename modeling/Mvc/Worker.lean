/-! # Workers

A worker has a thread of its own that runs accepted tasks one at a time in the order of
acceptance. Once it is stopped it accepts no more tasks, runs those that it has, and its
thread ends. A task that crashes ends the thread at once: it and the tasks behind it stay
unfinished for good, and nothing is accepted any more.
-/

namespace Mvc

/-- A worker for tasks of a type. -/
structure Worker (τ : Type) where
  /-- Whether it was not stopped yet. -/
  running : Bool
  /-- Whether no task has crashed. -/
  sound : Bool
  /-- The accepted tasks that are not finished, the one at hand first. -/
  queue : List τ
  /-- The number of tasks that a crash left unfinished. -/
  lost : Nat
  /-- Whether nobody has waited for the end of the thread yet. -/
  joinable : Bool

namespace Worker

variable {τ : Type}

/-- A worker without tasks. -/
def new : Worker τ := ⟨true, true, [], 0, true⟩

instance : Inhabited (Worker τ) := ⟨new⟩

/-- The number of accepted tasks that are not finished. -/
def pending (w : Worker τ) : Nat := w.queue.length + w.lost

/-- Whether a task is accepted. -/
def accepts (w : Worker τ) : Bool := w.running && w.sound

/-- Accept a task, if the worker still does. -/
def send (w : Worker τ) (task : τ) : Worker τ :=
  if w.accepts then { w with queue := w.queue ++ [task] } else w

/-- Accept no more tasks. -/
def stop (w : Worker τ) : Worker τ := { w with running := false }

/-- The task at hand is finished. -/
def finish (w : Worker τ) : Worker τ := { w with queue := w.queue.tail }

/-- The task at hand crashes. -/
def crash (w : Worker τ) : Worker τ :=
  { w with sound := false, queue := [], lost := w.lost + w.queue.length }

/-- Whether the thread has ended. -/
def ended (w : Worker τ) : Bool := !w.sound || (!w.running && w.queue.isEmpty)

/-- Wait for the end of the thread; tell whether it ended well and nobody had waited before.
    A worker that was not stopped has no such end. -/
def join? (w : Worker τ) : Option (Worker τ × Bool) :=
  if !w.joinable then some (w, false)
  else if w.ended then some ({ w with joinable := false }, w.sound)
  else none

/-- Wait for the end of the thread on the thread itself, which cannot be done; nobody else can
    do it afterwards. -/
def joinInside (w : Worker τ) : Worker τ := { w with joinable := false }

/-- The diagnostic text. -/
def diagnostic (w : Worker τ) : String :=
  "Worker \x7b running: " ++ (if w.running then "true" else "false") ++ ", pending: " ++
    toString w.pending ++ " \x7d"

end Worker

end Mvc
