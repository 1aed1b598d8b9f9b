/-! # Dispatchers

The task queue of the presentation thread. Any thread posts to it; tasks leave it in the
order in which they came. Two counters tell how many tasks were ever posted and how many
have been executed.
-/

namespace Mvc

/-- A queue of tasks of type `τ`. -/
structure Dispatcher (τ : Type) where
  /-- The waiting tasks, the next one first. -/
  queue : List τ
  /-- How many tasks were posted. -/
  posted : Nat
  /-- How many tasks have run to their end. -/
  executed : Nat

namespace Dispatcher

variable {τ : Type}

/-- A dispatcher without tasks. -/
def new : Dispatcher τ := ⟨[], 0, 0⟩

instance : Inhabited (Dispatcher τ) := ⟨new⟩

/-- Queue a task. -/
def post (d : Dispatcher τ) (task : τ) : Dispatcher τ :=
  { d with queue := d.queue ++ [task], posted := d.posted + 1 }

/-- Take the next task. -/
def next? (d : Dispatcher τ) : Option (τ × Dispatcher τ) :=
  match d.queue with
  | task :: queue => some (task, { d with queue })
  | [] => none

/-- Count a task that has run. -/
def finish (d : Dispatcher τ) : Dispatcher τ := { d with executed := d.executed + 1 }

/-- The number of waiting tasks. -/
def pending (d : Dispatcher τ) : Nat := d.queue.length

end Dispatcher

end Mvc
