import Mvc.Dispatcher
import Mvc.Program
import Mvc.Worker.Thread

/-! # Workshops

A workshop is a worker and the dispatcher that the results of its tasks go to, if there is one.
Tasks are client code. They run on the worker's thread one at a time, where they may send more
tasks to their own worker, or stop it. The result of a task goes to its callback if it has one,
through the dispatcher or at once.
-/

namespace Mvc

/-- A task for a worker: its code, and whether its result goes to a callback. -/
structure Assignment (σ : Type) where
  code : σ
  answers : Bool

/-- A worker, and the results that wait for the presentation thread if they go there. -/
structure Workshop (σ ρ ε : Type) where
  thread : WorkerThread (Assignment σ)
  dispatcher : Option (Dispatcher (σ × ρ))
  /-- What is the client's own. -/
  client : ε

/-- What a task can do, or the owner of the worker. -/
inductive Order (σ ε : Type) where
  /-- Send a task and tell whether it was accepted. -/
  | send (task : Assignment σ)
  | stop
  /-- Wait for the end of the thread on the thread itself. -/
  | joinInside
  /-- Change the client's own state. -/
  | change (f : ε → ε)

/-- The type of an order's result. -/
@[reducible] def Order.Result {σ ε : Type} : Order σ ε → Type
  | send _ => Bool
  | joinInside => Bool
  | stop => Unit
  | change _ => Unit

/-- The code of tasks. -/
abbrev Craft (σ ρ ε α : Type) :=
  Program (Workshop σ ρ ε) (Order.Result (σ := σ) (ε := ε)) α

/-- What client code does. -/
structure Trade (σ ρ ε : Type) where
  /-- What a task does, and what it results in unless it crashes. -/
  body : σ → Craft σ ρ ε (Option ρ)
  /-- What the callback of a task does with the result, on the presentation thread or not. -/
  callback : σ → ρ → (onPresentation : Bool) → ε → ε

namespace Workshop

variable {σ ρ ε : Type}

/-- A workshop where nothing has happened. -/
def new (hasDispatcher : Bool) (client : ε) : Workshop σ ρ ε :=
  ⟨.new, if hasDispatcher then some .new else none, client⟩

/-- What an order does. -/
def order (s : Workshop σ ρ ε) : (o : Order σ ε) → o.Result × Workshop σ ρ ε
  | .send task => let (accepted, thread) := s.thread.send task; (accepted, { s with thread })
  | .stop => ((), { s with thread := s.thread.stop })
  | .joinInside => let (ended, thread) := s.thread.joinInside; (ended, { s with thread })
  | .change f => ((), { s with client := f s.client })

/-- Run the code of a task. -/
def follow {α : Type} : Craft σ ρ ε α → Workshop σ ρ ε → α × Workshop σ ρ ε
  | .done r, s => (r, s)
  | .look next, s => follow (next s) s
  | .act o next, s => follow (next (s.order o).1) (s.order o).2

section Working

variable (T : Trade σ ρ ε)

/-- Hand the result of a task to its callback. -/
def answer (s : Workshop σ ρ ε) (code : σ) (result : ρ) : Workshop σ ρ ε :=
  match s.dispatcher with
  | some d => { s with dispatcher := some (d.post (code, result)) }
  | none => { s with client := T.callback code result false s.client }

/-- Run a task from its beginning to its end. -/
def work (s : Workshop σ ρ ε) (task : Assignment σ) : Workshop σ ρ ε :=
  match follow (T.body task.code) s with
  | (some result, s) =>
    let s := if task.answers then s.answer T task.code result else s
    { s with thread := s.thread.finish }
  | (none, s) => { s with thread := s.thread.crash }

/-- What the thread does next: it runs the task at hand, or takes a letter. -/
def step? (s : Workshop σ ρ ε) : Option (Workshop σ ρ ε) :=
  match s.thread.current with
  | some task => some (s.work T task)
  | none => s.thread.take?.map fun thread => { s with thread }

/-- Run the callbacks that wait for the presentation thread, and count them. -/
def drain? (s : Workshop σ ρ ε) : Option (Nat × Workshop σ ρ ε) :=
  s.dispatcher.map fun d => (d.queue.length,
    { s with
      dispatcher := some { d with queue := [], executed := d.executed + d.queue.length }
      client := d.queue.foldl (fun c x => T.callback x.1 x.2 true c) s.client })

end Working

/-- Wait for the end of the thread. -/
def join? (s : Workshop σ ρ ε) : Option (Bool × Workshop σ ρ ε) :=
  s.thread.join?.map fun (well, thread) => (well, { s with thread })

end Workshop

end Mvc
