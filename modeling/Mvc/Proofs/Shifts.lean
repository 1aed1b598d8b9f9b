import Mvc.Proofs.Threads
import Mvc.Worker.Workshop

/-! # The log of a worker

What happens to the tasks of a worker is logged: which ones are accepted and which refused, when
each is started and what it comes to, what the callbacks are given, and when the worker is stopped
and waited for. Logging changes nothing about the worker.
-/

namespace Mvc

variable {σ ρ ε : Type}

/-- What happens to the tasks of a worker. -/
inductive Mark (σ ρ ε : Type) where
  | accepted (task : Assignment σ)
  | refused (task : Assignment σ)
  | stopped
  | started (task : Assignment σ)
  /-- The code of a task comes to its result. -/
  | ended (task : Assignment σ) (result : ρ)
  /-- A callback is given the result of a task, on the presentation thread or not. -/
  | answered (code : σ) (result : ρ) (onPresentation : Bool)
  | joined (well : Bool)
  /-- The client's own state is changed, other than by a callback. -/
  | changed (f : ε → ε)

namespace Mark

def accepted? : Mark σ ρ ε → Option (Assignment σ)
  | accepted task => some task
  | _ => none

def started? : Mark σ ρ ε → Option (Assignment σ)
  | started task => some task
  | _ => none

def ended? : Mark σ ρ ε → Option (Assignment σ × ρ)
  | ended task result => some (task, result)
  | _ => none

def answered? : Mark σ ρ ε → Option ((σ × ρ) × Bool)
  | answered code result onPresentation => some ((code, result), onPresentation)
  | _ => none

/-- What a mark says of the client's own state. -/
def effect (T : Trade σ ρ ε) : Mark σ ρ ε → ε → ε
  | changed f => f
  | answered code result onPresentation => T.callback code result onPresentation
  | _ => id

end Mark

/-- What is logged, the latest first. -/
abbrev WorkLog (σ ρ ε : Type) := List (Mark σ ρ ε)

namespace WorkLog

/-- What is read off a log, the earliest first. -/
def read {α : Type} (f : Mark σ ρ ε → Option α) (log : WorkLog σ ρ ε) : List α :=
  (log.filterMap f).reverse

/-- The results that callbacks have to be given. -/
def due (log : WorkLog σ ρ ε) : List (σ × ρ) :=
  (log.read Mark.ended?).filterMap fun x => if x.1.answers then some (x.1.code, x.2) else none

theorem read_append {α : Type} (f : Mark σ ρ ε → Option α) (new log : WorkLog σ ρ ε) :
    read f (new ++ log) = read f log ++ read f new := by
  simp [read]

theorem read_mono {α : Type} {f : Mark σ ρ ε → Option α} {log more : WorkLog σ ρ ε}
    (older : log <:+ more) : read f log <+: read f more := by
  obtain ⟨new, rfl⟩ := older
  exact ⟨_, (read_append f new log).symm⟩

theorem read_cons {α : Type} (f : Mark σ ρ ε → Option α) (m : Mark σ ρ ε) (log : WorkLog σ ρ ε) :
    read f (m :: log) = read f log ++ (f m).toList := by
  unfold read
  rw [List.filterMap_cons]
  cases f m <;> simp

theorem due_of_read {log more : WorkLog σ ρ ε}
    (same : more.read Mark.ended? = log.read Mark.ended?) : more.due = log.due := by
  rw [due, same, due]

theorem due_ended (task : Assignment σ) (result : ρ) (log : WorkLog σ ρ ε) :
    due (.ended task result :: log) =
      due log ++ if task.answers then [(task.code, result)] else [] := by
  rw [due, read_cons, List.filterMap_append]
  cases answers : task.answers <;> simp [due, Mark.ended?, answers]

/-- What is logged of a drain. -/
def drained (results : List (σ × ρ)) : WorkLog σ ρ ε :=
  (results.map fun y => Mark.answered y.1 y.2 true).reverse

theorem mem_drained {m : Mark σ ρ ε} {results : List (σ × ρ)} (there : m ∈ drained results) :
    ∃ code result, m = .answered code result true := by
  obtain ⟨y, -, rfl⟩ := List.mem_map.mp (List.mem_reverse.mp there)
  exact ⟨y.1, y.2, rfl⟩

theorem read_drained {α : Type} {f : Mark σ ρ ε → Option α}
    (blind : ∀ code result, f (.answered code result true) = none) (results : List (σ × ρ))
    (log : WorkLog σ ρ ε) : read f (drained results ++ log) = read f log := by
  have none : read f (drained results) = [] := by
    refine List.reverse_eq_nil_iff.mpr (List.filterMap_eq_nil_iff.mpr fun m there => ?_)
    obtain ⟨code, result, rfl⟩ := mem_drained there
    exact blind code result
  rw [read_append, none, List.append_nil]

end WorkLog

/-- What is logged of an order. -/
def Order.marks : (o : Order σ ε) → o.Result → WorkLog σ ρ ε
  | .send task, true => [.accepted task]
  | .send task, false => [.refused task]
  | .stop, _ => [.stopped]
  | .joinInside, _ => []
  | .change f, _ => [.changed f]

/-- The results that wait for the presentation thread. -/
def queued : Option (Dispatcher (σ × ρ)) → List (σ × ρ)
  | some d => d.queue
  | none => []

/-- Nobody waits for the end of the thread on the thread itself. -/
def Order.Fair : Order σ ε → Prop
  | joinInside => False
  | send _ | stop | change _ => True

/-! ## Histories -/

/-- What happens to a workshop next. -/
inductive Workshop.Call (σ ε : Type) where
  /-- The thread goes on. -/
  | goOn
  /-- The owner gives an order. -/
  | order (o : Order σ ε) (fair : o.Fair)
  /-- The callbacks that wait for the presentation thread run. -/
  | drain
  /-- The owner waits for the end of the thread. -/
  | join

section Histories

variable (T : Trade σ ρ ε)

/-- What comes of a call. The owner waits until the thread does nothing more on its own; there is
    no waiting for an end that does not come. -/
def Workshop.call? (s : Workshop σ ρ ε) : Workshop.Call σ ε → Option (Workshop σ ρ ε)
  | .goOn => s.step? T
  | .order o _ => if (s.step? T).isNone then some (s.order o).2 else none
  | .drain => if (s.step? T).isNone then (s.drain? T).map (·.2) else none
  | .join => if (s.step? T).isNone then s.join?.map (·.2) else none

/-- What comes of a history. -/
def Workshop.history? (s : Workshop σ ρ ε) (calls : List (Workshop.Call σ ε)) :
    Option (Workshop σ ρ ε) :=
  calls.foldlM (Workshop.call? T) s

end Histories

/-! ## Workshops with a log -/

/-- A workshop with a log. -/
structure Logged (σ ρ ε : Type) where
  shop : Workshop σ ρ ε
  log : WorkLog σ ρ ε

namespace Logged

/-! What happens to a workshop, with what is logged of it. -/

def order (x : Logged σ ρ ε) (o : Order σ ε) : o.Result × Logged σ ρ ε :=
  let (r, shop) := x.shop.order o
  (r, ⟨shop, o.marks r ++ x.log⟩)

def follow {α : Type} : Craft σ ρ ε α → Logged σ ρ ε → α × Logged σ ρ ε
  | .done r, x => (r, x)
  | .look next, x => follow (next x.shop) x
  | .act o next, x => follow (next (x.order o).1) (x.order o).2

section Working

variable (T : Trade σ ρ ε)

/-- What comes after the code of a task, once that has a result. -/
def finish (x : Logged σ ρ ε) (task : Assignment σ) (result : ρ) : Logged σ ρ ε :=
  let shop := if task.answers then x.shop.answer T task.code result else x.shop
  let answers := if task.answers && x.shop.dispatcher.isNone then
    [Mark.answered task.code result false] else []
  ⟨{ shop with thread := shop.thread.finish }, answers ++ .ended task result :: x.log⟩

def work (x : Logged σ ρ ε) (task : Assignment σ) : Logged σ ρ ε :=
  match x.follow (T.body task.code) with
  | (some result, x) => x.finish T task result
  | (none, x) => { x with shop := { x.shop with thread := x.shop.thread.crash } }

def step? (x : Logged σ ρ ε) : Option (Logged σ ρ ε) :=
  match x.shop.thread.current with
  | some task => some (x.work T task)
  | none => x.shop.thread.take?.map fun thread =>
    ⟨{ x.shop with thread }, (thread.current.map Mark.started).toList ++ x.log⟩

def drain? (x : Logged σ ρ ε) : Option (Logged σ ρ ε) :=
  (x.shop.drain? T).map fun (_, shop) =>
    ⟨shop, .drained (queued x.shop.dispatcher) ++ x.log⟩

end Working

def join? (x : Logged σ ρ ε) : Option (Logged σ ρ ε) :=
  x.shop.join?.map fun (well, shop) => ⟨shop, .joined well :: x.log⟩

section Histories

variable (T : Trade σ ρ ε)

def call? (x : Logged σ ρ ε) : Workshop.Call σ ε → Option (Logged σ ρ ε)
  | .goOn => x.step? T
  | .order o _ => if (x.shop.step? T).isNone then some (x.order o).2 else none
  | .drain => if (x.shop.step? T).isNone then x.drain? T else none
  | .join => if (x.shop.step? T).isNone then x.join? else none

def history? (x : Logged σ ρ ε) (calls : List (Workshop.Call σ ε)) :
    Option (Logged σ ρ ε) :=
  calls.foldlM (call? T) x

end Histories

/-! ### Logging changes nothing -/

theorem follow_shop {α : Type} (code : Craft σ ρ ε α) (x : Logged σ ρ ε) :
    (x.follow code).1 = (Workshop.follow code x.shop).1 ∧
      (x.follow code).2.shop = (Workshop.follow code x.shop).2 := by
  induction code generalizing x with
  | done r => exact ⟨rfl, rfl⟩
  | look next ih => exact ih x.shop x
  | act o next ih => exact ih (x.order o).1 (x.order o).2

theorem work_shop (T : Trade σ ρ ε) (x : Logged σ ρ ε) (task : Assignment σ) :
    (x.work T task).shop = x.shop.work T task := by
  obtain ⟨result, shop⟩ := follow_shop (T.body task.code) x
  unfold work Workshop.work
  cases same : x.follow (T.body task.code) with
  | mk r y =>
      cases other : Workshop.follow (T.body task.code) x.shop with
      | mk r' s =>
          rw [same, other] at result shop
          obtain rfl : r = r' := result
          obtain rfl : y.shop = s := shop
          cases r <;> rfl

theorem step?_shop (T : Trade σ ρ ε) (x : Logged σ ρ ε) :
    (x.step? T).map (·.shop) = x.shop.step? T := by
  unfold step? Workshop.step?
  cases x.shop.thread.current with
  | some task => exact congrArg some (work_shop T x task)
  | none => simp [Function.comp_def]

theorem drain?_shop (T : Trade σ ρ ε) (x : Logged σ ρ ε) :
    (x.drain? T).map (·.shop) = (x.shop.drain? T).map (·.2) := by
  simp [drain?, Function.comp_def]

theorem join?_shop (x : Logged σ ρ ε) :
    x.join?.map (·.shop) = x.shop.join?.map (·.2) := by
  simp [join?, Function.comp_def]

theorem call?_shop (T : Trade σ ρ ε) (x : Logged σ ρ ε) (call : Workshop.Call σ ε) :
    (x.call? T call).map (·.shop) = x.shop.call? T call := by
  cases call with
  | goOn => exact x.step?_shop T
  | order o fair =>
      simp only [call?, Workshop.call?]
      split <;> rfl
  | drain =>
      simp only [call?, Workshop.call?, ← x.drain?_shop T]
      split <;> rfl
  | join =>
      simp only [call?, Workshop.call?, ← x.join?_shop]
      split <;> rfl

/-- Every history of a workshop can be logged. -/
theorem history?_shop (T : Trade σ ρ ε) (x : Logged σ ρ ε) (calls : List (Workshop.Call σ ε)) :
    (x.history? T calls).map (·.shop) = x.shop.history? T calls := by
  induction calls generalizing x with
  | nil => rfl
  | cons call rest ih =>
      have one := x.call?_shop T call
      simp only [history?, Workshop.history?, List.foldlM_cons] at ih ⊢
      rw [← one]
      cases x.call? T call with
      | none => rfl
      | some y => exact ih y

/-! ### What is logged took place -/

/-- The client's own state is what the logged changes and callbacks made of it. -/
def Effects (T : Trade σ ρ ε) (client : ε) (x : Logged σ ρ ε) : Prop :=
  x.shop.client = x.log.foldr (Mark.effect T) client

section Effects

variable {T : Trade σ ρ ε} {client : ε} {x y : Logged σ ρ ε}

theorem Effects.order (effects : Effects T client x) (o : Order σ ε) :
    Effects T client (x.order o).2 := by
  cases o with
  | send task =>
      show x.shop.client = ((Order.send task).marks (x.shop.thread.send task).1 ++ x.log).foldr _ _
      cases (x.shop.thread.send task).1 <;> exact effects
  | stop | joinInside => exact effects
  | change f => exact congrArg f effects

theorem Effects.follow {α : Type} (effects : Effects T client x) (code : Craft σ ρ ε α) :
    Effects T client (x.follow code).2 := by
  induction code generalizing x with
  | done r => exact effects
  | look next ih => exact ih x.shop effects
  | act o next ih => exact ih (x.order o).1 (effects.order o)

theorem Effects.finish (effects : Effects T client x) (task : Assignment σ) (result : ρ) :
    Effects T client (x.finish T task result) := by
  obtain ⟨⟨thread, dispatcher, client'⟩, log⟩ := x
  obtain ⟨code, answers⟩ := task
  cases answers with
  | false => exact effects
  | true =>
      cases dispatcher with
      | none => exact congrArg (T.callback code result false) effects
      | some d => exact effects

theorem Effects.step (effects : Effects T client x) (stepped : x.step? T = some y) :
    Effects T client y := by
  unfold step? at stepped
  cases current : x.shop.thread.current with
  | none =>
      rw [current] at stepped
      obtain ⟨thread, -, rfl⟩ := Option.map_eq_some_iff.mp stepped
      show x.shop.client = _
      cases thread.current <;> exact effects
  | some task =>
      rw [current] at stepped
      have followed := effects.follow (T.body task.code)
      cases stepped
      unfold work
      generalize x.follow (T.body task.code) = after at followed ⊢
      obtain ⟨_ | result, z⟩ := after
      · exact followed
      · exact Effects.finish followed task result

theorem Effects.drain (effects : Effects T client x) (drained : x.drain? T = some y) :
    Effects T client y := by
  obtain ⟨⟨thread, dispatcher, client'⟩, log⟩ := x
  cases dispatcher with
  | none => cases drained
  | some d =>
      cases drained
      have before : client' = log.foldr (Mark.effect T) client := effects
      simp only [Effects, queued, WorkLog.drained, List.foldr_append, List.foldr_reverse,
        List.foldl_map, before]
      rfl

theorem Effects.join (effects : Effects T client x) (joined : x.join? = some y) :
    Effects T client y := by
  obtain ⟨⟨well, shop⟩, waited, rfl⟩ := Option.map_eq_some_iff.mp joined
  obtain ⟨_, -, same⟩ := Option.map_eq_some_iff.mp waited
  cases same
  exact effects

theorem Effects.history (effects : Effects T client x) {calls : List (Workshop.Call σ ε)}
    (ran : x.history? T calls = some y) : Effects T client y := by
  induction calls generalizing x with
  | nil => exact Option.some.inj ran ▸ effects
  | cons call rest ih =>
      obtain ⟨z, called, ran⟩ := Option.bind_eq_some_iff.mp ran
      refine ih ?_ ran
      cases call with
      | goOn => exact effects.step called
      | order o _ =>
          obtain ⟨-, ordered⟩ := Option.ite_none_right_eq_some.mp called
          exact Option.some.inj ordered ▸ effects.order o
      | drain => exact effects.drain (Option.ite_none_right_eq_some.mp called).2
      | join => exact effects.join (Option.ite_none_right_eq_some.mp called).2

end Effects

end Logged

end Mvc
