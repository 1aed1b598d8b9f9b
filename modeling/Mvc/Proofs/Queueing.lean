import Mvc.Proofs.Obedience

/-! # Dispatchers and what is written down of them

Client code posts tasks to dispatchers and drains them, from outside or in a task. What happens is
written down beside the run: each post, the beginning and the end of each drain, and the beginning
and the end of each task, together with what all dispatchers are like right after it.

Everything that is written down fits what was written down before (`Sane.fits`). A dispatcher has
started the tasks that it had and those that were posted to it, in this order, all but those that
are waiting. This is so at any time, whichever drain started them, so drains may be nested in each
other in any way.
-/

namespace Mvc

variable {σ ε : Type}

/-- Client code that only posts, drains, and minds its own. -/
def Action.Tasking : Action σ ε → Prop
  | .post .. | .drain _ | .change _ => True
  | .inBackground a => a.Tasking
  | _ => False

namespace Queueing

open Ensemble Proc

/-! ## What is written down -/

/-- What happens to dispatchers. Drains are numbered in the order in which they begin. -/
inductive Moment (σ : Type) where
  | posted (dispatcher : Nat) (code : σ)
  | opened (drain dispatcher : Nat)
  | started (drain dispatcher : Nat) (task : Task σ)
  | finished (drain dispatcher : Nat) (task : Task σ)
  /-- A drain comes to its end and tells how many tasks it ran. -/
  | closed (drain dispatcher count : Nat)

/-- What happens to dispatchers, and what they are like right after it. -/
structure Entry (σ : Type) where
  moment : Moment σ
  dispatchers : Nat → Dispatcher (Task σ)

namespace Moment

/-- The task that is posted to a dispatcher. -/
def posts? (d : Nat) : Moment σ → Option (Task σ)
  | posted e code => if e = d then some (.client code) else none
  | _ => none

/-- The task of a dispatcher that is started. -/
def starts? (d : Nat) : Moment σ → Option (Task σ)
  | started _ e task => if e = d then some task else none
  | _ => none

/-- Whether a drain of a dispatcher starts a task. -/
def startsIn (k d : Nat) : Moment σ → Bool
  | started l e _ => l = k && e = d
  | _ => false

/-- Whether a drain of a dispatcher finishes a task. -/
def finishesIn (k d : Nat) : Moment σ → Bool
  | finished l e _ => l = k && e = d
  | _ => false

/-- Whether a drain begins. -/
def opens : Moment σ → Bool
  | opened .. => true
  | _ => false

/-- The drain that something happens in. -/
def drain? : Moment σ → Option Nat
  | posted .. => none
  | opened k _ | started k _ _ | finished k _ _ | closed k _ _ => some k

end Moment

section Readings

variable (past : List (Entry σ))

/-- The tasks that were posted to a dispatcher, the first one first. The past has the latest entry
    first. -/
def postedTo (d : Nat) : List (Task σ) := (past.filterMap (·.moment.posts? d)).reverse

/-- The tasks of a dispatcher that were started, the first one first. -/
def startedOf (d : Nat) : List (Task σ) := (past.filterMap (·.moment.starts? d)).reverse

/-- How many drains have begun. -/
def opened : Nat := past.countP (·.moment.opens)

end Readings

/-- The tasks that were started and are not finished, each with its dispatcher, the innermost one
    first. -/
def executing : List (Entry σ) → List (Nat × Task σ)
  | [] => []
  | e :: past =>
    match e.moment with
    | .started _ d task => (d, task) :: executing past
    | .finished .. => (executing past).tail
    | _ => executing past

/-- How many tasks of a dispatcher are executing. -/
def executingOf (d : Nat) (past : List (Entry σ)) : Nat := (executing past).countP (·.1 = d)

section Specification

variable (start : Nat → Dispatcher (Task σ))

/-- Tasks start in the order in which they came, all but those that are waiting, and the counters
    agree. -/
structure Balanced (past : List (Entry σ)) (now : Nat → Dispatcher (Task σ)) : Prop where
  order : ∀ d, (start d).queue ++ postedTo past d = startedOf past d ++ (now d).queue
  count : ∀ d, (now d).posted = (now d).executed + (now d).pending + executingOf d past

/-- What a drain has done when it comes to its end. -/
structure Drained (earlier : List (Entry σ)) (now : Nat → Dispatcher (Task σ)) (k d count : Nat) :
    Prop where
  empty : (now d).queue = []
  started : earlier.countP (·.moment.startsIn k d) = count
  finished : earlier.countP (·.moment.finishesIn k d) = count
  /-- What is executing was executing when the drain began. Since then those tasks were started
      that were waiting, and then those that were posted in the meantime. -/
  span : ∃ inside before dispatchers, earlier = inside ++ ⟨.opened k d, dispatchers⟩ :: before ∧
    executing earlier = executing before ∧
    startedOf inside d = (dispatchers d).queue ++ postedTo inside d

/-- What has to be so for something to happen. -/
def Moment.Apt (earlier : List (Entry σ)) (now : Nat → Dispatcher (Task σ)) : Moment σ → Prop
  | posted .. => True
  -- Each drain has a number of its own.
  | opened k _ => ∀ e ∈ earlier, e.moment.drain? ≠ some k
  | started .. => True
  -- It is the innermost task that finishes.
  | finished _ d task => (executing earlier).head? = some (d, task)
  | closed k d count => Drained earlier now k d count

/-- How an entry fits those before it. -/
structure Fits (earlier : List (Entry σ)) (e : Entry σ) : Prop where
  balanced : Balanced start (e :: earlier) e.dispatchers
  apt : e.moment.Apt earlier e.dispatchers

end Specification

/-! ## Writing it down -/

/-- An ensemble with what is written down. -/
abbrev Watched (σ ε : Type) := Ensemble σ (Noted (List (Entry σ)) ε)

/-- Write something down. -/
def write (m : Moment σ) (w : Watched σ ε) : Watched σ ε :=
  { w with client := { w.client with notes := ⟨m, w.dispatcher⟩ :: w.client.notes } }

section Watching

variable (run : Runner σ (Noted (List (Entry σ)) ε))

/-- `drain`, watched. -/
def watchedTasks (k d : Nat) : Nat → Proc (Watched σ ε) Nat
  | 0 => Proc.tooDeep
  | fuel + 1 => do
    match ((← get).dispatcher d).next? with
    | none => return 0
    | some (task, rest) =>
      modify (updateDispatcher d fun _ => rest)
      modify (write (.started k d task))
      run (.task task)
      modify (updateDispatcher d Dispatcher.finish)
      modify (write (.finished k d task))
      return (← watchedTasks k d fuel) + 1

/-- `drain`, watched from its beginning to its end. -/
def watchedDrain (d fuel : Nat) : Proc (Watched σ ε) Nat := do
  let k := opened (← get).client.notes
  modify (write (.opened k d))
  let count ← watchedTasks run k d fuel
  modify (write (.closed k d count))
  return count

/-- `body`, with posts and drains watched. -/
def watchedBody (β : Behaviour σ (Noted (List (Entry σ)) ε)) (fuel : Nat) :
    Runner σ (Noted (List (Entry σ)) ε)
  | .action (.post d code) => do
    modify (updateDispatcher d fun q => q.post (.client code))
    modify (write (.posted d code))
  | .action (.drain d) => watchedDrain run d fuel
  | call => body run β fuel call

end Watching

/-- `run`, with posts and drains watched. -/
def watched (β : Behaviour σ ε) : Nat → Runner σ (Noted (List (Entry σ)) ε)
  | 0 => fun _ => Proc.tooDeep
  | depth + 1 => watchedBody (watched β depth) (β.beside _) depth

theorem bares_watchedTasks {run' : Runner σ (Noted (List (Entry σ)) ε)} {run : Runner σ ε}
    (calls : BareRunner run' run) (k d fuel : Nat) :
    Bares id (watchedTasks run' k d fuel) (drain run d fuel) := by
  induction fuel with
  | zero => exact .tooDeep
  | succ fuel ih =>
      refine .look fun w => ?_
      rw [dispatcher_bare]
      cases (w.dispatcher d).next? with
      | none => exact .pure 0
      | some next =>
          refine .bind (.modify fun w => rfl) fun _ => .note rfl ?_
          refine .bind (calls.task next.1) fun _ => ?_
          refine .bind (.modify fun w => rfl) fun _ => .note rfl ?_
          exact .bind ih fun n => .pure (n + 1)

theorem bare_watchedBody {run' : Runner σ (Noted (List (Entry σ)) ε)} {run : Runner σ ε}
    (calls : BareRunner run' run) (β : Behaviour σ ε) (fuel : Nat) :
    BareRunner (watchedBody run' (β.beside _) fuel) (body run β fuel) := by
  have plain := bares_body calls β fuel
  refine ⟨plain.slot, plain.task, plain.subscription, fun a => ?_⟩
  cases a with
  | post d code => exact fun w => rfl
  | drain d =>
      have same : drain run d fuel = drain run d fuel >>= fun r => Pure.pure r := (bind_pure _).symm
      refine .look fun w => .note rfl ?_
      show Bares id _ (drain run d fuel)
      rw [same]
      exact .bind (bares_watchedTasks calls _ d fuel) fun count => .note rfl (.pure count)
  | _ => exact plain.action _

/-- A run that is watched does what it does otherwise. -/
theorem bare_watched (β : Behaviour σ ε) (depth : Nat) :
    BareRunner (watched β depth) (Ensemble.run β depth) := by
  induction depth with
  | zero => exact ⟨fun _ _ => .tooDeep, fun _ => .tooDeep, fun _ => .tooDeep, fun _ => .tooDeep⟩
  | succ depth ih => exact bare_watchedBody ih β depth

/-! ## Reading what is written down -/

section Readings

variable (m : Moment σ) (now : Nat → Dispatcher (Task σ)) (e : Entry σ)
  (inside past : List (Entry σ)) (d : Nat)

theorem reverse_filterMap_cons {α : Type} (f : Entry σ → Option α) :
    ((e :: past).filterMap f).reverse = (past.filterMap f).reverse ++ (f e).toList := by
  rw [List.filterMap_cons]
  cases f e <;> simp

theorem postedTo_cons :
    postedTo (⟨m, now⟩ :: past) d = postedTo past d ++ (m.posts? d).toList :=
  reverse_filterMap_cons ⟨m, now⟩ past _

theorem startedOf_cons :
    startedOf (⟨m, now⟩ :: past) d = startedOf past d ++ (m.starts? d).toList :=
  reverse_filterMap_cons ⟨m, now⟩ past _

theorem postedTo_append : postedTo (inside ++ past) d = postedTo past d ++ postedTo inside d := by
  simp [postedTo]

theorem startedOf_append :
    startedOf (inside ++ past) d = startedOf past d ++ startedOf inside d := by
  simp [startedOf]

theorem opened_append : opened (inside ++ past) = opened inside + opened past := by
  simp [opened]

theorem opened_cons_le : opened past ≤ opened (e :: past) := by
  simp [opened, List.countP_cons]

end Readings

/-! ## What is written down fits -/

/-- All tasks that wait are client code. -/
def OnlyClients (now : Nat → Dispatcher (Task σ)) : Prop :=
  ∀ d, ∀ task ∈ (now d).queue, ∃ code, task = .client code

/-- What holds of what is written down, and of the dispatchers at that time. -/
structure Sane (start : Nat → Dispatcher (Task σ)) (past : List (Entry σ))
    (now : Nat → Dispatcher (Task σ)) : Prop where
  balanced : Balanced start past now
  clients : OnlyClients now
  numbered : ∀ e ∈ past, ∀ k, e.moment.drain? = some k → k < opened past
  fits : ∀ later e earlier, past = later ++ e :: earlier → Fits start earlier e

variable {start now now' : Nat → Dispatcher (Task σ)} {past past' : List (Entry σ)}
  {m : Moment σ} {d k count : Nat} {task : Task σ}

theorem Sane.next (sane : Sane start past now) (fits : Fits start past ⟨m, now'⟩)
    (clients : OnlyClients now')
    (numbered : ∀ k, m.drain? = some k → k < opened (⟨m, now'⟩ :: past)) :
    Sane start (⟨m, now'⟩ :: past) now' where
  balanced := fits.balanced
  clients := clients
  numbered := by
    intro e' member k within
    rcases List.mem_cons.mp member with rfl | earlier
    · exact numbered k within
    · exact Nat.lt_of_lt_of_le (sane.numbered e' earlier k within) (opened_cons_le _ _)
  fits := by
    intro later e' earlier split
    cases later with
    | nil =>
        injection split with same rest
        subst same rest
        exact fits
    | cons _ later =>
        injection split with _ rest
        exact sane.fits later e' earlier rest

/-- Something happens at one dispatcher. -/
theorem Balanced.next (balanced : Balanced start past now)
    (others : ∀ c, c ≠ d → now' c = now c)
    (apart : ∀ c, c ≠ d → m.posts? c = none ∧ m.starts? c = none ∧
      executingOf c (⟨m, now'⟩ :: past) = executingOf c past)
    (order : (start d).queue ++ (postedTo past d ++ (m.posts? d).toList) =
      startedOf past d ++ (m.starts? d).toList ++ (now' d).queue)
    (count : (now' d).posted =
      (now' d).executed + (now' d).pending + executingOf d (⟨m, now'⟩ :: past)) :
    Balanced start (⟨m, now'⟩ :: past) now' where
  order c := by
    rw [postedTo_cons, startedOf_cons]
    by_cases here : c = d
    · rw [here, order]
    · obtain ⟨posts, starts, -⟩ := apart c here
      rw [posts, starts, others c here]
      simpa using balanced.order c
  count c := by
    by_cases here : c = d
    · rw [here, count]
    · rw [others c here, (apart c here).2.2, balanced.count]

/-- A drain begins or ends. -/
theorem Balanced.same (balanced : Balanced start past now) (posts : ∀ d, m.posts? d = none)
    (starts : ∀ d, m.starts? d = none) (still : executing (⟨m, now⟩ :: past) = executing past) :
    Balanced start (⟨m, now⟩ :: past) now where
  order d := by
    rw [postedTo_cons, startedOf_cons, posts, starts]
    simpa using balanced.order d
  count d := by rw [executingOf, still, ← executingOf, balanced.count]

theorem OnlyClients.next (clients : OnlyClients now)
    (here : ∀ task ∈ (now' d).queue, ∃ code, task = .client code)
    (others : ∀ c, c ≠ d → now' c = now c) : OnlyClients now' := by
  intro c task waits
  by_cases same : c = d
  · exact here task (same ▸ waits)
  · exact clients c task (others c same ▸ waits)

theorem Sane.posted (sane : Sane start past now) {code : σ}
    (here : now' d = (now d).post (.client code)) (others : ∀ c, c ≠ d → now' c = now c) :
    Sane start (⟨.posted d code, now'⟩ :: past) now' := by
  refine sane.next ⟨sane.balanced.next (d := d) others ?_ ?_ ?_, trivial⟩ ?_ ?_
  · exact fun c other => ⟨if_neg (Ne.symm other), rfl, rfl⟩
  · rw [here, ← List.append_assoc, sane.balanced.order d]
    simp [Moment.posts?, Moment.starts?, Dispatcher.post]
  · rw [here]
    simp only [Dispatcher.post, Dispatcher.pending, List.length_append, List.length_singleton]
    have count : (now d).posted = (now d).executed + (now d).queue.length + executingOf d past :=
      sane.balanced.count d
    show _ = _ + executingOf d past
    omega
  · refine sane.clients.next ?_ others
    intro task waits
    rw [here] at waits
    rcases List.mem_append.mp waits with before | last
    · exact sane.clients d task before
    · exact ⟨code, List.mem_singleton.mp last⟩
  · exact fun _ other => nomatch other

theorem others_updateDispatcher {w : Ensemble σ ε} (f : Dispatcher (Task σ) → Dispatcher (Task σ))
    (c : Nat) (other : c ≠ d) : (updateDispatcher d f w).dispatcher c = w.dispatcher c := by
  rw [dispatcher_updateDispatcher, if_neg other]

theorem here_updateDispatcher {w : Ensemble σ ε} (f : Dispatcher (Task σ) → Dispatcher (Task σ)) :
    (updateDispatcher d f w).dispatcher d = f (w.dispatcher d) := by
  rw [dispatcher_updateDispatcher, if_pos rfl]

theorem next?_eq_some {q rest : Dispatcher (Task σ)} (next : q.next? = some (task, rest)) :
    q = { rest with queue := task :: rest.queue } := by
  obtain ⟨queue, posted, executed⟩ := q
  cases queue with
  | nil => cases next
  | cons first others =>
      cases next
      rfl

theorem Sane.started (sane : Sane start past now) (next : (now d).next? = some (task, now' d))
    (known : k < opened past) (others : ∀ c, c ≠ d → now' c = now c) :
    Sane start (⟨.started k d task, now'⟩ :: past) now' := by
  have here := next?_eq_some next
  have order := sane.balanced.order d
  have count := sane.balanced.count d
  have clients := sane.clients d
  rw [here] at order count clients
  refine sane.next ⟨sane.balanced.next (d := d) others ?_ ?_ ?_, trivial⟩ ?_ ?_
  · intro c other
    refine ⟨rfl, if_neg (Ne.symm other), ?_⟩
    simp [executingOf, executing, Ne.symm other]
  · simp [Moment.posts?, Moment.starts?, order]
  · simp only [Dispatcher.pending, List.length_cons, executingOf, executing] at count ⊢
    rw [List.countP_cons, if_pos (by simp)]
    omega
  · exact sane.clients.next (fun t waits => clients t (List.mem_cons_of_mem _ waits)) others
  · rintro l ⟨⟩
    exact Nat.lt_of_lt_of_le known (opened_cons_le _ _)

theorem Sane.finished (sane : Sane start past now) (inner : (executing past).head? = some (d, task))
    (known : k < opened past) (here : now' d = (now d).finish)
    (others : ∀ c, c ≠ d → now' c = now c) :
    Sane start (⟨.finished k d task, now'⟩ :: past) now' := by
  obtain ⟨outer, top⟩ := List.head?_eq_some_iff.mp inner
  refine sane.next ⟨sane.balanced.next (d := d) others ?_ ?_ ?_, inner⟩ ?_ ?_
  · intro c other
    refine ⟨rfl, rfl, ?_⟩
    simp [executingOf, executing, top, Ne.symm other]
  · rw [here]
    simpa [Moment.posts?, Moment.starts?, Dispatcher.finish] using sane.balanced.order d
  · have count := sane.balanced.count d
    rw [here]
    simp only [Dispatcher.pending, Dispatcher.finish, executingOf, executing, top,
      List.tail_cons] at count ⊢
    rw [List.countP_cons, if_pos (by simp)] at count
    omega
  · refine sane.clients.next ?_ others
    rw [here]
    exact sane.clients d
  · rintro l ⟨⟩
    exact Nat.lt_of_lt_of_le known (opened_cons_le _ _)

theorem Sane.opens (sane : Sane start past now) (d : Nat) :
    Sane start (⟨.opened (Queueing.opened past) d, now⟩ :: past) now := by
  refine sane.next ⟨sane.balanced.same (fun _ => rfl) (fun _ => rfl) rfl, ?_⟩ sane.clients ?_
  · exact fun e earlier within => Nat.lt_irrefl _ (sane.numbered e earlier _ within)
  · rintro _ ⟨⟩
    simp [Queueing.opened, Moment.opens]

theorem Sane.closes (sane : Sane start past now) (known : k < opened past)
    (drained : Drained past now k d count) :
    Sane start (⟨.closed k d count, now⟩ :: past) now := by
  refine sane.next ⟨sane.balanced.same (fun _ => rfl) (fun _ => rfl) rfl, drained⟩
    sane.clients ?_
  · rintro _ ⟨⟩
    exact Nat.lt_of_lt_of_le known (opened_cons_le _ _)

/-! ## Draining -/

/-- More was written down, in drains that have begun since then, and what was executing is
    executing again. -/
def Grows (past past' : List (Entry σ)) : Prop :=
  ∃ new, past' = new ++ past ∧ executing past' = executing past ∧
    ∀ e ∈ new, ∀ k, e.moment.drain? = some k → opened past ≤ k

theorem Grows.refl (past : List (Entry σ)) : Grows past past :=
  ⟨[], rfl, rfl, fun _ none => absurd none List.not_mem_nil⟩

theorem Grows.trans {past₁ : List (Entry σ)} (first : Grows past past₁)
    (second : Grows past₁ past') : Grows past past' := by
  obtain ⟨new, rfl, same, later⟩ := first
  obtain ⟨new', rfl, same', later'⟩ := second
  refine ⟨new' ++ new, (List.append_assoc ..).symm, same'.trans same, ?_⟩
  intro e member k within
  rcases List.mem_append.mp member with last | first
  · have := later' e last k within
    rw [opened_append] at this
    omega
  · exact later e first k within

theorem Grows.opened_le (grows : Grows past past') : opened past ≤ opened past' := by
  obtain ⟨new, rfl, -⟩ := grows
  rw [opened_append]
  exact Nat.le_add_left _ _

/-- A drain has run some tasks. In the meantime other drains may have begun and ended. -/
def Ran (k d count : Nat) (past past' : List (Entry σ)) : Prop :=
  ∃ new, past' = new ++ past ∧ executing past' = executing past ∧
    (∀ e ∈ new, ∀ l, e.moment.drain? = some l → l = k ∨ opened past ≤ l) ∧
    new.countP (·.moment.startsIn k d) = count ∧ new.countP (·.moment.finishesIn k d) = count

theorem Ran.nothing (k d : Nat) (past : List (Entry σ)) : Ran k d 0 past past :=
  ⟨[], rfl, rfl, fun _ none => absurd none List.not_mem_nil, rfl, rfl⟩

theorem Ran.trans {past₁ : List (Entry σ)} {count' : Nat} (first : Ran k d count past past₁)
    (second : Ran k d count' past₁ past') : Ran k d (count + count') past past' := by
  obtain ⟨new, rfl, same, later, started, finished⟩ := first
  obtain ⟨new', rfl, same', later', started', finished'⟩ := second
  refine ⟨new' ++ new, (List.append_assoc ..).symm, same'.trans same, ?_, ?_, ?_⟩
  · intro e member l within
    rcases List.mem_append.mp member with last | first
    · have := later' e last l within
      rw [opened_append] at this
      omega
    · exact later e first l within
  · rw [List.countP_append, started, started', Nat.add_comm]
  · rw [List.countP_append, finished, finished', Nat.add_comm]

theorem startsIn_eq_false (other : m.drain? ≠ some k) : m.startsIn k d = false := by
  cases m with
  | started l c task =>
      have apart : l ≠ k := fun same => other (congrArg some same)
      simp [Moment.startsIn, apart]
  | _ => rfl

theorem finishesIn_eq_false (other : m.drain? ≠ some k) : m.finishesIn k d = false := by
  cases m with
  | finished l c task =>
      have apart : l ≠ k := fun same => other (congrArg some same)
      simp [Moment.finishesIn, apart]
  | _ => rfl

/-- In other drains a drain neither starts nor finishes a task. -/
theorem countP_of_apart {new : List (Entry σ)} (apart : ∀ e ∈ new, e.moment.drain? ≠ some k) :
    new.countP (·.moment.startsIn k d) = 0 ∧ new.countP (·.moment.finishesIn k d) = 0 :=
  ⟨List.countP_eq_zero.mpr fun e member => by simp [startsIn_eq_false (apart e member)],
    List.countP_eq_zero.mpr fun e member => by simp [finishesIn_eq_false (apart e member)]⟩

/-- A drain has run one task, and whatever that task did is written down. -/
theorem ran_task {now₁ now₂ : Nat → Dispatcher (Task σ)} (known : k < opened past)
    (grows : Grows (⟨.started k d task, now₁⟩ :: past) past') :
    Ran k d 1 past (⟨.finished k d task, now₂⟩ :: past') := by
  obtain ⟨new, rfl, same, later⟩ := grows
  have least : opened past ≤ opened (⟨.started k d task, now₁⟩ :: past) := opened_cons_le _ _
  have apart : ∀ e ∈ new, e.moment.drain? ≠ some k := by
    intro e member within
    have := later e member k within
    omega
  obtain ⟨starts, finishes⟩ := countP_of_apart (d := d) apart
  refine ⟨⟨.finished k d task, now₂⟩ :: new ++ [⟨.started k d task, now₁⟩], by simp, ?_, ?_, ?_, ?_⟩
  · show (executing (new ++ _)).tail = _
    rw [same]
    rfl
  · intro e member l within
    rcases List.mem_append.mp member with here | first
    · rcases List.mem_cons.mp here with rfl | between
      · exact .inl (Option.some.inj within).symm
      · exact .inr (Nat.le_trans least (later e between l within))
    · rw [List.mem_singleton.mp first] at within
      exact .inl (Option.some.inj within).symm
  · rw [List.countP_append, List.countP_cons, starts]
    simp [Moment.startsIn]
  · rw [List.countP_append, List.countP_cons, finishes]
    simp [Moment.finishesIn]

/-- If all that was written down fits, what is written down next does. -/
def Careful (start : Nat → Dispatcher (Task σ)) (w w' : Watched σ ε) : Prop :=
  Sane start w.client.notes w.dispatcher →
    Sane start w'.client.notes w'.dispatcher ∧ Grows w.client.notes w'.client.notes

theorem careful_composes : Composes (Careful (ε := ε) start) where
  refl _ sane := ⟨sane, .refl _⟩
  trans first second sane := by
    obtain ⟨sane₁, grows⟩ := first sane
    obtain ⟨sane', grows'⟩ := second sane₁
    exact ⟨sane', grows.trans grows'⟩

/-- Where nothing is written down the dispatchers stay as they are. -/
theorem careful_of_same {w w' : Watched σ ε} (notes : w'.client.notes = w.client.notes)
    (dispatchers : ∀ d, w'.dispatcher d = w.dispatcher d) : Careful start w w' := by
  have same : w'.dispatcher = w.dispatcher := funext dispatchers
  intro sane
  rw [notes, same]
  exact ⟨sane, .refl _⟩

section Operations

variable {run : Runner σ (Noted (List (Entry σ)) ε)} {w : Watched σ ε}

theorem next?_eq_none {q : Dispatcher (Task σ)} (next : q.next? = none) : q.queue = [] := by
  obtain ⟨queue, posted, executed⟩ := q
  cases queue with
  | nil => rfl
  | cons first others => cases next

/-- The tasks of a drain run until none waits. -/
theorem tasks_run (tasks : ∀ code, Keeps (Careful start) (run (.task (.client code))))
    (fuel : Nat) (known : k < opened w.client.notes)
    (sane : Sane start w.client.notes w.dispatcher) :
    Ends (watchedTasks run k d fuel) w fun count w' =>
      Sane start w'.client.notes w'.dispatcher ∧ (w'.dispatcher d).queue = [] ∧
        Ran k d count w.client.notes w'.client.notes := by
  induction fuel generalizing w with
  | zero => exact nofun
  | succ fuel ih =>
      refine .get_bind ?_
      cases next : (w.dispatcher d).next? with
      | none => exact (ends_pure _ _ _).mpr ⟨sane, next?_eq_none next, .nothing k d _⟩
      | some both =>
          obtain ⟨task, rest⟩ := both
          obtain ⟨code, rfl⟩ : ∃ code, task = .client code :=
            sane.clients d task (by rw [next?_eq_some next]; exact List.mem_cons_self)
          refine .modify_bind (.modify_bind (.bind ?_))
          let w₁ := updateDispatcher d (fun _ => rest) w
          have begun : Sane start (⟨.started k d (.client code), w₁.dispatcher⟩ :: w.client.notes)
              w₁.dispatcher :=
            sane.started (next.trans (by rw [here_updateDispatcher])) known
              (others_updateDispatcher _)
          refine (tasks code (write (.started k d (.client code)) w₁)).mono fun _ w₂ careful => ?_
          obtain ⟨sane₂, grows⟩ := careful begun
          have known₂ : k < opened w₂.client.notes :=
            Nat.lt_of_lt_of_le known (Nat.le_trans (opened_cons_le _ _) grows.opened_le)
          refine .modify_bind (.modify_bind (.bind ?_))
          let w₃ := updateDispatcher d Dispatcher.finish w₂
          have ended : Sane start (⟨.finished k d (.client code), w₃.dispatcher⟩ :: w₂.client.notes)
              w₃.dispatcher := by
            refine sane₂.finished ?_ known₂ (here_updateDispatcher _) (others_updateDispatcher _)
            obtain ⟨_, _, innermost, _⟩ := grows
            exact congrArg List.head? innermost
          refine (ih (Nat.lt_of_lt_of_le known₂ (opened_cons_le _ _)) ended).mono ?_
          rintro count w' ⟨sane', empty, ran⟩
          refine (ends_pure _ _ _).mpr ⟨sane', empty, ?_⟩
          rw [Nat.add_comm]
          exact (ran_task known grows).trans ran

/-- A drain that has run its tasks has done what it should. -/
theorem drained_of_ran {past past' : List (Entry σ)} (sane : Sane start past now)
    (sane' : Sane start past' now') (empty : (now' d).queue = [])
    (ran : Ran (opened past) d count (⟨.opened (opened past) d, now⟩ :: past) past') :
    Drained past' now' (opened past) d count := by
  obtain ⟨new, rfl, still, -, started, finished⟩ := ran
  obtain ⟨none, none'⟩ := countP_of_apart (d := d) fun e member within =>
    Nat.lt_irrefl _ (sane.numbered e member _ within)
  refine ⟨empty, ?_, ?_, new, past, now, rfl, still, ?_⟩
  · rw [List.countP_append, List.countP_cons, started, none]
    rfl
  · rw [List.countP_append, List.countP_cons, finished, none']
    rfl
  · have before := sane.balanced.order d
    have after := sane'.balanced.order d
    rw [empty, List.append_nil, postedTo_append, startedOf_append, postedTo_cons, startedOf_cons]
      at after
    have same : startedOf past d ++ ((now d).queue ++ postedTo new d) =
        startedOf past d ++ startedOf new d := by
      rw [← List.append_assoc, ← before]
      simpa [Moment.posts?, Moment.starts?] using after
    exact (List.append_cancel_left same).symm

/-- What a drain did is written down from its beginning to its end. -/
theorem grows_of_ran {past past' : List (Entry σ)}
    (ran : Ran (opened past) d count (⟨.opened (opened past) d, now⟩ :: past) past') :
    Grows past (⟨.closed (opened past) d count, now'⟩ :: past') := by
  obtain ⟨new, rfl, still, later, -⟩ := ran
  refine ⟨⟨.closed (opened past) d count, now'⟩ :: new ++ [⟨.opened (opened past) d, now⟩],
    by simp, still, ?_⟩
  intro e member l within
  rcases List.mem_append.mp member with last | first
  · rcases List.mem_cons.mp last with rfl | between
    · exact Nat.le_of_eq (Option.some.inj within)
    · rcases later e between l within with rfl | beyond
      · exact Nat.le_refl _
      · exact Nat.le_trans (opened_cons_le _ _) beyond
  · rw [List.mem_singleton.mp first] at within
    exact Nat.le_of_eq (Option.some.inj within)

/-- A drain, from its beginning to its end. -/
theorem drain_careful (tasks : ∀ code, Keeps (Careful start) (run (.task (.client code))))
    (d fuel : Nat) : Keeps (Careful start) (watchedDrain run d fuel) := by
  intro w
  refine .get_bind (.modify_bind (.bind ?_))
  intro count w₁ ran
  refine .modify_bind ((ends_pure _ _ _).mpr fun sane => ?_)
  have known : opened w.client.notes <
      opened (⟨.opened (opened w.client.notes) d, w.dispatcher⟩ :: w.client.notes) := by
    simp [opened, Moment.opens]
  obtain ⟨sane₁, empty, did⟩ := tasks_run tasks fuel known (sane.opens d) count w₁ ran
  have known₁ : opened w.client.notes < opened w₁.client.notes := by
    obtain ⟨new, notes, -⟩ := did
    rw [notes, opened_append]
    exact Nat.lt_add_left _ known
  exact ⟨sane₁.closes known₁ (drained_of_ran sane sane₁ empty did), grows_of_ran did⟩

/-- Client code that posts and drains. -/
theorem client_careful {ρ : Type}
    (actions : ∀ a : Action σ ε, a.Tasking → Keeps (Careful start) (run (.action (a.beside _))))
    {code : Client σ ε ρ} (all : code.All Action.Tasking) :
    Keeps (Careful start) (run.client (code.beside _)) := by
  refine .program careful_composes ?_ (Program.all_beside all)
  rintro _ ⟨a, tasking, rfl⟩
  exact actions a tasking

end Operations

/-- Whatever client code does that only posts and drains, what is written down fits. -/
theorem watched_careful {β : Behaviour σ ε} (tasking : ∀ code, (β.job code).All Action.Tasking)
    (depth : Nat) :
    (∀ a : Action σ ε, a.Tasking → Keeps (Careful start) (watched β depth (.action (a.beside _)))) ∧
      ∀ code, Keeps (Careful start) (watched β depth (.task (.client code))) := by
  induction depth with
  | zero => exact ⟨fun _ _ _ => nofun, fun _ _ => nofun⟩
  | succ depth ih =>
      refine ⟨fun a allowed => ?_, fun code => client_careful ih.1 (tasking code)⟩
      cases a with
      | post d code =>
          intro w
          refine .modify_bind ((ends_modify _ _ _).mpr fun sane => ?_)
          refine ⟨sane.posted (here_updateDispatcher _) (others_updateDispatcher _),
            [⟨.posted d code, _⟩], rfl, rfl, ?_⟩
          intro e member k within
          rw [List.mem_singleton.mp member] at within
          cases within
      | drain d => exact drain_careful ih.2 d depth
      | change f => exact .modify fun w => careful_of_same rfl fun _ => rfl
      | inBackground a =>
          refine .look fun w => .bind careful_composes (.modify fun w => ?_) fun _ =>
            .bind careful_composes (ih.1 a allowed) fun r =>
              .bind careful_composes (.modify fun w => ?_) fun _ => .pure careful_composes r
          all_goals exact careful_of_same rfl fun _ => rfl
      | _ => cases allowed

end Queueing

end Mvc
