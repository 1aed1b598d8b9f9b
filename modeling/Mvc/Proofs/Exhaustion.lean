import Mathlib.Logic.Hydra
import Mvc.Ensemble.Waiting
import Mvc.Proofs.Ordinary
import Mvc.Proofs.Queueing

/-! # Drains come to an end

A task may post tasks, and these may post others. As long as that does not go on for ever, a
drain comes to an end, whatever else waits and however drains are nested. When a task starts it
leaves the queue for good, and all that it brings there are tasks below it. So with each task
that starts the tasks that wait become fewer in the order of multisets (`waiting`,
`drain_ends`).

With what is written down this says what becomes of tasks altogether (`tasks_in_order`). Waiting
for tasks instead of draining makes no difference.
-/

namespace Mvc

variable {σ ε : Type}

/-- The client code that is posted. -/
def Action.posted? : Action σ ε → Option σ
  | .post _ code => some code
  | .inBackground a => a.posted?
  | _ => none

/-- A program may perform an action. -/
def Program.May {ω α ρ : Type} {R : α → Type} (a : α) : Program ω R ρ → Prop
  | done _ => False
  | look next => ∃ w, (next w).May a
  | act b next => b = a ∨ ∃ r, (next r).May a

theorem Program.all_of_may {ω α ρ : Type} {R : α → Type} {P : α → Prop} {code : Program ω R ρ}
    (may : ∀ a, code.May a → P a) : code.All P := by
  induction code with
  | done r => trivial
  | look next ih => exact fun w => ih w fun a there => may a ⟨w, there⟩
  | act b next ih => exact ⟨may b (.inl rfl), fun r => ih r fun a there => may a (.inr ⟨r, there⟩)⟩

theorem Program.All.of_may {ω α ρ : Type} {R : α → Type} {P : α → Prop} {a : α}
    {code : Program ω R ρ} (all : code.All P) (may : code.May a) : P a := by
  induction code with
  | done r => cases may
  | look next ih => exact may.elim fun w there => ih w (all w) there
  | act b next ih =>
      rcases may with rfl | ⟨r, there⟩
      · exact all.1
      · exact ih r (all.2 r) there

namespace Behaviour

/-- A job may post client code. -/
def Posts (β : Behaviour σ ε) (code : σ) (job : σ) : Prop :=
  ∃ a, (β.job job).May a ∧ a.posted? = some code

/-- The tasks that come of client code form a tree without infinite branches. -/
def Grounded (β : Behaviour σ ε) (code : σ) : Prop := Acc β.Posts code

/-- A job from which no infinite branch goes out may post client code. -/
def Below (β : Behaviour σ ε) (code job : σ) : Prop := β.Posts code job ∧ β.Grounded job

theorem below_wf (β : Behaviour σ ε) : WellFounded β.Below := by
  refine ⟨fun job => ?_⟩
  by_cases grounded : β.Grounded job
  · exact Subrelation.accessible (fun below => below.1) grounded
  · exact ⟨job, fun _ below => absurd below.2 grounded⟩

end Behaviour

namespace Queueing

open Ensemble Proc Relation

/-! ## What waits -/

/-- The client code of a task. -/
def code? : Task σ → Option σ
  | .client code => some code
  | _ => none

/-- The client code that waits at a dispatcher. -/
def codes (q : Dispatcher (Task σ)) : Multiset σ := ↑(q.queue.filterMap code?)

/-- The client code that waits at all dispatchers. -/
def waiting (w : Ensemble σ ε) : Multiset σ := (w.dispatchers.members.map fun m => codes m.2).sum

theorem sum_replace (d : Nat) (q : Dispatcher (Task σ))
    (members : List (Nat × Dispatcher (Task σ))) :
    ((Family.replace d q members).map fun m => codes m.2).sum + codes (Family.lookup d members) =
      (members.map fun m => codes m.2).sum + codes q := by
  induction members with
  | nil => simp [Family.replace, Family.lookup, codes, default, Dispatcher.new]
  | cons first rest ih =>
      obtain ⟨e, c⟩ := first
      by_cases here : d = e
      · simp only [Family.replace, Family.lookup, if_pos here, List.map_cons, List.sum_cons]
        ac_rfl
      · simp only [Family.replace, Family.lookup, if_neg here, List.map_cons, List.sum_cons]
        rw [add_assoc, ih, add_assoc]

theorem waiting_updateDispatcher (w : Ensemble σ ε) (d : Nat)
    (f : Dispatcher (Task σ) → Dispatcher (Task σ)) :
    waiting (updateDispatcher d f w) + codes (w.dispatcher d) =
      waiting w + codes (f (w.dispatcher d)) :=
  sum_replace d _ _

theorem waiting_post (w : Ensemble σ ε) (d : Nat) (code : σ) :
    waiting (updateDispatcher d (fun q => q.post (.client code)) w) = waiting w + {code} := by
  have total := waiting_updateDispatcher w d fun q => q.post (.client code)
  have more : codes ((w.dispatcher d).post (.client code)) = codes (w.dispatcher d) + {code} := by
    rw [codes, Dispatcher.post, List.filterMap_append, ← Multiset.coe_add]
    rfl
  rw [more, ← add_assoc, add_right_comm] at total
  exact add_right_cancel total

theorem waiting_take {w : Ensemble σ ε} {d : Nat} {code : σ} {rest : Dispatcher (Task σ)}
    (next : (w.dispatcher d).next? = some (.client code, rest)) :
    waiting (updateDispatcher d (fun _ => rest) w) + {code} = waiting w := by
  have total := waiting_updateDispatcher w d fun _ => rest
  have more : codes (w.dispatcher d) = {code} + codes rest := by
    rw [next?_eq_some next]
    simp [codes, code?]
  rw [more, ← add_assoc] at total
  exact add_right_cancel total

theorem waiting_finish (w : Ensemble σ ε) (d : Nat) :
    waiting (updateDispatcher d Dispatcher.finish w) = waiting w :=
  add_right_cancel (waiting_updateDispatcher w d Dispatcher.finish)

/-! ## Settling -/

variable {ω α γ : Type}

/-- A procedure that may nest to a given depth ends in the same way whenever it may nest deep
    enough. -/
def Settles (p : Nat → Proc ω α) (w : ω) (post : α → ω → Prop) : Prop :=
  ∃ r w', post r w' ∧ ∃ least, ∀ depth ≥ least, p depth w = some (r, w')

theorem Settles.pure {p : Nat → Proc ω α} {w w' : ω} {r : α} {post : α → ω → Prop}
    (holds : post r w') (ends : ∀ depth, p depth w = some (r, w')) : Settles p w post :=
  ⟨r, w', holds, 0, fun depth _ => ends depth⟩

theorem Settles.bind {p : Nat → Proc ω α} {f : Nat → α → Proc ω γ} {w : ω} {mid : α → ω → Prop}
    {post : γ → ω → Prop} (first : Settles p w mid)
    (rest : ∀ r w₁, mid r w₁ → Settles (fun depth => f depth r) w₁ post) :
    Settles (fun depth => p depth >>= f depth) w post := by
  obtain ⟨r, w₁, holds, least, ends⟩ := first
  obtain ⟨r', w', holds', least', ends'⟩ := rest r w₁ holds
  refine ⟨r', w', holds', max least least', fun depth deep => ?_⟩
  exact (bind_eq_of_eq (ends depth (le_of_max_le_left deep))).trans
    (ends' depth (le_of_max_le_right deep))

/-- One more level of nesting makes no difference. -/
theorem Settles.deeper {p : Nat → Proc ω α} {w : ω} {post : α → ω → Prop}
    (settles : Settles (fun depth => p (depth + 1)) w post) : Settles p w post := by
  obtain ⟨r, w', holds, least, ends⟩ := settles
  refine ⟨r, w', holds, least + 1, fun depth deep => ?_⟩
  obtain ⟨more, rfl⟩ : ∃ more, depth = more + 1 := ⟨depth - 1, by omega⟩
  exact ends more (by omega)

theorem Settles.mono {p : Nat → Proc ω α} {w : ω} {post post' : α → ω → Prop}
    (settles : Settles p w post) (imp : ∀ r w', post r w' → post' r w') : Settles p w post' := by
  obtain ⟨r, w', holds, ends⟩ := settles
  exact ⟨r, w', imp r w' holds, ends⟩

/-! ## Coming to an end -/

variable {β : Behaviour σ ε} {w : Ensemble σ ε}

/-- No infinite branch goes out from what waits. -/
def Ready (β : Behaviour σ ε) (w : Ensemble σ ε) : Prop :=
  ∀ d, ∀ task ∈ (w.dispatcher d).queue, ∃ code, task = .client code ∧ β.Grounded code

/-- Tasks have been replaced by tasks below them. -/
def Fewer (β : Behaviour σ ε) : Multiset σ → Multiset σ → Prop :=
  ReflTransGen (CutExpand β.Below)

theorem Fewer.add {M M' : Multiset σ} (fewer : Fewer β M' M) (N : Multiset σ) :
    Fewer β (M' + N) (M + N) :=
  fewer.lift (· + N) fun _ _ step => (cutExpand_add_right N).mpr step

theorem Ready.update {w w' : Ensemble σ ε} (ready : Ready β w) {d : Nat}
    (here : ∀ task ∈ (w'.dispatcher d).queue, ∃ code, task = .client code ∧ β.Grounded code)
    (others : ∀ e, e ≠ d → w'.dispatcher e = w.dispatcher e) : Ready β w' := by
  intro e task waits
  by_cases same : e = d
  · exact here task (same ▸ waits)
  · exact ready e task (others e same ▸ waits)

section Programs

variable {P : Multiset σ → Prop} {Q : σ → Prop}
  (drains : ∀ w, Ready β w → P (waiting w) → ∀ d,
    Settles (fun depth => run β depth (.action (.drain d))) w fun _ w' =>
      Ready β w' ∧ P (waiting w'))
  (adds : ∀ M code, Q code → P M → P (M + {code})) (grounded : ∀ code, Q code → β.Grounded code)
include drains adds grounded

theorem action_settles {a : Action σ ε} (tasking : a.Tasking)
    (posts : ∀ code, a.posted? = some code → Q code) (ready : Ready β w) (holds : P (waiting w)) :
    Settles (fun depth => run β depth (.action a)) w fun _ w' => Ready β w' ∧ P (waiting w') := by
  induction a generalizing w with
  | post d code =>
      refine .deeper ⟨(), updateDispatcher d (fun q => q.post (.client code)) w, ⟨?_, ?_⟩, 0, ?_⟩
      · refine ready.update (d := d) ?_ fun e => others_updateDispatcher _ e
        intro task waits
        rw [here_updateDispatcher] at waits
        rcases List.mem_append.mp waits with before | last
        · exact ready d task before
        · exact ⟨code, List.mem_singleton.mp last, grounded code (posts code rfl)⟩
      · rw [waiting_post]
        exact adds _ code (posts code rfl) holds
      · exact fun _ _ => rfl
  | drain d => exact drains w ready holds d
  | change f =>
      exact .deeper ⟨(), { w with client := f w.client }, ⟨ready, holds⟩, 0, fun _ _ => rfl⟩
  | inBackground a ih =>
      obtain ⟨r, w₁, after, least, ends⟩ :=
        ih tasking posts (w := { w with thread := .background }) ready holds
      refine .deeper ⟨r, { w₁ with thread := w.thread }, after, least, fun depth deep => ?_⟩
      show (run β depth (.action a) >>= fun r =>
        modify (fun v => { v with thread := w.thread }) >>= fun _ => pure r)
        { w with thread := .background } = _
      rw [bind_eq_of_eq (ends depth deep)]
      rfl
  | _ => cases tasking

theorem client_settles {ρ : Type} {code : Client σ ε ρ}
    (all : code.All fun a => a.Tasking ∧ ∀ code, a.posted? = some code → Q code)
    (ready : Ready β w) (holds : P (waiting w)) :
    Settles (fun depth => (run β depth).client code) w fun _ w' =>
      Ready β w' ∧ P (waiting w') := by
  induction code generalizing w with
  | done r => exact .pure ⟨ready, holds⟩ fun _ => rfl
  | look next ih => exact ih w (all w) ready holds
  | act a next ih =>
      obtain ⟨⟨tasking, posts⟩, rest⟩ := all
      refine .bind (action_settles drains adds grounded tasking posts ready holds) ?_
      exact fun r w₁ after => ih r (rest r) after.1 after.2

end Programs

section Drain

variable {run : Runner σ ε} {d fuel count : Nat} {task : Task σ} {rest : Dispatcher (Task σ)}
  {w₂ w' : Ensemble σ ε}

theorem drain_of_none (next : (w.dispatcher d).next? = none) (fuel : Nat) :
    drain run d (fuel + 1) w = some (0, w) := by
  refine (get_bind _ w).trans ?_
  rw [next]
  rfl

theorem drain_of_some (next : (w.dispatcher d).next? = some (task, rest))
    (ran : run (.task task) (updateDispatcher d (fun _ => rest) w) = some ((), w₂))
    (others : drain run d fuel (updateDispatcher d Dispatcher.finish w₂) = some (count, w')) :
    drain run d (fuel + 1) w = some (count + 1, w') := by
  refine (get_bind _ w).trans ?_
  rw [next]
  refine (modify_bind _ _ w).trans ((bind_eq_of_eq ran).trans ?_)
  refine (modify_bind _ _ w₂).trans ((bind_eq_of_eq others).trans ?_)
  rfl

end Drain

/-- What the order of multisets allows to wait while a task runs: what waited beside it, and what
    is below it. -/
def Beside (β : Behaviour σ ε) (code : σ) (M M' : Multiset σ) : Prop :=
  ∃ S : Multiset σ, (∀ c ∈ S, β.Below c code) ∧ Fewer β M' (M + S)

theorem Beside.add {code c : σ} {M M' : Multiset σ} (below : β.Below c code)
    (beside : Beside β code M M') : Beside β code M (M' + {c}) := by
  obtain ⟨S, all, fewer⟩ := beside
  refine ⟨S + {c}, fun c' member => ?_, by rw [← add_assoc]; exact fewer.add {c}⟩
  rcases Multiset.mem_add.mp member with there | here
  · exact all c' there
  · exact Multiset.mem_singleton.mp here ▸ below

theorem Beside.less {code : σ} {M M' : Multiset σ} (beside : Beside β code M M') :
    TransGen (CutExpand β.Below) M' (M + {code}) := by
  obtain ⟨S, all, fewer⟩ := beside
  exact .tail' fewer ((cutExpand_add_left M).mpr (cutExpand_singleton all))

/-- A task ends if the drains do that it may set off. -/
theorem task_ends (tasking : ∀ code, (β.job code).All Action.Tasking) {code : σ}
    (grounded : β.Grounded code) (ready : Ready β w)
    (drains : ∀ v, Ready β v → Beside β code (waiting w) (waiting v) → ∀ d,
      Settles (fun depth => run β depth (.action (.drain d))) v fun _ v' =>
        Ready β v' ∧ Fewer β (waiting v') (waiting v)) :
    Settles (fun depth => run β depth (.task (.client code))) w fun _ w' =>
      Ready β w' ∧ Beside β code (waiting w) (waiting w') := by
  refine .deeper (client_settles (Q := (β.Below · code)) ?_ ?_ ?_ ?_ ready ⟨0, by simp, ?_⟩)
  · rintro v ready ⟨S, all, fewer⟩ d
    exact (drains v ready ⟨S, all, fewer⟩ d).mono fun _ v' after =>
      ⟨after.1, S, all, after.2.trans fewer⟩
  · exact fun M c below beside => beside.add below
  · exact fun c below => grounded.inv below.1
  · refine Program.all_of_may fun a may => ⟨(tasking code).of_may may, fun c posts => ?_⟩
    exact ⟨⟨a, may, posts⟩, grounded⟩
  · rw [add_zero]
    exact .refl

/-- A drain ends, and nothing comes to wait that is not below something that waited. -/
theorem drain_ends (tasking : ∀ code, (β.job code).All Action.Tasking) (ready : Ready β w)
    (d : Nat) :
    ∃ count w', (Ready β w' ∧ Fewer β (waiting w') (waiting w)) ∧
      ∃ least, ∀ depth ≥ least, ∀ fuel ≥ least,
        drain (run β depth) d fuel w = some (count, w') := by
  induction whole : waiting w using (β.below_wf.cutExpand.transGen).induction generalizing w d with
  | _ M ih =>
  subst whole
  cases next : (w.dispatcher d).next? with
  | none =>
      refine ⟨0, w, ⟨ready, .refl⟩, 1, fun depth _ fuel enough => ?_⟩
      obtain ⟨more, rfl⟩ : ∃ more, fuel = more + 1 := ⟨fuel - 1, by omega⟩
      exact drain_of_none next more
  | some both =>
      obtain ⟨task, rest⟩ := both
      have front := next?_eq_some next
      obtain ⟨code, rfl, grounded⟩ := ready d task (by rw [front]; exact List.mem_cons_self)
      let w₁ := updateDispatcher d (fun _ => rest) w
      have taken : waiting w₁ + {code} = waiting w := waiting_take next
      have ready₁ : Ready β w₁ := by
        refine ready.update (d := d) ?_ fun e => others_updateDispatcher _ e
        intro task waits
        rw [here_updateDispatcher] at waits
        exact ready d task (by rw [front]; exact List.mem_cons_of_mem _ waits)
      -- Whatever is drained in the task finds fewer tasks than waited before the task started.
      obtain ⟨⟨⟩, w₂, ⟨ready₂, beside⟩, least, ran⟩ := task_ends tasking grounded ready₁
        fun v readyV besideV e => by
          obtain ⟨count, v', after, least, ends⟩ :=
            ih (waiting v) (taken ▸ besideV.less) readyV e rfl
          exact .deeper ⟨count, v', after, least, fun depth deep => ends depth deep depth deep⟩
      let w₃ := updateDispatcher d Dispatcher.finish w₂
      have same : waiting w₃ = waiting w₂ := waiting_finish w₂ d
      have ready₃ : Ready β w₃ := by
        refine ready₂.update (d := d) ?_ fun e => others_updateDispatcher _ e
        rw [here_updateDispatcher]
        exact ready₂ d
      have less : TransGen (CutExpand β.Below) (waiting w₃) (waiting w) := by
        rw [same, ← taken]
        exact beside.less
      obtain ⟨count, w', ⟨ready', fewer⟩, least', ends⟩ := ih (waiting w₃) less ready₃ d rfl
      refine ⟨count + 1, w', ⟨ready', fewer.trans less.to_reflTransGen⟩, least + least' + 1, ?_⟩
      intro depth deep fuel enough
      obtain ⟨more, rfl⟩ : ∃ more, fuel = more + 1 := ⟨fuel - 1, by omega⟩
      exact drain_of_some next (ran depth (by omega)) (ends depth (by omega) more (by omega))

/-! ## Waiting for tasks -/

section Waiting

variable {channel : Channel (Task σ)} (faithful : channel.Faithful)
include faithful

theorem drainUntil_eq (run : Runner σ ε) (d deadline reading fuel : Nat) :
    drainUntil channel run d deadline reading fuel = drain run d fuel := by
  induction fuel generalizing reading with
  | zero => rfl
  | succ fuel ih =>
      have receives : ∀ time q, channel.receive? time q = q.next? := faithful
      unfold drainUntil drain
      refine bind_congr fun w => ?_
      rw [receives]
      cases (w.dispatcher d).next? with
      | none => rfl
      | some next => simp only [ih]

/-- Whoever waits for tasks, however long, does what a drain does. -/
theorem runWaiting_eq (timeout : Nat) (β : Behaviour σ ε) (depth : Nat) :
    runWaiting channel timeout β depth = run β depth := by
  induction depth with
  | zero => rfl
  | succ depth ih =>
      funext call
      show waitingBody channel timeout (runWaiting channel timeout β depth) β depth call = _
      rw [ih]
      cases call with
      | action a =>
          cases a with
          | drain d => exact drainUntil_eq faithful _ _ _ _ _
          | _ => rfl
      | _ => rfl

end Waiting

/-! ## Tasks altogether -/

/-- What becomes of tasks, as it is written down. -/
structure Orderly (start now : Ensemble σ ε) (past : List (Entry σ)) : Prop where
  fits : ∀ later e earlier, past = later ++ e :: earlier → Fits start.dispatcher earlier e
  balanced : Balanced start.dispatcher past now.dispatcher
  /-- A drain that does not take place in a task of its dispatcher leaves no task of it that has
      not run to its end. -/
  exhausted : ∀ later k d count dispatchers earlier,
    past = later ++ ⟨.closed k d count, dispatchers⟩ :: earlier → executingOf d earlier = 0 →
      (dispatchers d).executed = (dispatchers d).posted
  /-- What was started is finished. -/
  idle : executing past = []

theorem Sane.orderly {start now : Ensemble σ ε} {past : List (Entry σ)}
    (sane : Sane start.dispatcher past now.dispatcher) (idle : executing past = []) :
    Orderly start now past where
  fits := sane.fits
  balanced := sane.balanced
  idle := idle
  exhausted := by
    rintro later k d count dispatchers earlier split outside
    obtain ⟨balanced, drained⟩ := sane.fits later _ earlier split
    have total := balanced.count d
    have here : executingOf d (⟨.closed k d count, dispatchers⟩ :: earlier) = 0 := outside
    rw [here, Dispatcher.pending, drained.empty] at total
    exact total.symm

/-- Where nothing has been written down everything fits. -/
theorem sane_start {start : Ensemble σ ε} (ready : Ready β start)
    (even : ∀ d, (start.dispatcher d).posted =
      (start.dispatcher d).executed + (start.dispatcher d).pending) :
    Sane start.dispatcher [] start.dispatcher where
  balanced := ⟨fun d => List.append_nil _, even⟩
  clients d task waits := (ready d task waits).imp fun _ both => both.1
  numbered _ none := absurd none List.not_mem_nil
  fits _ _ _ none := absurd none (by simp)

/-- Each job but the last posts the next one to two dispatchers, and drains one of them. -/
def halvings : Behaviour Nat Unit :=
  { Behaviour.plain with
    job := fun
      | 0 => pure ()
      | n + 1 => do
        Program.perform (Action.post 0 n)
        Program.perform (Action.post 1 n)
        let _ ← Program.perform (Action.drain 1) }

theorem tasking_halvings (n : Nat) : (halvings.job n).All Action.Tasking := by
  cases n with
  | zero => trivial
  | succ n => exact ⟨trivial, fun _ => ⟨trivial, fun _ => ⟨trivial, fun _ => trivial⟩⟩⟩

theorem grounded_halvings (n : Nat) : halvings.Grounded n := by
  induction n with
  | zero => exact ⟨0, fun _ posts => nomatch posts.choose_spec.1⟩
  | succ n ih =>
      refine ⟨n + 1, fun c posts => ?_⟩
      obtain ⟨a, rfl | ⟨_, rfl | ⟨_, rfl | ⟨_, ⟨⟩⟩⟩⟩, posted⟩ := posts
      · exact Option.some.inj posted ▸ ih
      · exact Option.some.inj posted ▸ ih
      · cases posted

/-- A job is posted, and all that comes of it is drained. -/
def errand : Client Nat Unit Nat := do
  Program.perform (Action.post 0 2)
  Program.perform (Action.drain 0)

end Queueing

end Mvc
