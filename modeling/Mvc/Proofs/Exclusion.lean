import Mvc.Proofs.Enabling
import Mvc.Proofs.Pending

/-! # Operations are exclusive

A session is a sequence of turns. In every session operations are done one at a time: while one
is in flight every other is refused with one error, each that was accepted is reported to be
completed once, with its own message and in the order of acceptance, and none that was refused
is ever reported. When the worker is idle and the dispatcher is drained, nothing is in flight.
-/

namespace Mvc.App

open Ensemble

/-! ## Sessions -/

/-- What was heard of a signal between two states. -/
def since (s : SignalRef) (w w' : Whole) : List String := (heard s w').drop (heard s w).length

/-- What was handed to the worker between two states. -/
def sent (w w' : Whole) : List Operation :=
  w'.client.worker.queue.drop w.client.worker.queue.length

/-- Whether the worker writes its status line in a turn. -/
def Turn.tells (m : Moment) : Turn → Bool
  | .work => m.left.any fun pieces => pieces.head? = some .tells
  | .wait =>
    match m.left with
    | none => m.whole.client.worker.queue ≠ []
    | some pieces => .tells ∈ pieces ∨ m.whole.client.worker.queue.tail ≠ []
  | _ => false

/-- A turn is recorded. -/
def Record.after (t : Turn) (m m' : Moment) (r : Record) : Record where
  accepted := r.accepted ++ sent m.whole m'.whole
  completed := r.completed ++
    if t = .drain then since (.controllerDone controller) m.whole m'.whole else []
  later := if t.tells m then [] else r.later ++ since Channel.status m.whole m'.whole

/-- Turns were taken one after another, and they were recorded. -/
inductive Session (w : Whole) : Moment → Record → Prop
  | begins : Session w ⟨w, none⟩ ⟨[], [], []⟩
  | turn {m m' : Moment} {r : Record} (t : Turn) (before : Session w m r)
      (turned : Turned t m m') : Session w m' (r.after t m m')

/-- The application is mounted with a dispatcher, everything is heard once, and no operation is
    in flight. -/
structure Ready (w : Whole) : Prop extends Mounted w where
  presentation : w.thread = .presentation
  attentive : (frame w).Attentive
  free : w.client.inFlight = false
  idle : w.client.worker.queue = []
  done : ∀ message, .client (.complete message) ∉ queue w
  calm : isBusy (properties w) = false

/-! ## What a turn asks for and how it is answered -/

/-- The user action that reaches the controller's hook in a turn. -/
def Turn.action? (w : Whole) : Turn → Option (String × Value)
  | .act name data =>
    if (w.controller controller).phase = .initialized then some (name, data) else none
  | .report view name data =>
    if (w.view view).enabled = true ∧ (frame w).handlers view = 1 ∧
        (w.controller controller).phase = .initialized then some (name, data)
    else none
  | _ => none

/-- The operation that a turn asks for. -/
def Turn.operation? (w : Whole) (t : Turn) : Option Operation :=
  (t.action? w).bind fun a => Operation.ofAction? w.client.config.work a.1 a.2

/-- Whether a turn has the view shown anew. -/
def Turn.refreshes (w : Whole) (t : Turn) : Bool :=
  (t.action? w).any fun a => a.1 = "refresh" ∨ a.1 = "update"

/-- How a turn is answered. -/
structure Answered (t : Turn) (m m' : Moment) : Prop where
  /-- While an operation is in flight, every other is refused with one error. -/
  refused : ∀ operation, t.operation? m.whole = some operation →
    m.whole.client.inFlight = true →
      since (.controllerError controller) m.whole m'.whole = [operationInProgress] ∧
      sent m.whole m'.whole = [] ∧ m'.whole.client.inFlight = true
  /-- If none is in flight, it is accepted, unless the worker was stopped. -/
  accepted : ∀ operation, t.operation? m.whole = some operation →
    m.whole.client.inFlight = false →
      if m.whole.client.worker.accepts then
        since (.controllerError controller) m.whole m'.whole = [] ∧
        sent m.whole m'.whole = [operation] ∧ m'.whole.client.inFlight = true
      else
        since (.controllerError controller) m.whole m'.whole = [workerStopped] ∧
        sent m.whole m'.whole = [] ∧ m'.whole.client.inFlight = false
  /-- Nothing else is accepted. -/
  others : t.operation? m.whole = none → sent m.whole m'.whole = []
  /-- Only draining reports the end of an operation. -/
  silent : t ≠ .drain → since (.controllerDone controller) m.whole m'.whole =
    if t.refreshes m.whole then [viewUpdated] else []

namespace Gist

variable {g g' : Gist}

/-! ## Operations are asked for -/

theorem run_busy (attentive : g.frame.Attentive) (operation : Operation)
    (inFlight : g.inFlight = true) :
    g.run operation = { g with errors := g.errors ++ [operationInProgress] } := by
  rw [run, if_pos inFlight, complain_eq attentive]

theorem run_accepted (attentive : g.frame.Attentive) (operation : Operation)
    (inFlight : g.inFlight = false) (accepts : g.worker.accepts = true) :
    ∃ more status, g.run operation =
      { g with
        inFlight := true
        status
        lines := g.lines ++ more
        worker := { g.worker with queue := g.worker.queue ++ [operation] } } := by
  refine ⟨if g.status = .string operation.started then []
    else [(Value.string operation.started).lossyText], .string operation.started, ?_⟩
  rw [run, if_neg (by simp [inFlight]), setStatus_eq (g := { g with inFlight := true }) attentive]
  simp only [accepts, if_true, Worker.send]

theorem run_refused (attentive : g.frame.Attentive) (operation : Operation)
    (inFlight : g.inFlight = false) (stopped : g.worker.accepts = false) :
    g.run operation =
      { g.setStatus (.string operation.started) with errors := g.errors ++ [workerStopped] } := by
  rw [run, if_neg (by simp [inFlight]), setStatus_eq (g := { g with inFlight := true }) attentive,
    setStatus_eq attentive]
  simp only [stopped, Bool.false_eq_true, if_false]
  exact (complain_eq (by exact attentive) workerStopped).trans (by rw [inFlight])

/-! ## What else is asked for -/

theorem Acts.cases {name : String} {data : Value} (attentive : g.frame.Attentive)
    (acts : g.Acts name data g') (serving : g.serving = true) :
    (∃ operation, Operation.ofAction? g.frame.config.work name data = some operation ∧
      g' = g.run operation) ∨
    Operation.ofAction? g.frame.config.work name data = none ∧ g.Talks g' ∧
      g'.dones = g.dones ++ if name = "refresh" ∨ name = "update" then [viewUpdated] else [] := by
  unfold Acts at acts
  rw [if_pos serving] at acts
  cases asked : Operation.ofAction? g.frame.config.work name data with
  | some operation =>
      rw [asked] at acts
      exact .inl ⟨operation, rfl, acts⟩
  | none =>
      rw [asked] at acts
      refine .inr ⟨rfl, ?_⟩
      dsimp only at acts
      split at acts
      · next theme =>
          rw [if_neg (by simp [theme]), List.append_nil]
          obtain ⟨texts, rfl⟩ | rfl := acts
          · obtain ⟨talks, -, dones⟩ := setTexts_talks attentive texts
            exact ⟨talks, dones⟩
          · exact ⟨complain_talks _, rfl⟩
      · split at acts
        · next shows =>
            rw [if_pos shows]
            refine ⟨acts ▸ confirm_talks _, ?_⟩
            rw [acts, confirm_eq attentive]
        · next other =>
            rw [if_neg other, List.append_nil, acts]
            exact ⟨.refl g, rfl⟩

end Gist

/-! ## Turns -/

section Turns

variable {w : Whole} {left left' : Option (List Piece)} {g' : Gist} {t : Turn}

/-- What a turn of the presentation thread comes to, unless that is draining: it asks for an
    operation, or something is said. -/
inductive Comes (t : Turn) (w : Whole) (g' : Gist) : Prop
  | asked (operation : Operation) (asks : t.operation? w = some operation)
      (still : t.refreshes w = false) (ran : g' = (gist w).run operation)
  | told (g₁ : Gist) (none : t.operation? w = none) (talks : (gist w).Talks g₁)
      (dones : g₁.dones = (gist w).dones ++ if t.refreshes w then [viewUpdated] else [])
      (same : g' = g₁ ∨ g' = g₁.halt)

/-- A user action reaches the hook. -/
theorem comes_of_action {name : String} {data : Value} (attentive : (frame w).Attentive)
    (reaches : t.action? w = some (name, data))
    (serving : (w.controller controller).phase = .initialized)
    (acts : (gist w).Acts name data g') : Comes t w g' := by
  have asks : t.operation? w = Operation.ofAction? (gist w).frame.config.work name data := by
    rw [Turn.operation?, reaches]
    rfl
  have refreshes : t.refreshes w = decide (name = "refresh" ∨ name = "update") := by
    rw [Turn.refreshes, reaches]
    rfl
  obtain ⟨operation, asked, ran⟩ | ⟨none, talks, dones⟩ :=
    acts.cases attentive (decide_eq_true serving)
  · refine .asked operation (asks.trans asked) (refreshes.trans (decide_eq_false ?_)) ran
    rintro (rfl | rfl) <;> cases asked
  · refine .told g' (asks.trans none) talks ?_ (.inl rfl)
    rw [dones, refreshes]
    simp only [decide_eq_true_eq]

/-- No user action reaches the hook. -/
theorem comes_of_talks (misses : t.action? w = none) {g₁ : Gist} (talks : (gist w).Talks g₁)
    (dones : g₁.dones = (gist w).dones) (same : g' = g₁ ∨ g' = g₁.halt) : Comes t w g' := by
  refine .told g₁ ?_ talks ?_ same
  · rw [Turn.operation?, misses]
    rfl
  · rw [dones, Turn.refreshes, misses]
    exact (List.append_nil _).symm

theorem comes_of_turns (attentive : (frame w).Attentive) (turns : (gist w).Turns left left' g' t)
    (presents : t ≠ .drain ∧ t ≠ .work ∧ t ≠ .wait) : left' = left ∧ Comes t w g' := by
  cases t with
  | act name data =>
      obtain ⟨same, acts⟩ := turns
      refine ⟨same, ?_⟩
      by_cases serving : (w.controller controller).phase = .initialized
      · exact comes_of_action attentive (if_pos serving) serving acts
      · unfold Gist.Acts at acts
        rw [if_neg (by simpa [gist] using serving)] at acts
        refine comes_of_talks (if_neg serving) (Gist.complain_talks _) rfl (.inl acts)
  | report view name data =>
      obtain ⟨same, reports⟩ := turns
      refine ⟨same, ?_⟩
      unfold Gist.Reports at reports
      by_cases enabled : (gist w).enabled view = true
      · rw [if_pos enabled] at reports
        obtain unheard | once := Nat.le_one_iff_eq_zero_or_eq_one.mp (attentive.single view)
        · have misses : (Turn.report view name data).action? w = none :=
            if_neg fun all => absurd (unheard.symm.trans all.2.1) (by decide)
          rw [show (gist w).frame.handlers view = 0 from unheard] at reports
          exact comes_of_talks misses (.refl _) rfl (.inl reports)
        · rw [show (gist w).frame.handlers view = 1 from once] at reports
          obtain ⟨g₁, acts, rfl⟩ := reports
          by_cases serving : (w.controller controller).phase = .initialized
          · exact comes_of_action attentive (if_pos ⟨enabled, once, serving⟩) serving acts
          · unfold Gist.Acts at acts
            rw [if_neg (by simpa [gist] using serving)] at acts
            have misses : (Turn.report view name data).action? w = none :=
              if_neg fun all => serving all.2.2
            exact comes_of_talks misses (Gist.complain_talks _) rfl (.inl acts)
      · rw [if_neg enabled] at reports
        have misses : (Turn.report view name data).action? w = none :=
          if_neg fun all => enabled all.1
        exact comes_of_talks misses (.refl _) rfl (.inl reports)
  | close view =>
      obtain ⟨talks, -, dones⟩ := turns.2.talks attentive
      exact ⟨turns.1, comes_of_talks rfl talks dones (.inl rfl)⟩
  | stop =>
      obtain ⟨same, texts, eq⟩ := turns
      obtain ⟨talks, -, dones⟩ := Gist.setTexts_talks (g := gist w) attentive texts
      exact ⟨same, comes_of_talks rfl talks dones (.inl eq)⟩
  | halt =>
      obtain ⟨same, texts, eq⟩ := turns
      obtain ⟨talks, -, dones⟩ := Gist.setTexts_talks (g := gist w) attentive texts
      exact ⟨same, comes_of_talks rfl talks dones (.inr eq)⟩
  | drain | work | wait => simp at presents

end Turns

/-! ## Sessions -/

/-- What holds all along a session. -/
structure Ongoing (m : Moment) (r : Record) : Prop where
  mounted : Mounted m.whole
  presentation : m.whole.thread = .presentation
  attentive : (frame m.whole).Attentive
  stands : Stands (gist m.whole) m.left r

section Sessions

variable {t : Turn} {m m' : Moment} {r : Record}

theorem Ready.ongoing {w : Whole} (ready : Ready w) : Ongoing ⟨w, none⟩ ⟨[], [], []⟩ := by
  refine ⟨ready.toMounted, ready.presentation, ready.attentive, ?_⟩
  have due : (gist w).due = [] := by
    show ((queue w).filterMap Errand.ofTask?).filterMap Errand.message? = []
    rw [List.filterMap_filterMap, List.filterMap_eq_nil_iff]
    intro task member
    cases ready.chores task member with
    | data | busy => rfl
    | complete message => exact absurd member (ready.done message)
  have undone : undone (gist w) none = [] := ready.idle
  refine ⟨?_, ?_, nofun, ?_, ready.calm, nofun⟩
  · rw [due, undone]
    rfl
  · rw [due, undone, show (gist w).inFlight = false from ready.free]
    rfl
  · rw [undone]
    nofun

/-- A turn of the presentation thread is recorded, unless that is draining. -/
theorem after_of_presents (presents : t ≠ .drain ∧ t ≠ .work ∧ t ≠ .wait)
    {operations : List Operation}
    (queue : (gist m'.whole).worker.queue = (gist m.whole).worker.queue ++ operations) :
    sent m.whole m'.whole = operations ∧
    r.after t m m' =
      { r with
        accepted := r.accepted ++ operations
        later := r.later ++ (gist m'.whole).lines.drop (gist m.whole).lines.length } := by
  have handed : sent m.whole m'.whole = operations :=
    (congrArg (List.drop _) queue).trans (List.drop_left ..)
  refine ⟨handed, ?_⟩
  have untold : t.tells m = false := by
    cases t <;> simp at presents <;> rfl
  simp only [Record.after, handed, presents.1, untold, if_false, List.append_nil,
    Bool.false_eq_true]
  rfl

theorem since_eq {s : SignalRef} {w w' : Whole} {more : List String}
    (heard : heard s w' = heard s w ++ more) : since s w w' = more :=
  (congrArg (List.drop _) heard).trans (List.drop_left ..)

theorem since_nil {s : SignalRef} {w w' : Whole} (heard : heard s w' = heard s w) :
    since s w w' = [] :=
  since_eq (heard.trans (List.append_nil _).symm)

/-- Something was said. -/
theorem stands_of_talks (ongoing : Ongoing m r) (presents : t ≠ .drain ∧ t ≠ .work ∧ t ≠ .wait)
    {g₁ : Gist} (talks : (gist m.whole).Talks g₁)
    (same : gist m'.whole = g₁ ∨ gist m'.whole = g₁.halt) :
    Stands (gist m'.whole) m.left (r.after t m m') ∧ sent m.whole m'.whole = [] := by
  have fields : (gist m'.whole).lines = g₁.lines ∧
      (gist m'.whole).worker.queue = g₁.worker.queue := by
    rcases same with eq | eq <;> rw [eq] <;> exact ⟨rfl, rfl⟩
  have queue : (gist m'.whole).worker.queue = (gist m.whole).worker.queue ++ [] := by
    rw [fields.2, talks.same, List.append_nil]
  obtain ⟨handed, after⟩ := after_of_presents (r := r) presents queue
  refine ⟨?_, handed⟩
  rw [after, List.append_nil, fields.1]
  have spoken := ongoing.stands.talks talks
  rcases same with eq | eq
  · rw [eq]
    exact spoken
  · rw [eq]
    exact spoken.halt

/-- A turn that asks for no operation. -/
theorem answered_of_told (none : t.operation? m.whole = none) (handed : sent m.whole m'.whole = [])
    (dones : (gist m'.whole).dones =
      (gist m.whole).dones ++ if t.refreshes m.whole then [viewUpdated] else []) :
    Answered t m m' := by
  refine ⟨fun _ asks => ?_, fun _ asks => ?_, fun _ => handed, fun _ => since_eq dones⟩
  · rw [none] at asks
    cases asks
  · rw [none] at asks
    cases asks

/-- An operation was asked for. -/
theorem stands_of_asked (ongoing : Ongoing m r) (presents : t ≠ .drain ∧ t ≠ .work ∧ t ≠ .wait)
    {operation : Operation} (asks : t.operation? m.whole = some operation)
    (still : t.refreshes m.whole = false) (ran : gist m'.whole = (gist m.whole).run operation) :
    Stands (gist m'.whole) m.left (r.after t m m') ∧ Answered t m m' := by
  have attentive : (gist m.whole).frame.Attentive := ongoing.attentive
  have only : ∀ other, t.operation? m.whole = some other → other = operation :=
    fun _ asks' => Option.some.inj (asks'.symm.trans asks)
  have others : t.operation? m.whole = none → sent m.whole m'.whole = [] :=
    fun none => by rw [asks] at none; cases none
  have silent : (gist m'.whole).dones = (gist m.whole).dones → t ≠ .drain →
      since (.controllerDone controller) m.whole m'.whole =
        if t.refreshes m.whole then [viewUpdated] else [] := by
    intro same _
    rw [still]
    exact since_nil same
  cases inFlight : m.whole.client.inFlight with
  | true =>
      rw [Gist.run_busy attentive operation inFlight] at ran
      have spoken : (gist m.whole).Talks (gist m'.whole) := by
        rw [ran]
        exact ⟨rfl, [], (List.append_nil _).symm, fun _ => rfl⟩
      obtain ⟨stands, handed⟩ := stands_of_talks ongoing presents spoken (.inl rfl)
      have free : ¬ m.whole.client.inFlight = false := by simp [inFlight]
      refine ⟨stands, ⟨fun _ _ _ => ⟨?_, handed, ?_⟩, fun _ _ h => absurd h free, others, ?_⟩⟩
      · exact since_eq (congrArg Gist.errors ran)
      · exact (congrArg Gist.inFlight ran).trans inFlight
      · exact silent (by rw [ran])
  | false =>
      have busy : ¬ m.whole.client.inFlight = true := by simp [inFlight]
      cases accepts : m.whole.client.worker.accepts with
      | true =>
          obtain ⟨more, status, same⟩ := Gist.run_accepted attentive operation inFlight accepts
          rw [same] at ran
          have queue : (gist m'.whole).worker.queue = (gist m.whole).worker.queue ++ [operation] :=
            congrArg (·.worker.queue) ran
          obtain ⟨handed, after⟩ := after_of_presents (r := r) presents queue
          refine ⟨?_, ⟨fun _ _ h => absurd h busy, fun other asks' _ => ?_, others, ?_⟩⟩
          · rw [after, ran]
            exact ongoing.stands.accept inFlight _ status _
          · rw [accepts, if_pos rfl, only other asks']
            have errors : (gist m'.whole).errors = (gist m.whole).errors := by
              rw [ran]
            exact ⟨since_nil errors, handed, congrArg Gist.inFlight ran⟩
          · exact silent (by rw [ran])
      | false =>
          rw [Gist.run_refused attentive operation inFlight accepts,
            Gist.setStatus_eq attentive] at ran
          have written := Gist.setStatus_talks attentive (.string operation.started)
          rw [Gist.setStatus_eq attentive] at written
          have spoken : (gist m.whole).Talks (gist m'.whole) := by
            rw [ran]
            exact written.trans ⟨rfl, [], (List.append_nil _).symm, fun _ => rfl⟩
          obtain ⟨stands, handed⟩ := stands_of_talks ongoing presents spoken (.inl rfl)
          refine ⟨stands, ⟨fun _ _ h => absurd h busy, fun _ _ _ => ?_, others, ?_⟩⟩
          · rw [accepts, if_neg (by decide)]
            exact ⟨since_eq (congrArg Gist.errors ran), handed,
              (congrArg Gist.inFlight ran).trans inFlight⟩
          · exact silent (by rw [ran])

/-- Draining is recorded. -/
theorem stands_of_drain (ongoing : Ongoing m r) (ran : gist m'.whole = (gist m.whole).drain) :
    Stands (gist m'.whole) m.left (r.after .drain m m') ∧ sent m.whole m'.whole = [] ∧
      (gist m'.whole).waiting = [] ∧ (gist m'.whole).worker = (gist m.whole).worker := by
  obtain ⟨enabled, eq⟩ := Gist.drain_eq (g := gist m.whole) ongoing.attentive
  obtain ⟨stands, drained⟩ := ongoing.stands.drain ongoing.attentive
  rw [← ran] at stands drained
  rw [eq] at ran
  have worker : (gist m'.whole).worker = (gist m.whole).worker := by rw [ran]
  have handed : sent m.whole m'.whole = [] :=
    List.drop_eq_nil_of_le (congrArg (·.queue.length) worker).le
  have reported : since (.controllerDone controller) m.whole m'.whole = (gist m.whole).due :=
    since_eq (congrArg Gist.dones ran)
  have lines : (gist m'.whole).lines = (gist m.whole).lines := by rw [ran]
  have said : since Channel.status m.whole m'.whole = [] := since_nil lines
  refine ⟨?_, handed, drained, worker⟩
  simp only [Record.after, handed, reported, said, if_true, List.append_nil, Turn.tells,
    Bool.false_eq_true, if_false]
  exact stands

/-- A turn of the worker is recorded. -/
theorem after_of_work (t : Turn) (m m' : Moment) (r : Record) (works : t = .work ∨ t = .wait)
    (fewer : (gist m'.whole).worker.queue.length ≤ (gist m.whole).worker.queue.length)
    (silent : t.tells m = false → (gist m'.whole).lines = (gist m.whole).lines) :
    sent m.whole m'.whole = [] ∧
    r.after t m m' = { r with later := if t.tells m then [] else r.later } := by
  have handed : sent m.whole m'.whole = [] := List.drop_eq_nil_of_le fewer
  refine ⟨handed, ?_⟩
  have presents : t ≠ .drain := by rcases works with rfl | rfl <;> decide
  unfold Record.after
  rw [handed, if_neg presents, List.append_nil, List.append_nil]
  split
  · rfl
  · next untold => rw [since_nil (silent (by simpa using untold)), List.append_nil]

/-- The worker takes an operation up, does the next piece of it, or leaves it. -/
theorem stands_of_work (ongoing : Ongoing m r)
    (turns : (gist m.whole).Turns m.left m'.left (gist m'.whole) .work) :
    Stands (gist m'.whole) m'.left (r.after .work m m') ∧ sent m.whole m'.whole = [] ∧
      (gist m'.whole).dones = (gist m.whole).dones := by
  obtain ⟨w, left⟩ := m
  obtain ⟨w', left'⟩ := m'
  have attentive : (gist w).frame.Attentive := ongoing.attentive
  have stands : Stands (gist w) left r := ongoing.stands
  dsimp only at turns ⊢
  match left with
  | none =>
      obtain ⟨rfl, same⟩ := turns
      obtain ⟨handed, after⟩ := after_of_work .work ⟨w, none⟩ ⟨w', _⟩ r (.inl rfl)
        (congrArg (·.worker.queue.length) same).le fun _ => congrArg Gist.lines same
      rw [after, same]
      exact ⟨stands.take, handed, rfl⟩
  | some [] =>
      obtain ⟨rfl, same⟩ := turns
      have queue : (gist w').worker.queue = (gist w).worker.queue.tail := by
        rw [same]
        rfl
      obtain ⟨handed, after⟩ := after_of_work .work ⟨w, some []⟩ ⟨w', none⟩ r (.inl rfl)
        (by rw [queue, List.length_tail]; exact Nat.sub_le ..) fun _ => by rw [same]; rfl
      rw [after, same]
      exact ⟨stands.leave, handed, rfl⟩
  | some (piece :: rest) =>
      obtain ⟨rfl, same⟩ := turns
      obtain ⟨done, silent⟩ := stands.piece attentive
      obtain ⟨works, worker⟩ := Gist.workOn_one attentive piece
      have told : Turn.tells ⟨w, some (piece :: rest)⟩ .work = decide (piece = .tells) := by
        simp [Turn.tells]
      obtain ⟨handed, after⟩ := after_of_work .work ⟨w, some (piece :: rest)⟩ ⟨w', some rest⟩ r
        (.inl rfl) (by rw [same, worker]) fun untold => by
          rw [same]
          exact silent (by simpa [told] using untold)
      rw [after, told, same]
      refine ⟨by simpa using done, handed, ?_⟩
      obtain ⟨_, _, _, _, _, eq⟩ := works
      rw [eq]

/-- The worker does all that it has left. -/
theorem stands_of_wait (ongoing : Ongoing m r)
    (turns : (gist m.whole).Turns m.left m'.left (gist m'.whole) .wait) :
    Stands (gist m'.whole) m'.left (r.after .wait m m') ∧ sent m.whole m'.whole = [] ∧
      (gist m'.whole).dones = (gist m.whole).dones ∧
      m'.left = none ∧ m'.whole.client.worker.queue = [] := by
  obtain ⟨w, left⟩ := m
  obtain ⟨w', left'⟩ := m'
  have attentive : (gist w).frame.Attentive := ongoing.attentive
  have stands : Stands (gist w) left r := ongoing.stands
  dsimp only at turns ⊢
  match left with
  | none =>
      obtain ⟨rfl, same⟩ := turns
      obtain ⟨done, silent⟩ := stands.workOff attentive
      obtain ⟨works, empty⟩ := Gist.workOff_works attentive
      rw [← same] at done silent works empty
      have told : Turn.tells ⟨w, none⟩ .wait = decide ((gist w).worker.queue ≠ []) := rfl
      obtain ⟨handed, after⟩ := after_of_work .wait ⟨w, none⟩ ⟨w', none⟩ r (.inr rfl)
        (by rw [empty]; exact Nat.zero_le _) fun untold => silent (by simpa [told] using untold)
      rw [after, told]
      obtain ⟨_, _, _, _, _, eq⟩ := works
      exact ⟨by simpa using done, handed, by rw [eq], rfl, empty⟩
  | some pieces =>
      obtain ⟨rfl, same⟩ := turns
      obtain ⟨done, silent⟩ := stands.rest attentive
      obtain ⟨here, -⟩ := Gist.workOn_works attentive pieces
      have through := here.trans (Gist.leave_works _)
      obtain ⟨there, empty⟩ := Gist.workOff_works (through.attentive attentive)
      have works := through.trans there
      rw [← same] at done silent works empty
      have told : Turn.tells ⟨w, some pieces⟩ .wait =
          decide (.tells ∈ pieces ∨ (gist w).worker.queue.tail ≠ []) := rfl
      obtain ⟨handed, after⟩ := after_of_work .wait ⟨w, some pieces⟩ ⟨w', none⟩ r (.inr rfl)
        (by rw [empty]; exact Nat.zero_le _) fun untold => by
          obtain ⟨untold, none⟩ := not_or.mp (of_decide_eq_false (told ▸ untold))
          exact silent untold (not_not.mp none)
      rw [after, told]
      obtain ⟨_, _, _, _, _, eq⟩ := works
      exact ⟨by simpa using done, handed, by rw [eq], rfl, empty⟩

/-- A turn is steady, and it does what it may do. -/
theorem Ongoing.turns (ongoing : Ongoing m r) (turned : Turned t m m') :
    Steady m.whole m'.whole ∧ (gist m.whole).Turns m.left m'.left (gist m'.whole) t :=
  (turned_mounted ongoing.mounted ongoing.presentation m.left t).2 m' turned

/-- Every turn keeps what holds all along a session, and it is answered. -/
theorem Ongoing.turn (ongoing : Ongoing m r) (turned : Turned t m m') :
    Ongoing m' (r.after t m m') ∧ Answered t m m' := by
  obtain ⟨steady, turns⟩ := ongoing.turns turned
  have kept : Stands (gist m'.whole) m'.left (r.after t m m') →
      Ongoing m' (r.after t m m') := fun stands =>
    ⟨steady.mounted ongoing.mounted, steady.thread.trans ongoing.presentation,
      steady.frame ▸ ongoing.attentive, stands⟩
  by_cases presents : t ≠ .drain ∧ t ≠ .work ∧ t ≠ .wait
  · obtain ⟨same, comes⟩ := comes_of_turns ongoing.attentive turns presents
    cases comes with
    | asked operation asks still ran =>
        obtain ⟨stands, answered⟩ := stands_of_asked ongoing presents asks still ran
        exact ⟨kept (same ▸ stands), answered⟩
    | told g₁ none talks dones halted =>
        obtain ⟨stands, handed⟩ := stands_of_talks ongoing presents talks halted
        have same' : (gist m'.whole).dones = g₁.dones := by
          rcases halted with eq | eq
          · rw [eq]
          · rw [eq]
            rfl
        exact ⟨kept (same ▸ stands), answered_of_told none handed (same'.trans dones)⟩
  · cases t with
    | drain =>
        obtain ⟨stands, handed, -⟩ := stands_of_drain ongoing turns.2
        exact ⟨kept (turns.1 ▸ stands), ⟨nofun, nofun, fun _ => handed, fun h => absurd rfl h⟩⟩
    | work =>
        obtain ⟨stands, handed, dones⟩ := stands_of_work ongoing turns
        exact ⟨kept stands, answered_of_told rfl handed (dones.trans (List.append_nil _).symm)⟩
    | wait =>
        obtain ⟨stands, handed, dones, -⟩ := stands_of_wait ongoing turns
        exact ⟨kept stands, answered_of_told rfl handed (dones.trans (List.append_nil _).symm)⟩
    | _ => simp at presents

/-- What holds when a session begins holds all along. -/
theorem Ready.ongoing_session {w : Whole} (ready : Ready w) (session : Session w m r) :
    Ongoing m r := by
  induction session with
  | begins => exact ready.ongoing
  | turn t before turned ih => exact (ih.turn turned).1

/-! ## Settling -/

/-- The worker is idle, and nothing that waits for the presentation thread reports the end of an
    operation. -/
structure Settled (m : Moment) : Prop where
  left : m.left = none
  idle : m.whole.client.worker.queue = []
  done : ∀ message, .client (.complete message) ∉ queue m.whole

theorem settled_of_waiting (left : m.left = none) (idle : m.whole.client.worker.queue = [])
    (waiting : (gist m.whole).waiting = []) : Settled m := by
  refine ⟨left, idle, fun message member => ?_⟩
  have none := List.filterMap_eq_nil_iff.mp waiting _ member
  cases none

/-- Waiting for the worker and draining settles everything. -/
theorem Ongoing.settles {m₁ m₂ : Moment} (ongoing : Ongoing m r) (waited : Turned .wait m m₁)
    (drained : Turned .drain m₁ m₂) : Settled m₂ := by
  obtain ⟨-, -, -, left, idle⟩ := stands_of_wait ongoing (ongoing.turns waited).2
  have ongoing₁ := (ongoing.turn waited).1
  have turns := (ongoing₁.turns drained).2
  obtain ⟨-, -, waiting, worker⟩ := stands_of_drain ongoing₁ turns.2
  have idle₂ : m₂.whole.client.worker.queue = [] := (congrArg (·.queue) worker).trans idle
  exact settled_of_waiting (turns.1.trans left) idle₂ waiting

/-- What a session has come to. -/
structure Exclusive (m : Moment) (r : Record) : Prop where
  /-- What was accepted is reported with its own message, in order, and once. -/
  order : r.completed <+: r.accepted.map (·.completed)
  /-- What is not reported is in flight, and that is one operation at most. -/
  single : r.accepted.length = r.completed.length + m.whole.client.inFlight.toNat
  /-- Every turn can be taken. -/
  taken : ∀ t, ∃ m', Turned t m m'
  /-- However it is taken, it is answered. -/
  answered : ∀ t m', Turned t m m' → Answered t m m'
  /-- When the worker is idle and the dispatcher is drained, nothing is in flight. -/
  settled : Settled m → m.whole.client.inFlight = false ∧ isBusy (properties m.whole) = false ∧
    r.completed = r.accepted.map (·.completed) ∧
    (r.later = [] → ∀ operation ∈ r.accepted.getLast?,
      (properties m.whole).get Property.status = .string operation.finished)
  /-- That can always be reached. -/
  settles : ∀ m₁ m₂, Turned .wait m m₁ → Turned .drain m₁ m₂ → Settled m₂

/-- Operations are done one at a time, and each is reported to be completed once. -/
theorem operations_exclusive {w : Whole} (ready : Ready w) (session : Session w m r) :
    Exclusive m r := by
  have ongoing := ready.ongoing_session session
  have stands := ongoing.stands
  have taken := turned_mounted ongoing.mounted ongoing.presentation m.left
  refine ⟨?_, ?_, fun t => (taken t).1, fun t m' turned => (ongoing.turn turned).2,
    fun settled => ?_, fun m₁ m₂ => ongoing.settles⟩
  · exact ⟨_, stands.order.symm⟩
  · have order := congrArg List.length stands.order
    rw [List.length_append, List.length_map, stands.single] at order
    exact order
  · have none : undone (gist m.whole) m.left = [] := by
      rw [settled.left]
      exact settled.idle
    have due : (gist m.whole).due = [] := by
      show ((queue m.whole).filterMap Errand.ofTask?).filterMap Errand.message? = []
      rw [List.filterMap_filterMap, List.filterMap_eq_nil_iff]
      intro task member
      cases ongoing.mounted.chores task member with
      | data | busy => rfl
      | complete message => exact absurd member (settled.done message)
    have order := stands.order
    have single := stands.single
    have busy := stands.busy
    rw [none, due] at single order
    rw [settled.left] at busy
    refine ⟨?_, busy, ?_, fun silent => stands.told silent (.inl none)⟩
    · exact Bool.toNat_eq_zero.mp single.symm
    · exact (order.trans (List.append_nil _)).symm

end Sessions

/-! ## In a small application -/

section Small

variable {w : Whole} {m m' : Moment} {r r' : Record}

/-- What turns come to and the record of them, if no call nests too deep. -/
def takeTurns : List Turn → Moment → Record → Option (Moment × Record)
  | [], m, r => some (m, r)
  | t :: rest, m, r =>
    match t.perform 30 m.left m.whole with
    | some (left, whole) => takeTurns rest ⟨whole, left⟩ (r.after t m ⟨whole, left⟩)
    | none => none

theorem Session.take {turns : List Turn} (before : Session w m r)
    (taken : takeTurns turns m r = some (m', r')) : Session w m' r' := by
  induction turns generalizing m r with
  | nil =>
      cases taken
      exact before
  | cons t rest ih =>
      unfold takeTurns at taken
      split at taken
      · next left whole ends => exact ih (before.turn t ⟨30, ends⟩) taken
      · cases taken

/-- Only the views that there are have somebody who handles their user actions. -/
theorem handlers_le_one (each : ∀ e ∈ w.views.members, (frame w).handlers e.1 ≤ 1) (v : Nat) :
    (frame w).handlers v ≤ 1 := by
  by_cases known : ∃ e ∈ w.views.members, e.1 = v
  · obtain ⟨e, member, rfl⟩ := known
    exact each e member
  · have new : w.views.get v = default :=
      Family.get_of_not_mem fun e member same => known ⟨e, member, same⟩
    have none : (frame w).handlers v = 0 := by
      show (w.views.get v).userAction.connections.countP _ = 0
      rw [new]
      rfl
    exact none.le.trans (Nat.zero_le 1)

/-- Turns of which it is checked what they come to. -/
theorem session_of_check {turns : List Turn} {P : Moment × Record → Prop} [DecidablePred P]
    (checked : (takeTurns turns ⟨w, none⟩ ⟨[], [], []⟩).any (fun e => P e) = true) :
    ∃ e : Moment × Record, Session w e.1 e.2 ∧ P e := by
  cases taken : takeTurns turns ⟨w, none⟩ ⟨[], [], []⟩ with
  | none =>
      rw [taken] at checked
      cases checked
  | some e =>
      rw [taken] at checked
      exact ⟨e, Session.begins.take taken, of_decide_eq_true checked⟩

/-- Errors, completed operations and the status line are listened to, and all is set up. -/
def listening : List Deed :=
  [.arrange (.listen (.controllerError controller)), .arrange (.listen (.controllerDone controller)),
    .arrange (.listen Channel.status)] ++ settingUp

/-- A second operation is asked for before the first one has been done, and a third one later. -/
def threeOperations : List Turn :=
  [.act "new" .null, .report 0 "open" .null, .wait, .drain, .report 0 "save" .null, .wait, .drain]

/-- The second one is refused. -/
theorem second_of_three_refused : ∃ w m r, Ready w ∧ Session w m r ∧ Exclusive m r ∧
    r.accepted.map (·.completed) =
      ["New document created successfully", "Document saved successfully"] ∧
    r.completed = ["New document created successfully", "Document saved successfully"] ∧
    heard (.controllerError controller) m.whole = [operationInProgress] := by
  have found : ∃ s, Sequel (fun w d => d.Fair w) someParts listening s ∧
      ((frame s.whole).routed = true ∧ (frame s.whole).ears (.controllerError controller) = 1 ∧
        (frame s.whole).ears (.controllerDone controller) = 1 ∧
        (frame s.whole).ears Channel.status = 1 ∧
        (∀ e ∈ s.whole.views.members, (frame s.whole).handlers e.1 ≤ 1) ∧
        s.whole.client.inFlight = false ∧ s.whole.client.worker.queue = [] ∧ queue s.whole = [] ∧
        isBusy (properties s.whole) = false) ∧
      (takeTurns threeOperations ⟨s.whole, none⟩ ⟨[], [], []⟩).any (fun e =>
        e.2.accepted.map (·.completed) =
          ["New document created successfully", "Document saved successfully"] ∧
        e.2.completed = ["New document created successfully", "Document saved successfully"] ∧
        heard (.controllerError controller) e.1.whole = [operationInProgress]) = true :=
    sequel_of_check (by decide +kernel)
  obtain ⟨s, sequel, ⟨routed, errors, dones, lines, each, free, idle, drained, calm⟩, taken⟩ := found
  obtain ⟨presentation, tied⟩ := Tied.sequel (tied_parts _ _ _ _ _) rfl sequel
  have ready : Ready s.whole :=
    { toMounted := tied.toMounted
      presentation
      attentive := ⟨routed, errors, dones, lines, handlers_le_one each⟩
      free
      idle
      done := fun _ member => absurd (drained ▸ member) List.not_mem_nil
      calm }
  obtain ⟨e, session, facts⟩ := session_of_check taken
  exact ⟨s.whole, e.1, e.2, ready, session, operations_exclusive ready session, facts⟩

end Small

end Mvc.App
