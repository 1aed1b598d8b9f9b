import Mvc.Proofs.Turns

/-! # The operation in flight

From the moment when an operation is accepted until its end is reported it is in flight: first
with the worker, then with its end waiting for the presentation thread. While one is in flight
no other is accepted, so there is never more than one. A record keeps what was accepted and what
was reported to be completed; how far both are from each other is what is in flight
(`Stands`), and every turn keeps this (`Stands.turn`).
-/

namespace Mvc.App

open Ensemble

/-- The operations that were accepted and what was reported to be completed when the dispatcher
    was drained, and the status lines that were heard since the worker wrote the last one. -/
structure Record where
  accepted : List Operation
  completed : List String
  later : List String

/-- What an errand reports to be complete. -/
def Errand.message? : Errand → Option String
  | .complete message => some message
  | .tell .. => none

/-- There is a dispatcher, everything is heard once, and the controller hears of a user action
    once at most. -/
structure Frame.Attentive (f : Frame) : Prop where
  routed : f.routed = true
  errors : f.ears (.controllerError controller) = 1
  dones : f.ears (.controllerDone controller) = 1
  lines : f.ears Channel.status = 1
  single : ∀ v, f.handlers v ≤ 1

namespace Gist

/-- What is to be reported to be complete. -/
def due (g : Gist) : List String := g.waiting.filterMap Errand.message?

variable {g g' : Gist}

/-! ## What is done in equations -/

theorem complain_eq (attentive : g.frame.Attentive) (message : String) :
    g.complain message = { g with errors := g.errors ++ [message] } := by
  simp only [complain, attentive.errors, List.replicate_one]

theorem confirm_eq (attentive : g.frame.Attentive) (message : String) :
    g.confirm message = { g with dones := g.dones ++ [message] } := by
  simp only [confirm, attentive.dones, List.replicate_one]

theorem setStatus_eq (attentive : g.frame.Attentive) (value : Value) :
    g.setStatus value =
      { g with
        status := value
        lines := g.lines ++ if g.status = value then [] else [value.lossyText] } := by
  unfold setStatus
  split
  · next same => simp only [← same, List.append_nil]
  · simp only [announceStatus, attentive.lines, List.replicate_one]

/-- Behind the presentation thread the views are told later. -/
theorem foldl_tell (followers : List (ConnectionId × Nat)) (busy : Bool) (g : Gist)
    (behind : g.inline = false) :
    followers.foldl (tell busy) g =
      { g with waiting := g.waiting ++ followers.map fun f => .tell f.1 f.2 busy } := by
  induction followers generalizing g with
  | nil => simp
  | cons f rest ih =>
      have first : tell busy g f = { g with waiting := g.waiting ++ [.tell f.1 f.2 busy] } := by
        simp only [tell, behind, Bool.false_eq_true, if_false]
      rw [List.foldl_cons, ih (tell busy g f) (first ▸ behind), first]
      simp only [List.append_assoc, List.singleton_append, List.map_cons]

/-- Behind the presentation thread a write of the busy flag only leaves word for the views. -/
theorem setBusy_eq (behind : g.inline = false) (value : Value) :
    ∃ words, words.filterMap Errand.message? = [] ∧
      g.setBusy value = { g with busy := value, waiting := g.waiting ++ words } := by
  unfold setBusy
  split
  · next same => exact ⟨[], rfl, by simp only [← same, List.append_nil]⟩
  · refine ⟨g.frame.followers.map fun f => .tell f.1 f.2 (value.asBool?.getD false), ?_, ?_⟩
    · simp [List.filterMap_map, Function.comp_def, Errand.message?]
    · exact foldl_tell g.frame.followers _ { g with busy := value } behind

/-! ## Talk -/

/-- Something was said, and nothing was done about operations. -/
structure Talks (g g' : Gist) : Prop where
  same : g' = { g with
    serving := g'.serving, status := g'.status
    errors := g'.errors, dones := g'.dones, lines := g'.lines }
  lines : ∃ more, g'.lines = g.lines ++ more ∧ (more = [] → g'.status = g.status)

namespace Talks

theorem refl (g : Gist) : g.Talks g := ⟨rfl, [], (List.append_nil _).symm, fun _ => rfl⟩

theorem trans {g₁ : Gist} (first : g.Talks g₁) (second : g₁.Talks g') : g.Talks g' := by
  obtain ⟨more, lines, silent⟩ := first.lines
  obtain ⟨more', lines', silent'⟩ := second.lines
  refine ⟨by rw [second.same, first.same], more ++ more', ?_, fun none => ?_⟩
  · rw [lines', lines, List.append_assoc]
  · obtain ⟨here, there⟩ := List.append_eq_nil_iff.mp none
    exact (silent' there).trans (silent here)

end Talks

theorem setStatus_talks (attentive : g.frame.Attentive) (value : Value) :
    g.Talks (g.setStatus value) := by
  rw [setStatus_eq attentive]
  refine ⟨rfl, _, rfl, fun silent => ?_⟩
  by_contra changed
  rw [if_neg (Ne.symm changed)] at silent
  exact List.cons_ne_nil _ _ silent

theorem complain_talks (message : String) : g.Talks (g.complain message) :=
  ⟨rfl, [], (List.append_nil _).symm, fun _ => rfl⟩

theorem confirm_talks (message : String) : g.Talks (g.confirm message) :=
  ⟨rfl, [], (List.append_nil _).symm, fun _ => rfl⟩

theorem setTexts_talks (attentive : g.frame.Attentive) (texts : List String) :
    g.Talks (g.setTexts texts) ∧ (g.setTexts texts).errors = g.errors ∧
      (g.setTexts texts).dones = g.dones := by
  induction texts generalizing g with
  | nil => exact ⟨.refl g, rfl, rfl⟩
  | cons text rest ih =>
      have first := setStatus_talks attentive (.string text)
      have silent : (g.setStatus (.string text)).errors = g.errors ∧
          (g.setStatus (.string text)).dones = g.dones := by
        rw [setStatus_eq attentive]
        exact ⟨rfl, rfl⟩
      have attentive₁ : (g.setStatus (.string text)).frame.Attentive := by
        rw [first.same]
        exact attentive
      obtain ⟨talks, errors, dones⟩ := ih attentive₁
      exact ⟨first.trans talks, errors.trans silent.1, dones.trans silent.2⟩

theorem Closes.talks (attentive : g.frame.Attentive) (closes : g.Closes g') :
    g.Talks g' ∧ g'.errors = g.errors ∧ g'.dones = g.dones := by
  obtain ⟨texts, serving, rfl⟩ := closes
  obtain ⟨talks, errors, dones⟩ := setTexts_talks attentive texts
  refine ⟨talks.trans ⟨rfl, [], (List.append_nil _).symm, fun _ => rfl⟩, errors, dones⟩

/-! ## Draining -/

theorem foldl_perform (errands : List Errand) (attentive : g.frame.Attentive) :
    ∃ enabled, errands.foldl perform g =
      { g with
        enabled
        inFlight := g.inFlight && (errands.filterMap Errand.message?).isEmpty
        dones := g.dones ++ errands.filterMap Errand.message? } := by
  induction errands generalizing g with
  | nil => exact ⟨g.enabled, by simp⟩
  | cons errand rest ih =>
      cases errand with
      | complete message =>
          have first : g.perform (.complete message) =
              { g with inFlight := false, dones := g.dones ++ [message] } :=
            confirm_eq (g := { g with inFlight := false }) attentive message
          obtain ⟨enabled, later⟩ := ih (g := g.perform (.complete message)) (first ▸ attentive)
          refine ⟨enabled, ?_⟩
          rw [List.foldl_cons, later, first]
          simp [Errand.message?]
      | tell id v busy =>
          obtain ⟨enabled, first⟩ : ∃ enabled, g.perform (.tell id v busy) = { g with enabled } := by
            unfold perform
            dsimp only
            split
            · exact ⟨_, rfl⟩
            · exact ⟨g.enabled, rfl⟩
          obtain ⟨enabled', later⟩ := ih (g := g.perform (.tell id v busy)) (first ▸ attentive)
          refine ⟨enabled', ?_⟩
          rw [List.foldl_cons, later, first, List.filterMap_cons_none rfl]

/-- Draining reports what is due. -/
theorem drain_eq (attentive : g.frame.Attentive) :
    ∃ enabled, g.drain =
      { g with
        waiting := []
        enabled
        inFlight := g.inFlight && g.due.isEmpty
        dones := g.dones ++ g.due } :=
  foldl_perform (g := { g with waiting := [] }) g.waiting attentive

/-! ## The worker -/

/-- What a piece changes. -/
theorem does_eq (attentive : g.frame.Attentive) (behind : g.inline = false)
    (operation : Operation) (piece : Piece) :
    ∃ busy status waiting lines,
      g.does operation piece = { g with busy, status, waiting, lines } := by
  cases piece with
  | begins | ends =>
      obtain ⟨words, -, eq⟩ := setBusy_eq behind _
      exact ⟨_, g.status, _, g.lines, eq⟩
  | tells => exact ⟨g.busy, _, g.waiting, _, setStatus_eq attentive _⟩
  | stamps => exact ⟨g.busy, g.status, g.waiting, g.lines, rfl⟩
  | reports => exact ⟨g.busy, g.status, _, g.lines, if_pos attentive.routed⟩

theorem inline_background (attentive : g.frame.Attentive) :
    { g with thread := .background }.inline = false := by
  simp [inline, attentive.routed]

theorem workOn_cons (attentive : g.frame.Attentive) (piece : Piece) (pieces : List Piece) :
    g.workOn (piece :: pieces) = (g.workOn [piece]).workOn pieces := by
  cases queue : g.worker.queue with
  | nil => simp only [workOn, queue]
  | cons operation later =>
      obtain ⟨busy, status, waiting, lines, eq⟩ :=
        does_eq (g := { g with thread := .background }) attentive (inline_background attentive)
          operation piece
      simp only [workOn, queue, behind, List.foldl_cons, List.foldl_nil, eq]

/-- The worker does its part, which others neither see nor hear but for the busy flag and the
    status line. -/
def Works (g g' : Gist) : Prop :=
  ∃ busy status waiting lines worker, g' = { g with busy, status, waiting, lines, worker }

theorem Works.refl (g : Gist) : g.Works g :=
  ⟨g.busy, g.status, g.waiting, g.lines, g.worker, rfl⟩

theorem Works.trans {g₁ : Gist} (first : g.Works g₁) (second : g₁.Works g') : g.Works g' := by
  obtain ⟨_, _, _, _, _, rfl⟩ := first
  obtain ⟨busy, status, waiting, lines, worker, rfl⟩ := second
  exact ⟨busy, status, waiting, lines, worker, rfl⟩

theorem Works.attentive (works : g.Works g') (attentive : g.frame.Attentive) :
    g'.frame.Attentive := by
  obtain ⟨_, _, _, _, _, rfl⟩ := works
  exact attentive

theorem leave_works (g : Gist) : g.Works g.leave :=
  ⟨g.busy, g.status, g.waiting, g.lines, _, rfl⟩

theorem workOn_one (attentive : g.frame.Attentive) (piece : Piece) :
    g.Works (g.workOn [piece]) ∧ (g.workOn [piece]).worker = g.worker := by
  unfold workOn
  split
  · exact ⟨.refl g, rfl⟩
  · next operation _ _ =>
      obtain ⟨busy, status, waiting, lines, eq⟩ :=
        does_eq (g := { g with thread := .background }) attentive (inline_background attentive)
          operation piece
      have same : g.behind operation [piece] = { g with busy, status, waiting, lines } := by
        unfold behind
        rw [List.foldl_cons, List.foldl_nil, eq]
      exact ⟨⟨busy, status, waiting, lines, g.worker, same⟩, by rw [same]⟩

theorem workOn_nil (g : Gist) : g.workOn [] = g := by
  unfold workOn
  split <;> rfl

theorem workOn_works (attentive : g.frame.Attentive) (pieces : List Piece) :
    g.Works (g.workOn pieces) ∧ (g.workOn pieces).worker = g.worker := by
  induction pieces generalizing g with
  | nil => exact g.workOn_nil.symm ▸ ⟨.refl g, rfl⟩
  | cons piece rest ih =>
      rw [workOn_cons attentive]
      obtain ⟨here, same⟩ := workOn_one attentive piece
      obtain ⟨there, same'⟩ := ih (here.attentive attentive)
      exact ⟨here.trans there, same'.trans same⟩

theorem work_eq {operation : Operation} {later : List Operation}
    (queue : g.worker.queue = operation :: later) :
    g.work operation = (g.workOn Piece.all).leave := by
  simp only [workOn, queue]
  rfl

theorem workOff_works (attentive : g.frame.Attentive) :
    g.Works g.workOff ∧ g.workOff.worker.queue = [] := by
  unfold workOff
  generalize queue : g.worker.queue = operations
  induction operations generalizing g with
  | nil => exact ⟨.refl g, queue⟩
  | cons operation later ih =>
      obtain ⟨works, worker⟩ := workOn_works attentive Piece.all
      have through := works.trans (leave_works _)
      rw [List.foldl_cons, work_eq queue]
      obtain ⟨rest, none⟩ := ih (through.attentive attentive) (by
        show (g.workOn Piece.all).worker.queue.tail = later
        rw [worker, queue]
        rfl)
      exact ⟨through.trans rest, none⟩

end Gist

/-! ## How far an operation is -/

/-- The operations of the worker whose end is not posted. -/
def undone (g : Gist) (left : Option (List Piece)) : List Operation :=
  if left = some [] then g.worker.queue.tail else g.worker.queue

/-- Whether the worker has set the busy flag and not cleared it. -/
def Piece.atWork (left : Option (List Piece)) : Bool :=
  left = some [.ends, .tells, .stamps, .reports]

/-- Whether the worker has written its status line and not posted the end. -/
def Piece.told (left : Option (List Piece)) : Bool :=
  left = some [.stamps, .reports] ∨ left = some [.reports]

/-- What was accepted was reported to be completed in order, apart from what is in flight, and
    that is one operation at most. -/
structure Stands (g : Gist) (left : Option (List Piece)) (r : Record) : Prop where
  order : r.accepted.map (·.completed) =
    r.completed ++ (g.due ++ (undone g left).map (·.completed))
  single : (g.due ++ (undone g left).map (·.completed)).length = g.inFlight.toNat
  taken : ∀ pieces ∈ left, g.worker.queue ≠ [] ∧ pieces <:+ Piece.all
  latest : ∀ operation ∈ undone g left, operation ∈ r.accepted.getLast?
  busy : g.busy.asBool?.getD false = Piece.atWork left
  told : r.later = [] → undone g left = [] ∨ Piece.told left = true →
    ∀ operation ∈ r.accepted.getLast?, g.status = .string operation.finished

namespace Stands

variable {g g' : Gist} {left : Option (List Piece)} {r : Record}

theorem talks (stands : Stands g left r) (talks : g.Talks g') :
    Stands g' left { r with later := r.later ++ g'.lines.drop g.lines.length } := by
  obtain ⟨more, lines, silent⟩ := talks.lines
  have same := talks.same
  refine ⟨?_, ?_, ?_, ?_, ?_, fun none settled => ?_⟩
  · rw [same]
    exact stands.order
  · rw [same]
    exact stands.single
  · rw [same]
    exact stands.taken
  · rw [same]
    exact stands.latest
  · rw [same]
    exact stands.busy
  · obtain ⟨before, quiet⟩ := List.append_eq_nil_iff.mp none
    rw [lines, List.drop_left] at quiet
    rw [silent quiet]
    rw [same] at settled
    exact stands.told before settled

/-- The worker accepts no more. -/
theorem halt (stands : Stands g left r) : Stands g.halt left r :=
  ⟨stands.order, stands.single, stands.taken, stands.latest, stands.busy, stands.told⟩

/-- Draining reports the end of an operation if that is due. -/
theorem drain (stands : Stands g left r) (attentive : g.frame.Attentive) :
    Stands g.drain left { r with completed := r.completed ++ g.due } ∧ g.drain.waiting = [] := by
  obtain ⟨enabled, eq⟩ := Gist.drain_eq attentive
  rw [eq]
  refine ⟨⟨?_, ?_, stands.taken, stands.latest, stands.busy, stands.told⟩, rfl⟩
  · show _ = (r.completed ++ g.due) ++ ([] ++ (undone g left).map (·.completed))
    rw [stands.order, List.nil_append, List.append_assoc]
  · show ((undone g left).map (·.completed)).length = (g.inFlight && g.due.isEmpty).toNat
    have single := stands.single
    rw [List.length_append] at single
    cases due : g.due with
    | nil => simpa [due] using single
    | cons message rest =>
        rw [due] at single
        have le := Bool.toNat_le g.inFlight
        simp only [List.length_cons] at single
        simp only [List.isEmpty_cons, Bool.and_false, Bool.toNat_false]
        omega

/-- If none is in flight, then none is due, and the worker has none left to do. -/
theorem free (stands : Stands g left r) (inFlight : g.inFlight = false) :
    g.due = [] ∧ undone g left = [] := by
  have none := stands.single
  rw [inFlight] at none
  simpa using none

/-- An operation is accepted. -/
theorem accept (stands : Stands g left r) (inFlight : g.inFlight = false) {operation : Operation}
    (more : List String) (status : Value) (lines : List String) :
    Stands { g with
      inFlight := true, status, lines
      worker := { g.worker with queue := g.worker.queue ++ [operation] } } left
      { r with accepted := r.accepted ++ [operation], later := r.later ++ more } := by
  obtain ⟨due, none⟩ := stands.free inFlight
  have undone' : undone { g with
      inFlight := true, status, lines
      worker := { g.worker with queue := g.worker.queue ++ [operation] } } left = [operation] := by
    unfold undone at none ⊢
    split
    · next leaves =>
        rw [if_pos leaves] at none
        have some := (stands.taken [] leaves).1
        rw [List.tail_append_of_ne_nil some, none]
        rfl
    · next other =>
        rw [if_neg other] at none
        rw [none]
        rfl
  refine ⟨?_, ?_, fun pieces taken => ?_, ?_, stands.busy, fun _ settled => ?_⟩
  · have order := stands.order
    rw [due, none] at order
    rw [undone', List.map_append, order]
    show _ = r.completed ++ (g.due ++ _)
    rw [due]
    simp
  · rw [undone']
    show (g.due ++ _).length = _
    rw [due]
    rfl
  · exact ⟨by simp, (stands.taken pieces taken).2⟩
  · rw [undone']
    simp
  · rw [undone'] at settled
    -- The worker has not taken the operation up.
    have untold : Piece.told left = false := by
      unfold undone at none
      split at none
      · next leaves => rw [leaves]; rfl
      · next other =>
          cases left with
          | none => rfl
          | some pieces => exact absurd none (stands.taken pieces rfl).1
    simp [untold] at settled

/-- What the worker has at hand while something of it is left is all that is in flight. -/
theorem atHand (stands : Stands g left r) {pieces : List Piece} (taken : pieces ∈ left)
    (some : pieces ≠ []) :
    ∃ operation, g.worker.queue = [operation] ∧ undone g left = [operation] ∧ g.due = [] := by
  have others : left ≠ Option.some [] := by
    rintro rfl
    exact some (Option.some.inj taken).symm
  have same : undone g left = g.worker.queue := if_neg others
  obtain ⟨nonempty, -⟩ := stands.taken pieces taken
  have single := stands.single
  rw [same, List.length_append, List.length_map] at single
  have le := Bool.toNat_le g.inFlight
  have positive := List.length_pos_iff.mpr nonempty
  obtain ⟨operation, queue⟩ := List.length_eq_one_iff.mp (by omega : g.worker.queue.length = 1)
  exact ⟨operation, queue, same.trans queue, List.length_eq_zero_iff.mp (by omega)⟩

/-- A piece was done that is not the last. -/
theorem further {piece : Piece} {rest : List Piece} (stands : Stands g (some (piece :: rest)) r)
    (some : rest ≠ []) {busy status : Value} {waiting : List Errand} {lines later : List String}
    (due : waiting.filterMap Errand.message? = g.due)
    (flag : busy.asBool?.getD false = Piece.atWork (.some rest))
    (told : later = [] → Piece.told (.some rest) = true →
      ∀ operation ∈ r.accepted.getLast?, status = .string operation.finished) :
    Stands { g with busy, status, waiting, lines } (.some rest) { r with later } := by
  obtain ⟨operation, queue, before, -⟩ := stands.atHand rfl (List.cons_ne_nil _ _)
  have after : undone { g with busy, status, waiting, lines } (.some rest) = [operation] :=
    (if_neg (by simpa using some)).trans queue
  obtain ⟨nonempty, suffix⟩ := stands.taken _ rfl
  refine ⟨?_, ?_, ?_, ?_, flag, fun none settled => ?_⟩
  · have order := stands.order
    rw [before, ← due] at order
    rw [after]
    exact order
  · have single := stands.single
    rw [before, ← due] at single
    rw [after]
    exact single
  · rintro _ ⟨⟩
    exact ⟨nonempty, (List.suffix_cons piece rest).trans suffix⟩
  · rw [after, ← before]
    exact stands.latest
  · rw [after] at settled
    exact told none (settled.resolve_left (List.cons_ne_nil _ _))

/-- The worker does a piece of the operation at hand. -/
theorem piece {piece : Piece} {rest : List Piece} (stands : Stands g (some (piece :: rest)) r)
    (attentive : g.frame.Attentive) :
    Stands (g.workOn [piece]) (some rest)
      { r with later := if piece = .tells then [] else r.later } ∧
    (piece ≠ .tells → (g.workOn [piece]).lines = g.lines) := by
  obtain ⟨operation, queue, undone, due⟩ := stands.atHand rfl (List.cons_ne_nil _ _)
  have behind := Gist.inline_background attentive
  have here : g.workOn [piece] =
      { { g with thread := .background }.does operation piece with thread := g.thread } := by
    simp only [Gist.workOn, queue, Gist.behind, List.foldl_cons, List.foldl_nil]
  rw [here]
  have suffix := (stands.taken _ rfl).2
  cases piece with
  | begins =>
      obtain rfl : rest = [.ends, .tells, .stamps, .reports] := by
        simpa [Piece.all, List.suffix_cons_iff] using suffix
      obtain ⟨words, none, eq⟩ := Gist.setBusy_eq behind (.bool true)
      rw [Gist.does, eq]
      refine ⟨stands.further (by simp) ?_ rfl (by simp [Piece.told]), fun _ => rfl⟩
      rw [List.filterMap_append, none, List.append_nil]
      rfl
  | ends =>
      obtain rfl : rest = [.tells, .stamps, .reports] := by
        simpa [Piece.all, List.suffix_cons_iff] using suffix
      obtain ⟨words, none, eq⟩ := Gist.setBusy_eq behind (.bool false)
      rw [Gist.does, eq]
      refine ⟨stands.further (by simp) ?_ rfl (by simp [Piece.told]), fun _ => rfl⟩
      rw [List.filterMap_append, none, List.append_nil]
      rfl
  | tells =>
      obtain rfl : rest = [.stamps, .reports] := by
        simpa [Piece.all, List.suffix_cons_iff] using suffix
      rw [Gist.does, Gist.setStatus_eq (g := { g with thread := .background }) attentive]
      refine ⟨stands.further (by simp) rfl stands.busy fun _ _ other last => ?_, by simp⟩
      have latest := stands.latest operation (by rw [undone]; exact List.mem_singleton_self _)
      rw [Option.mem_def] at latest last
      obtain rfl := Option.some.inj (latest.symm.trans last)
      rfl
  | stamps =>
      obtain rfl : rest = [.reports] := by
        simpa [Piece.all, List.suffix_cons_iff] using suffix
      exact ⟨stands.further (by simp) rfl stands.busy fun none _ => stands.told none (.inr rfl),
        fun _ => rfl⟩
  | reports =>
      obtain rfl : rest = [] := by
        simpa [Piece.all, List.suffix_cons_iff] using suffix
      have posted : { g with thread := .background }.does operation .reports =
          { g with
            thread := .background
            waiting := g.waiting ++ [.complete operation.completed] } := if_pos attentive.routed
      rw [posted]
      have due' : Gist.due { g with waiting := g.waiting ++ [.complete operation.completed] } =
          [operation.completed] := by
        show (g.waiting ++ _).filterMap _ = _
        rw [List.filterMap_append, show g.waiting.filterMap _ = [] from due]
        rfl
      have undone' : App.undone
          { g with waiting := g.waiting ++ [.complete operation.completed] } (some []) = [] := by
        show g.worker.queue.tail = []
        rw [queue]
        rfl
      refine ⟨⟨?_, ?_, ?_, ?_, stands.busy, fun none _ => stands.told none (.inr rfl)⟩, fun _ => rfl⟩
      · have order := stands.order
        rw [undone, due] at order
        exact order.trans (by rw [due', undone']; rfl)
      · have single := stands.single
        rw [undone, due] at single
        exact (by rw [due', undone']; rfl : _ = 1).trans single
      · rintro _ ⟨⟩
        exact ⟨(stands.taken _ rfl).1, List.nil_suffix⟩
      · rw [undone']
        simp

/-- The worker takes an operation up, if it has one. -/
theorem take (stands : Stands g none r) :
    Stands g (if g.worker.queue.isEmpty then none else some Piece.all) r := by
  split
  · exact stands
  · next some =>
      refine ⟨stands.order, stands.single, ?_, stands.latest, stands.busy, stands.told⟩
      rintro _ ⟨⟩
      exact ⟨by simpa using some, List.suffix_rfl⟩

/-- The worker leaves the operation at hand. -/
theorem leave (stands : Stands g (some []) r) : Stands g.leave none r :=
  ⟨stands.order, stands.single, nofun, stands.latest, stands.busy, stands.told⟩

/-- The worker does all pieces that are left of the operation at hand. -/
theorem pieces {pieces : List Piece} (stands : Stands g (some pieces) r)
    (attentive : g.frame.Attentive) :
    Stands (g.workOn pieces) (some [])
      { r with later := if .tells ∈ pieces then [] else r.later } ∧
    (.tells ∉ pieces → (g.workOn pieces).lines = g.lines) := by
  induction pieces generalizing g r with
  | nil =>
      have same : g.workOn [] = g := by
        unfold Gist.workOn
        split <;> rfl
      rw [same]
      exact ⟨stands, fun _ => rfl⟩
  | cons piece rest ih =>
      rw [Gist.workOn_cons attentive]
      have works := (Gist.workOn_one attentive piece).1
      obtain ⟨here, silent⟩ := stands.piece attentive
      obtain ⟨there, silent'⟩ := ih here (works.attentive attentive)
      have later : (if .tells ∈ piece :: rest then [] else r.later) =
          if .tells ∈ rest then [] else if piece = .tells then [] else r.later := by
        rw [← ite_or]
        exact if_congr (by rw [List.mem_cons, or_comm, eq_comm]) rfl rfl
      refine ⟨later ▸ there, fun others => ?_⟩
      obtain ⟨here, there⟩ := not_or.mp (mt List.mem_cons.mpr others)
      exact (silent' there).trans (silent (Ne.symm here))

/-- The worker does all operations that it has. -/
theorem workOff (stands : Stands g none r) (attentive : g.frame.Attentive) :
    Stands g.workOff none { r with later := if g.worker.queue = [] then r.later else [] } ∧
    (g.worker.queue = [] → g.workOff.lines = g.lines) := by
  have taken := stands.take
  unfold Gist.workOff
  cases queue : g.worker.queue with
  | nil => exact ⟨stands, fun _ => rfl⟩
  | cons operation more =>
      rw [queue] at taken
      obtain ⟨operation', queue', -⟩ := taken.atHand rfl (by decide)
      obtain ⟨rfl, rfl⟩ := List.cons.inj (queue.symm.trans queue')
      rw [List.foldl_cons, List.foldl_nil, Gist.work_eq queue]
      exact ⟨(taken.pieces attentive).1.leave, nofun⟩

/-- The worker does all that it has left. -/
theorem rest {pieces : List Piece} (stands : Stands g (some pieces) r)
    (attentive : g.frame.Attentive) :
    Stands (g.workOn pieces).leave.workOff none
      { r with later := if .tells ∈ pieces ∨ g.worker.queue.tail ≠ [] then [] else r.later } ∧
    (.tells ∉ pieces → g.worker.queue.tail = [] →
      (g.workOn pieces).leave.workOff.lines = g.lines) := by
  obtain ⟨works, worker⟩ := Gist.workOn_works attentive pieces
  obtain ⟨here, silent⟩ := stands.pieces attentive
  obtain ⟨there, silent'⟩ :=
    here.leave.workOff ((works.trans (Gist.leave_works _)).attentive attentive)
  have queue : (g.workOn pieces).leave.worker.queue = g.worker.queue.tail := by
    show (g.workOn pieces).worker.queue.tail = _
    rw [worker]
  rw [queue] at there silent'
  refine ⟨?_, fun untold none => (silent' none).trans (silent untold)⟩
  have later : (if .tells ∈ pieces ∨ g.worker.queue.tail ≠ [] then [] else r.later) =
      if g.worker.queue.tail = [] then if .tells ∈ pieces then [] else r.later else [] := by
    by_cases none : g.worker.queue.tail = [] <;> simp [none]
  exact later ▸ there

end Stands

end Mvc.App
