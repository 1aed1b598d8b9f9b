import Mvc.Proofs.Edits
import Mvc.Proofs.Obedience

/-! # The log of a hook

A hook may write down each change that it is told of before it does anything else. What it does
then may write to the store again, through the hook, and so on to any depth. A slot that hears of
the change may do so, too, or some other code. As long as everybody writes through the hook, the
log is in order all the same: each entry is about the value that those before it left, and one
after another they take what the store held to what it holds in the end (`log_faithful`). This is
because nothing happens between a change of the store and the entry about it.

What the writes come to is tallied beside the run, each when it returns. There are as many entries
as there were changes.
-/

namespace Mvc

variable {σ ε : Type}

/-! ## Logs -/

/-- A change, as a hook is told of it. -/
structure LogEntry where
  name : String
  old : Value
  new : Value
  deriving DecidableEq

namespace LogEntry

/-- What the entries of a log, one after another, make of a partial map. -/
def replay (c : Content) (log : List LogEntry) : Content :=
  log.foldl (fun c e => Function.update c e.name (Store.kept e.new)) c

/-- Each entry is about the value that those before it left and about another one, and all of
    them take one partial map to the other. -/
structure Chains (c : Content) (log : List LogEntry) (c' : Content) : Prop where
  old : ∀ before e after, log = before ++ e :: after →
    e.old = (replay c before e.name).getD .null
  differ : ∀ e ∈ log, e.old ≠ e.new
  replayed : replay c log = c'

namespace Chains

variable {c c₁ c' : Content} {log log' : List LogEntry}

theorem nothing (c : Content) : Chains c [] c :=
  ⟨fun before e after same => by simp at same, nofun, rfl⟩

theorem single {e : LogEntry} (old : e.old = (c e.name).getD .null) (differ : e.old ≠ e.new) :
    Chains c [e] (Function.update c e.name (Store.kept e.new)) := by
  refine ⟨fun before e' after same => ?_, fun e' member => ?_, rfl⟩
  · cases before with
    | nil =>
        cases same
        exact old
    | cons first rest => simp at same
  · rw [List.mem_singleton.mp member]
    exact differ

theorem append (first : Chains c log c₁) (second : Chains c₁ log' c') :
    Chains c (log ++ log') c' := by
  refine ⟨fun before e after same => ?_, fun e member => ?_, ?_⟩
  · rcases List.append_eq_append_iff.mp same with ⟨more, rfl, later⟩ | ⟨more, earlier, later⟩
    · rw [replay, List.foldl_append, ← replay, ← replay, first.replayed]
      exact second.old more e after later
    · cases more with
      | nil =>
          have here : before = log := by simpa using earlier.symm
          rw [here, first.replayed]
          exact second.old [] e after later.symm
      | cons e' rest =>
          obtain ⟨rfl, -⟩ := List.cons.inj later
          exact first.old before e rest earlier
  · exact (List.mem_append.mp member).elim (first.differ e) (second.differ e)
  · rw [replay, List.foldl_append, ← replay, ← replay, first.replayed, second.replayed]

end Chains

end LogEntry

/-- A place for a log in what is the client's own. -/
structure WriteLog (ε : Type) where
  entries : ε → List LogEntry
  enter : LogEntry → ε → ε
  entries_enter : ∀ e s, entries (enter e s) = entries s ++ [e]

/-- Nobody writes to a model past its hook, or to the log. -/
def Action.Leaves (m : Nat) (L : WriteLog ε) : Action σ ε → Prop
  | .write n hooked _ _ => n = m → hooked = true
  | .setSilently n _ _ | .replaceAll n _ | .clear n | .initializeModel n | .resetModel n => n ≠ m
  | .inBackground a => a.Leaves m L
  | .change f => ∀ s, L.entries (f s) = L.entries s
  | _ => True

namespace Behaviour

/-- The same client code without a model's hook. -/
def unhooked (β : Behaviour σ ε) (m : Nat) : Behaviour σ ε :=
  { β with afterSet := fun n name old new => if n = m then pure () else β.afterSet n name old new }

/-- A model's hook enters each change in the log and then goes on. Otherwise everybody leaves the
    log alone, and writes to the model through the hook. -/
structure Logs (β : Behaviour σ ε) (m : Nat) (L : WriteLog ε) : Prop where
  hook : ∀ name old new, ∃ react : Client σ ε Unit, react.All (Action.Leaves m L) ∧
    β.afterSet m name old new = do
      Program.perform (Action.change (L.enter ⟨name, old, new⟩))
      react
  others : (β.unhooked m).Obeys (Action.Leaves m L)

end Behaviour

/-- What an action came to if it was a write through a model's hook. -/
def Action.outcomes (m : Nat) : (a : Action σ ε) → a.Result → List SetOutcome
  | .write n hooked _ _, r => if hooked = true ∧ n = m then [r] else []
  | .setProperty n _ _, r => if n = m then [r] else []
  | _, _ => []

namespace Ensemble

/-! ## Tallying -/

/-- An ensemble with a tally of what writes came to. -/
abbrev Tallied (σ ε : Type) := Ensemble σ (Noted (List SetOutcome) ε)

/-- Add to the tally. -/
def tally (outcomes : List SetOutcome) (w : Tallied σ ε) : Tallied σ ε :=
  { w with client := { w.client with notes := w.client.notes ++ outcomes } }

/-- `body`, each write through a model's hook being tallied when it returns. -/
def talliedBody (run : Runner σ (Noted (List SetOutcome) ε))
    (β : Behaviour σ (Noted (List SetOutcome) ε)) (m fuel : Nat) :
    Runner σ (Noted (List SetOutcome) ε)
  | .action a => do
    let r ← performAction run β fuel a
    modify (tally (a.outcomes m r))
    return r
  | call => body run β fuel call

/-- Run a call and tally what the writes through a model's hook come to. -/
def tallied (β : Behaviour σ ε) (m : Nat) : Nat → Runner σ (Noted (List SetOutcome) ε)
  | 0 => fun _ => Proc.tooDeep
  | depth + 1 => talliedBody (tallied β m depth) (β.beside _) m depth

open Proc

theorem bare_talliedBody {run' : Runner σ (Noted (List SetOutcome) ε)} {run : Runner σ ε}
    (calls : BareRunner run' run) (β : Behaviour σ ε) (m fuel : Nat) :
    BareRunner (talliedBody run' (β.beside _) m fuel) (body run β fuel) := by
  have plain := bares_body calls β fuel
  refine ⟨plain.slot, plain.task, plain.subscription, fun a => ?_⟩
  have same : body run β fuel (.action a) =
      body run β fuel (.action a) >>= fun r => Pure.pure r := (bind_pure _).symm
  rw [same]
  exact .bind (plain.action a) fun r => .note rfl (.pure r)

/-- Without the tally, a tallied run is a run. -/
theorem bare_tallied (β : Behaviour σ ε) (m depth : Nat) :
    BareRunner (tallied β m depth) (Ensemble.run β depth) := by
  induction depth with
  | zero => exact ⟨fun _ _ => .tooDeep, fun _ => .tooDeep, fun _ => .tooDeep, fun _ => .tooDeep⟩
  | succ depth ih => exact bare_talliedBody ih β m depth

/-! ## The log grows with the store -/

variable {m : Nat} {L : WriteLog ε} {β : Behaviour σ ε} {due due' : List SetOutcome}
  {w w₁ w' : Tallied σ ε}

/-- The store went where the new entries of the log take it, and there are as many as there were
    changes, those included that are to be tallied next. -/
def Logged (m : Nat) (L : WriteLog ε) (due : List SetOutcome) (w w' : Tallied σ ε) : Prop :=
  ∃ log outcomes, L.entries w'.client.own = L.entries w.client.own ++ log ∧
    w'.client.notes = w.client.notes ++ outcomes ∧
    log.length = (outcomes ++ due).count .changed ∧
    LogEntry.Chains (w.model m).store.value? log (w'.model m).store.value?

theorem Logged.trans (first : Logged m L due w w₁) (second : Logged m L due' w₁ w') :
    Logged m L (due ++ due') w w' := by
  obtain ⟨log, outcomes, entries, notes, count, chains⟩ := first
  obtain ⟨log', outcomes', entries', notes', count', chains'⟩ := second
  refine ⟨log ++ log', outcomes ++ outcomes', ?_, ?_, ?_, chains.append chains'⟩
  · rw [entries', entries, List.append_assoc]
  · rw [notes', notes, List.append_assoc]
  · simp only [List.length_append, List.count_append] at count count' ⊢
    omega

theorem Logged.settle (logged : Logged m L due w w') : Logged m L [] w (tally due w') := by
  obtain ⟨log, outcomes, entries, notes, count, chains⟩ := logged
  refine ⟨log, outcomes ++ due, entries, ?_, by simpa using count, chains⟩
  rw [tally, notes, List.append_assoc]

/-- A write that changes nothing is not in the log. -/
theorem Logged.idle {outcome : SetOutcome} (logged : Logged m L [] w w')
    (idle : outcome ≠ .changed) : Logged m L [outcome] w w' := by
  obtain ⟨log, outcomes, entries, notes, count, chains⟩ := logged
  refine ⟨log, outcomes, entries, notes, ?_, chains⟩
  have none : List.count SetOutcome.changed [outcome] = 0 :=
    List.count_eq_zero.mpr fun there => idle (List.mem_singleton.mp there).symm
  rw [List.append_nil] at count
  rw [List.count_append, none, Nat.add_zero]
  exact count

theorem logged_of_same (client : w'.client = w.client)
    (store : (w'.model m).store = (w.model m).store) : Logged m L [] w w' :=
  ⟨[], [], by simp [client], by simp [client], rfl, store ▸ .nothing _⟩

theorem logged_composes : Composes (Logged (σ := σ) m L []) where
  refl _ := logged_of_same rfl rfl
  trans first second := first.trans second

theorem logged_updateModel {n : Nat} (other : n ≠ m) (f : Model σ → Model σ) :
    Logged m L [] w (updateModel n f w) := by
  refine logged_of_same rfl ?_
  rw [model_updateModel, if_neg fun same => other same.symm]

/-- The store is changed, and the change is entered. -/
theorem logged_enter {name : String} {value : Value}
    (apart : (w.model m).store.get name ≠ value)
    (model : w'.model m = (updateStore m (fun s => s.write name value) w).model m)
    (client : w'.client =
      { w.client with own := L.enter ⟨name, (w.model m).store.get name, value⟩ w.client.own }) :
    Logged m L [.changed] w w' := by
  refine ⟨[⟨name, (w.model m).store.get name, value⟩], [], ?_, by simp [client], rfl, ?_⟩
  · rw [client, L.entries_enter]
  · rw [model, store_updateStore, Edit.value?_write_eq]
    exact .single (Store.get_eq _ _) apart

theorem afterSet_beside (β : Behaviour σ ε) (ν : Type) (n : Nat) (name : String) (old new : Value) :
    (β.beside ν).afterSet n name old new = (β.afterSet n name old new).beside ν := rfl

/-! ## Calls -/

/-- What a runner has to do for the log to be kept. -/
structure Tallies (m : Nat) (L : WriteLog ε) (run : Runner σ (Noted (List SetOutcome) ε)) :
    Prop where
  action : ∀ a : Action σ ε, a.Leaves m L → Keeps (Logged m L []) (run (.action (a.beside _)))
  slot : ∀ slot notice, Keeps (Logged m L []) (run (.slot slot notice))
  task : ∀ task, Keeps (Logged m L []) (run (.task task))
  subscription : ∀ code, Keeps (Logged m L []) (run (.subscription code))
  change : ∀ f w,
    Ends (run (.action (.change f))) w fun _ w' => w' = { w with client := f w.client }

/-- What client code may do beside the tally. -/
def LeavesBeside (m : Nat) (L : WriteLog ε) (a' : Action σ (Noted (List SetOutcome) ε)) : Prop :=
  ∃ a : Action σ ε, a.Leaves m L ∧ a' = a.beside _

theorem connect_logged (s : SignalRef) (slot : Slot σ) (d : Delivery) :
    Keeps (Logged m L []) (connect (ε := Noted (List SetOutcome) ε) s slot d) := by
  intro w r w' h
  cases h
  refine logged_of_same (by simp) ?_
  have same := congrArg (·.store) (model_setSignal w s ((w.signal s).connect slot d).2 m)
  exact same

namespace Tallies

variable {run : Runner σ (Noted (List SetOutcome) ε)} (calls : Tallies m L run)
include calls

theorem bystander : Bystander (Logged m L []) (LeavesBeside m L) run where
  order := logged_composes
  tacit still := logged_of_same still.client (still.store m)
  giveUpController _ _ _ := logged_of_same rfl rfl
  giveUpView _ _ _ := logged_of_same rfl rfl
  action := by
    rintro _ ⟨a, leaves, rfl⟩
    exact calls.action a leaves
  slot := calls.slot
  task := calls.task
  subscription := calls.subscription
  link s slot _ := connect_logged s slot .direct
  subscribe _ _ _ :=
    .look fun _ => .bind logged_composes (connect_logged _ _ _) fun _ => .pure logged_composes _

variable (logs : β.Logs m L)
include logs

theorem hooked : Hooked (Logged m L []) ((β.unhooked m).beside _) run :=
  (logs.others.beside _).hooked fun all => calls.bystander.client all

/-- What another model's writers do keeps the log. -/
theorem scribe {n : Nat} (other : n ≠ m) : Scribe (Logged m L []) (β.beside _) run n where
  order := logged_composes
  accepts := (calls.hooked logs).accepts n
  afterSet name old new := by
    have same : (β.unhooked m).afterSet n name old new = β.afterSet n name old new := if_neg other
    have kept := (calls.hooked logs).afterSet n name old new
    rwa [afterSet_beside, same, ← afterSet_beside] at kept
  populate := (calls.hooked logs).populate n
  emit s notice _ := calls.bystander.emit s notice
  stores _ _ := logged_updateModel other _

/-- The hook's entry comes right after the change. -/
theorem afterSet (name : String) {value : Value} (apart : (w.model m).store.get name ≠ value) :
    Ends (run.client ((β.beside _).afterSet m name ((w.model m).store.get name) value))
      (updateStore m (fun s => s.write name value) w) fun _ w' => Logged m L [.changed] w w' := by
  obtain ⟨react, leaves, hook⟩ := logs.hook name ((w.model m).store.get name) value
  rw [afterSet_beside, hook]
  refine .bind ((calls.change _ _).mono ?_)
  rintro _ w₁ rfl
  let entry : LogEntry := ⟨name, (w.model m).store.get name, value⟩
  have entered : Logged m L [.changed] w { updateStore m (fun s => s.write name value) w with
      client := { w.client with own := L.enter entry w.client.own } } := logged_enter apart rfl rfl
  exact (calls.bystander.client (Program.all_beside leaves) _).mono fun _ _ after =>
    entered.trans after

theorem write (name : String) (value : Value) :
    Ends (write run (β.beside _) m true name value) w fun r w' => Logged m L [r] w w' := by
  have b := calls.bystander
  refine .bind (((calls.hooked logs).accepts m name value w).mono fun accepted w₁ asked => ?_)
  cases accepted with
  | false => exact (ends_pure _ _ _).mpr (asked.idle nofun)
  | true =>
      refine .get_bind ?_
      dsimp only
      split
      · exact (ends_pure _ _ _).mpr (asked.idle nofun)
      · next apart =>
          have apart : (w₁.model m).store.get name ≠ value := fun same =>
            apart (beq_iff_eq.mpr same)
          refine .modify_bind (.bind ((calls.afterSet logs name apart).mono fun _ w₂ entered => ?_))
          refine .bind ((b.emit _ _ w₂).mono fun _ w₃ told => ?_)
          refine .bind ((b.emit _ _ w₃).mono fun _ w₄ told' => (ends_pure _ _ _).mpr ?_)
          exact asked.trans ((entered.trans told).trans told')

theorem setProperty (name : String) (value : Value) :
    Ends (setProperty run (β.beside _) m name value) w fun r w' => Logged m L [r] w w' := by
  refine .bind ((calls.write logs name value).mono fun outcome w₁ logged => ?_)
  cases outcome with
  | changed =>
      have told : Keeps (Logged m L []) (emitValidity run (β.beside _) m) :=
        .look fun _ => calls.bystander.emit _ _
      exact .bind ((told w₁).mono fun _ w' later => (ends_pure _ _ _).mpr (logged.trans later))
  | unchanged | rejected => exact (ends_pure _ _ _).mpr logged

omit calls logs in
/-- What no hook of a model has to do with. -/
theorem performAction_unhooked {a : Action σ (Noted (List SetOutcome) ε)}
    (plain : a.isNoticed = false) (fuel : Nat) :
    performAction run (β.beside _) fuel a = performAction run ((β.unhooked m).beside _) fuel a := by
  cases a <;> first | rfl | cases plain

theorem performAction (fuel : Nat) {a : Action σ ε} (leaves : a.Leaves m L) :
    Ends (performAction run (β.beside _) fuel (a.beside _)) w fun r w' =>
      Logged m L ((a.beside (List SetOutcome)).outcomes m r) w w' := by
  have b := calls.bystander
  have plainly : (a.beside (List SetOutcome)).isNoticed = false → Keeps (Logged m L [])
      (Ensemble.performAction run (β.beside _) fuel (a.beside _)) := fun plain => by
    rw [performAction_unhooked (m := m) plain]
    exact b.performAction (calls.hooked logs) fuel _ ⟨a, leaves, rfl⟩
      fun noticed => absurd noticed (plain ▸ nofun)
  cases a with
  | write n hooked name value =>
      show Ends (Ensemble.write run (β.beside _) n hooked name value) w fun r w' =>
        Logged m L (if hooked = true ∧ n = m then [r] else []) w w'
      by_cases here : n = m
      · obtain rfl := leaves here
        subst here
        simpa using calls.write logs name value
      · simpa [here] using (calls.scribe logs here).write hooked name value w
  | setProperty n name value =>
      show Ends (Ensemble.setProperty run (β.beside _) n name value) w fun r w' =>
        Logged m L (if n = m then [r] else []) w w'
      by_cases here : n = m
      · subst here
        simpa using calls.setProperty logs name value
      · simpa [here] using (calls.scribe logs here).setProperty name value w
  | setSilently | replaceAll | clear => exact (ends_modify _ _ _).mpr (logged_updateModel leaves _)
  | initializeModel n =>
      exact (calls.scribe logs leaves).initializeModel (fun _ _ => logged_updateModel leaves _) w
  | resetModel n => exact (calls.scribe logs leaves).resetModel w
  | connect s slot d => exact connect_logged s slot d w
  | inBackground a =>
      exact (inBackground_tracks logged_composes (fun _ _ => logged_of_same rfl rfl)
        ((tracks_self _).mpr (calls.action a leaves))).keeps w
  | change f =>
      refine (ends_modify _ _ _).mpr ⟨[], [], ?_, by simp, rfl, .nothing _⟩
      rw [List.append_nil]
      exact leaves w.client.own
  | _ => exact plainly rfl w

theorem body (fuel : Nat) : Tallies m L (talliedBody run (β.beside _) m fuel) where
  action a leaves w := .bind ((calls.performAction logs fuel leaves).mono fun _ _ logged =>
    .modify_bind ((ends_pure _ _ _).mpr logged.settle))
  slot slot notice := by
    have h := calls.hooked logs
    exact calls.bystander.onlooker.serve ⟨h.handles, h.derive, h.dataChanged, h.updateRequested,
      h.closing, h.display, h.showError, h.showInfo, h.slot⟩ slot notice fun _ => trivial
  task t := by
    cases t with
    | delivery s id slot notice =>
        exact .look fun _ => .ite (calls.slot slot notice) (.pure logged_composes ())
    | client code => exact (calls.hooked logs).job code
  subscription code := (calls.hooked logs).job code
  change f w :=
    .modify_bind (.modify_bind ((ends_pure _ _ _).mpr (by simp [tally, Action.outcomes])))

end Tallies

theorem tallies (logs : β.Logs m L) (depth : Nat) : Tallies m L (tallied β m depth) := by
  induction depth with
  | zero =>
      have never : ∀ {α : Type} {post : Tallied σ ε → α → Tallied σ ε → Prop} (w : Tallied σ ε),
          Ends Proc.tooDeep w (post w) := fun _ _ _ => nofun
      exact ⟨fun _ _ => never, fun _ _ => never, fun _ => never, fun _ => never, fun _ => never⟩
  | succ depth ih => exact ih.body logs depth

/-- The hook of a model writes down each change that it is told of and then writes on, to any
    depth, and everybody else writes to the model only through the hook: however a run goes, each
    new entry of the log is about the value that was left by those before it, `null` if there was
    none, and about a different one; one after another they take what the store held to what it
    holds; and there are as many as writes that came to a change, each write being tallied with
    what it returns. -/
theorem log_faithful (logs : β.Logs m L) (depth : Nat) :
    (∀ {ρ : Type} {code : Client σ ε ρ} {r : ρ} {w w' : Ensemble σ ε},
      code.All (Action.Leaves m L) → (run β depth).client code w = some (r, w') →
      ∃ log outcomes,
        (tallied β m depth).client (code.beside _) (w.noted []) = some (r, w'.noted outcomes) ∧
        L.entries w'.client = L.entries w.client ++ log ∧
        LogEntry.Chains (w.model m).store.value? log (w'.model m).store.value? ∧
        log.length = outcomes.count .changed) ∧
    (∀ {a : Action σ ε} {r} {w w' : Tallied σ ε}, a.Leaves m L →
      tallied β m (depth + 1) (.action (a.beside _)) w = some (r, w') →
      ∃ within, w'.client.notes = w.client.notes ++ within ++ (a.beside _).outcomes m r) := by
  refine ⟨fun all ran => ?_, fun leaves ran => ?_⟩
  · obtain ⟨outcomes, tallied⟩ := exists_beside (bare_tallied β m depth) ran []
    obtain ⟨log, outcomes', entries, same, count, chains⟩ :=
      (tallies logs depth).bystander.client (Program.all_beside all) _ _ _ tallied
    obtain rfl : outcomes = outcomes' := same
    exact ⟨log, outcomes, tallied, entries, chains, by simpa using count⟩
  · obtain ⟨r', w₁, performed, rest⟩ := bind_eq_some.mp ran
    cases rest
    obtain ⟨log, within, -, notes, -⟩ :=
      (tallies logs depth).performAction logs depth leaves _ _ performed
    exact ⟨within, by rw [tally, notes]⟩

/-- The log is all that is the client's own. -/
def logOnly : WriteLog (List LogEntry) := ⟨id, fun e log => log ++ [e], fun _ _ => rfl⟩

/-- A width that is too large is set to the largest, and the depth follows the width. -/
def clamp (name : String) (new : Value) : Client Nat (List LogEntry) Unit := do
  if name = "width" then
    if new = .integer 9 then
      let _ ← Program.perform (Action.write 0 true "width" (.integer 5))
    let _ ← Program.perform (Action.write 0 true "depth" new)

/-- A model's hook keeps a log and then clamps. -/
def clamping : Behaviour Nat (List LogEntry) :=
  { Behaviour.plain with
    afterSet := fun m name old new =>
      if m = 0 then do
        Program.perform (Action.change (logOnly.enter ⟨name, old, new⟩))
        clamp name new
      else pure () }

theorem logs_clamping : clamping.Logs 0 logOnly where
  hook name old new := by
    refine ⟨clamp name new, ?_, rfl⟩
    unfold clamp
    split
    · split
      · exact ⟨fun _ => rfl, fun _ => ⟨fun _ => rfl, fun _ => trivial⟩⟩
      · exact ⟨fun _ => rfl, fun _ => trivial⟩
    · trivial
  others :=
    { accepts := fun _ _ _ => trivial
      afterSet := fun m name old new => by
        by_cases here : m = 0 <;> simp [Behaviour.unhooked, clamping, here] <;> trivial
      populate := fun _ => trivial
      setup := fun _ => trivial
      connect := fun _ => trivial
      handles := fun _ _ _ => trivial
      derive := fun _ => trivial
      dataChanged := fun _ => ⟨trivial, fun _ => trivial⟩
      updateRequested := fun _ => trivial
      closing := fun _ => trivial
      viewSetup := fun _ => trivial
      display := fun _ => trivial
      showError := fun _ _ => trivial
      showInfo := fun _ _ => trivial
      slot := fun _ _ => trivial
      job := fun _ => trivial }

/-- The width is set to what is too large, and then to what it is. -/
def resizing : Client Nat (List LogEntry) (List SetOutcome) := do
  let large ← Program.perform (Action.write 0 true "width" (.integer 9))
  let same ← Program.perform (Action.write 0 true "width" (.integer 5))
  return [large, same]

/-- The width and the depth are both changed twice, the width while it is being set. -/
theorem log_of_resizing :
    ∃ w' outcomes, clamping.Logs 0 logOnly ∧ resizing.All (Action.Leaves 0 logOnly) ∧
      (run clamping 9).client resizing (.new []) = some ([.changed, .unchanged], w') ∧
      w'.client = [⟨"width", .null, .integer 9⟩, ⟨"width", .integer 9, .integer 5⟩,
        ⟨"depth", .null, .integer 5⟩, ⟨"depth", .integer 5, .integer 9⟩] ∧
      LogEntry.Chains (fun _ => none) w'.client (w'.model 0).store.value? ∧
      (tallied clamping 0 9).client (resizing.beside _) ((new []).noted []) =
        some ([.changed, .unchanged], w'.noted outcomes) ∧
      outcomes.count .changed = 4 := by
  have all : resizing.All (Action.Leaves 0 logOnly) :=
    ⟨fun _ => rfl, fun _ => ⟨fun _ => rfl, fun _ => trivial⟩⟩
  have ends : ((run clamping 9).client resizing (.new [])).map (fun x => (x.1, x.2.client)) =
      some ([.changed, .unchanged], [⟨"width", .null, .integer 9⟩,
        ⟨"width", .integer 9, .integer 5⟩, ⟨"depth", .null, .integer 5⟩,
        ⟨"depth", .integer 5, .integer 9⟩]) := by
    decide +kernel
  obtain ⟨⟨r, w'⟩, ran, same⟩ := Option.map_eq_some_iff.mp ends
  obtain ⟨rfl, log⟩ := Prod.mk.inj same
  obtain ⟨entries, outcomes, tallied, grown, chains, count⟩ :=
    (log_faithful logs_clamping 9).1 all ran
  obtain rfl : w'.client = entries := grown
  refine ⟨w', outcomes, logs_clamping, all, ran, log, chains, tallied, ?_⟩
  rw [← count, log]
  rfl

end Ensemble

end Mvc
