import Mvc.Proofs.Contents
import Mvc.Proofs.Notes
import Mvc.Proofs.Ordinary

/-! # A model under watch

A watched run is a run that keeps a chronicle of one model: what the model's hook and its three
signals are told, in this order, and how each write to its store ended. The chronicle is kept
beside everything else, so a watched run does what it does unwatched, and every run that spares
the model's signals can be watched (`bare_watch`).
-/

namespace Mvc

variable {σ ε : Type}

/-- What is told of a model. -/
inductive Announcement where
  /-- To its own hook: a property had one value and has another. -/
  | reacted (name : String) (old new : Value)
  | property (name : String) (value : Value)
  | data
  /-- That it is valid, or that it is not, and whether it is at that moment. -/
  | validity (told now : Bool)
  deriving DecidableEq

/-- How a write reaches a store. -/
inductive Door where
  /-- Through the model. -/
  | model
  /-- Past the model, with its hooks or without. -/
  | store (hooked : Bool)
  deriving DecidableEq

/-- Whether the model's hooks take part. -/
def Door.isHooked : Door → Bool
  | model => true
  | store hooked => hooked

@[simp] theorem Door.isHooked_model : model.isHooked = true := rfl

@[simp] theorem Door.isHooked_store (hooked : Bool) : (store hooked).isHooked = hooked := rfl

/-- What happened to a model. -/
structure Chronicle where
  /-- What was told, the latest last. -/
  told : List Announcement
  /-- The writes that came to an end, the latest last. -/
  writes : List (Door × SetOutcome)
  /-- How often it was filled with its defaults. -/
  fillings : Nat
  deriving DecidableEq

namespace Chronicle

/-- Nothing happened. -/
def empty : Chronicle := ⟨[], [], 0⟩

/-- One chronicle after another. -/
def append (a b : Chronicle) : Chronicle :=
  ⟨a.told ++ b.told, a.writes ++ b.writes, a.fillings + b.fillings⟩

instance : Append Chronicle := ⟨append⟩

/-- Something is told. -/
def tell (e : Announcement) : Chronicle := ⟨[e], [], 0⟩

/-- A write comes to an end. -/
def wrote (door : Door) (outcome : SetOutcome) : Chronicle := ⟨[], [(door, outcome)], 0⟩

/-- The model was filled with its defaults. -/
def filled : Chronicle := ⟨[], [], 1⟩

variable (a b c : Chronicle)

@[simp] theorem told_append : (a ++ b).told = a.told ++ b.told := rfl

@[simp] theorem writes_append : (a ++ b).writes = a.writes ++ b.writes := rfl

@[simp] theorem fillings_append : (a ++ b).fillings = a.fillings + b.fillings := rfl

theorem append_assoc : a ++ b ++ c = a ++ (b ++ c) := by
  show append (append a b) c = append a (append b c)
  simp [append, List.append_assoc, Nat.add_assoc]

@[simp] theorem append_empty : a ++ empty = a := by
  show append a empty = a
  simp [append, empty]

@[simp] theorem empty_append : empty ++ a = a := by
  show append empty a = a
  simp [append, empty]

end Chronicle

/-- Whether a signal belongs to a model. -/
def SignalRef.isOf (m : Nat) : SignalRef → Bool
  | modelProperty n | modelData n | modelValidity n => n = m
  | _ => false

/-- Whether a slot is none of the client's, or one whose code is known to be quiet. -/
def Slot.isQuiet (quiet : σ → Bool) : Slot σ → Bool
  | client code => quiet code
  | _ => true

namespace Action

/-- Whether client code leaves it to a model to use its signals, and lets quiet slots only hear
    of its validity. It may fill the model with its defaults, or it may not. -/
def spares (m : Nat) (quiet : σ → Bool) (fills : Bool) : Action σ ε → Bool
  | emit s _ => !s.isOf m
  | block s blocked => !(blocked && s.isOf m)
  | connect s slot _ => s ≠ .modelValidity m || slot.isQuiet quiet
  | initializeModel n | resetModel n => fills || n ≠ m
  | inBackground a => a.spares m quiet fills
  | _ => true

theorem spares_beside {ν : Type} (m : Nat) (quiet : σ → Bool) (fills : Bool) (a : Action σ ε) :
    (a.beside ν).spares m quiet fills = a.spares m quiet fills := by
  induction a with
  | inBackground a ih => exact ih
  | _ => rfl

/-- What touches no model and calls nobody, at least not at once. -/
def IsAloof : Action σ ε → Prop
  | change _ | enable .. | post .. => True
  | inBackground a => a.IsAloof
  | _ => False

end Action

/-- The hook of a model that is asked about a value, the one that gives its defaults, and the
    quiet slots that hear of its validity neither touch models nor call anyone. -/
structure Behaviour.Discreet (β : Behaviour σ ε) (m : Nat) (quiet : σ → Bool) (fills : Bool) :
    Prop where
  accepts : ∀ name value, (β.accepts m name value).All Action.IsAloof
  populate : fills = true → (β.populate m).All Action.IsAloof
  slot : ∀ code, quiet code = true → ∀ valid, (β.slot code (.validity valid)).All Action.IsAloof

namespace Ensemble

/-- The discipline of client code that spares the signals of a model. -/
def sparing (m : Nat) (quiet : σ → Bool) (fills : Bool) : Discipline σ ε :=
  ⟨fun _ a => a.spares m quiet fills, fun _ a => a.spares m quiet fills⟩

/-! ## Watching -/

section Watching

variable (run : Runner σ (Noted Chronicle ε)) (β : Behaviour σ (Noted Chronicle ε)) (m : Nat)

/-- Add to the notes. -/
def jot (c : Chronicle) (w : Ensemble σ (Noted Chronicle ε)) :
    Ensemble σ (Noted Chronicle ε) :=
  { w with client := { w.client with notes := w.client.notes ++ c } }

/-- `write`, watched. -/
def watchWrite (door : Door) (name : String) (value : Value) :
    Proc (Ensemble σ (Noted Chronicle ε)) SetOutcome := do
  let accepted ← if door.isHooked then run.client (β.accepts m name value) else pure true
  if !accepted then return .rejected
  let old := ((← get).model m).store.get name
  if old == value then return .unchanged
  modify (updateStore m fun s => s.write name value)
  if door.isHooked then
    modify (jot (.tell (.reacted name old value)))
    run.client (β.afterSet m name old value)
  modify (jot (.tell (.property name value)))
  emit run (.modelProperty m) (.property name value)
  modify (jot (.tell .data))
  emit run (.modelData m) .dataChanged
  return .changed

/-- `emitValidity`, watched. -/
def watchValidity : Proc (Ensemble σ (Noted Chronicle ε)) Unit := do
  let valid := isModelValid β (← get) m
  modify fun w => jot (.tell (.validity valid (isModelValid β w m))) w
  emit run (.modelValidity m) (.validity valid)

/-- `write` from outside the model, watched. -/
def watchStore (hooked : Bool) (name : String) (value : Value) :
    Proc (Ensemble σ (Noted Chronicle ε)) SetOutcome := do
  let outcome ← watchWrite run β m (.store hooked) name value
  modify (jot (.wrote (.store hooked) outcome))
  return outcome

/-- `setProperty`, watched. -/
def watchProperty (name : String) (value : Value) :
    Proc (Ensemble σ (Noted Chronicle ε)) SetOutcome := do
  let outcome ← watchWrite run β m .model name value
  if outcome.isChanged then watchValidity run β m
  modify (jot (.wrote .model outcome))
  return outcome

/-- `emitReloaded`, watched. -/
def watchReloaded : Proc (Ensemble σ (Noted Chronicle ε)) Unit := do
  modify (jot (.tell .data))
  emit run (.modelData m) .dataChanged
  watchValidity run β m
  modify (jot .filled)

/-- `initializeModel`, watched. -/
def watchInitialize : Proc (Ensemble σ (Noted Chronicle ε)) (Except ModelError Unit) := do
  if ((← get).model m).initialized then return .ok ()
  match ← run.client (β.populate m) with
  | .error e => return .error e
  | .ok defaults =>
    if ((← get).model m).initialized then return .ok ()
    modify (updateModel m fun o => { o with store := .ofPairs defaults, initialized := true })
    watchReloaded run β m
    return .ok ()

/-- `resetModel`, watched. -/
def watchReset : Proc (Ensemble σ (Noted Chronicle ε)) (Except ModelError Unit) := do
  match ← run.client (β.populate m) with
  | .error e => return .error e
  | .ok defaults =>
    modify (updateStore m fun _ => .ofPairs defaults)
    watchReloaded run β m
    return .ok ()

/-- `body`, one model being watched. Client code does not change the notes. -/
def watchBody (fuel : Nat) : Runner σ (Noted Chronicle ε)
  | .action (.write n hooked name value) =>
    if n = m then watchStore run β m hooked name value else write run β n hooked name value
  | .action (.setProperty n name value) =>
    if n = m then watchProperty run β m name value else setProperty run β n name value
  | .action (.initializeModel n) =>
    if n = m then watchInitialize run β m else initializeModel run β n
  | .action (.resetModel n) => if n = m then watchReset run β m else resetModel run β n
  | .action (.change f) =>
    modify fun w => { w with client := { f w.client with notes := w.client.notes } }
  | call => body run β fuel call

end Watching

/-- Run a call and watch a model whose signals are spared. -/
def watch (β : Behaviour σ ε) (m : Nat) (quiet : σ → Bool) (fills : Bool) :
    Nat → Runner σ (Noted Chronicle ε)
  | 0 => fun _ => Proc.tooDeep
  | depth + 1 => fun call w =>
      if (sparing m quiet fills).admits w call then
        watchBody (watch β m quiet fills depth) (β.beside Chronicle) m depth call w
      else none

/-! ## A watched run is a run -/

open Proc

section Unwatched

variable {run' : Runner σ (Noted Chronicle ε)} {run : Runner σ ε} (calls : BareRunner run' run)
  (β : Behaviour σ ε) (m : Nat)
include calls

theorem bares_watchWrite (door : Door) (name : String) (value : Value) :
    Bares id (watchWrite run' (β.beside Chronicle) m door name value)
      (write run β m door.isHooked name value) := by
  unfold watchWrite write
  have announce : Bares id
      (do
        modify (jot (.tell (.property name value)))
        emit run' (.modelProperty m) (.property name value)
        modify (jot (.tell .data))
        emit run' (.modelData m) .dataChanged
        return SetOutcome.changed)
      (do
        emit run (.modelProperty m) (.property name value)
        emit run (.modelData m) .dataChanged
        return SetOutcome.changed) := by
    refine .note rfl (.bind (bares_emit calls _ _) fun _ => ?_)
    exact .note rfl (.bind (bares_emit calls _ _) fun _ => .pure _)
  cases door.isHooked with
  | false =>
      refine .bind (.pure true) fun accepted => .ite (.pure _) (.look fun w => ?_)
      exact .ite (.pure _) (.bind (.modify fun w => rfl) fun _ => announce)
  | true =>
      refine .bind (f := id) (bares_client calls _) fun accepted => ?_
      refine .ite (.pure _) (.look fun w => ?_)
      refine .ite (.pure _) (.bind (.modify fun w => rfl) fun _ => .note rfl ?_)
      exact .bind (bares_client calls _) fun _ => announce

theorem bares_watchValidity :
    Bares id (watchValidity run' (β.beside Chronicle) m) (emitValidity run β m) :=
  .look fun _ => .note rfl (bares_emit calls _ _)

theorem bares_watchStore (hooked : Bool) (name : String) (value : Value) :
    Bares id (watchStore run' (β.beside Chronicle) m hooked name value)
      (write run β m hooked name value) := by
  have same : write run β m hooked name value =
      write run β m hooked name value >>= fun outcome => pure outcome := (bind_pure _).symm
  rw [same]
  refine .bind (bares_watchWrite calls β m (.store hooked) name value) fun outcome => ?_
  exact .note rfl (.pure outcome)

theorem bares_watchProperty (name : String) (value : Value) :
    Bares id (watchProperty run' (β.beside Chronicle) m name value)
      (setProperty run β m name value) := by
  refine .bind (bares_watchWrite calls β m .model name value) fun outcome => ?_
  cases outcome with
  | changed =>
      refine .bind (bares_watchValidity calls β m) fun _ => ?_
      exact .note rfl (.pure _)
  | unchanged | rejected => exact .note rfl (.pure _)

theorem bares_watchReloaded :
    Bares id (watchReloaded run' (β.beside Chronicle) m) (emitReloaded run β m) := by
  refine .note rfl (.bind (bares_emit calls _ _) fun _ => ?_)
  have same : emitValidity run β m = emitValidity run β m >>= fun _ => pure () :=
    (bind_pure _).symm
  rw [same]
  refine .bind (bares_watchValidity calls β m) fun _ => ?_
  exact fun _ => rfl

theorem bares_watchInitialize :
    Bares id (watchInitialize run' (β.beside Chronicle) m) (initializeModel run β m) := by
  refine .look fun w => .ite (.pure _) ?_
  refine .bind (bares_client calls _) fun populated => ?_
  cases populated with
  | error e => exact .pure _
  | ok defaults =>
      refine .look fun w => .ite (.pure _) (.bind (.modify fun w => rfl) fun _ => ?_)
      exact .bind (bares_watchReloaded calls β m) fun _ => .pure _

theorem bares_watchReset :
    Bares id (watchReset run' (β.beside Chronicle) m) (resetModel run β m) := by
  refine .bind (bares_client calls _) fun populated => ?_
  cases populated with
  | error e => exact .pure _
  | ok defaults =>
      refine .bind (.modify fun w => rfl) fun _ => ?_
      exact .bind (bares_watchReloaded calls β m) fun _ => .pure _

theorem bare_watchBody (fuel : Nat) :
    BareRunner (watchBody run' (β.beside Chronicle) m fuel) (body run β fuel) := by
  have plain := bares_body calls β fuel
  refine ⟨plain.slot, plain.task, plain.subscription, fun a => ?_⟩
  have unwatched := plain.action a
  cases a with
  | write n hooked name value =>
      show Bares id
        (if n = m then watchStore run' (β.beside Chronicle) m hooked name value
          else write run' (β.beside Chronicle) n hooked name value)
        (write run β n hooked name value)
      split
      · next here => exact here ▸ bares_watchStore calls β n hooked name value
      · exact unwatched
  | setProperty n name value =>
      show Bares id
        (if n = m then watchProperty run' (β.beside Chronicle) m name value
          else setProperty run' (β.beside Chronicle) n name value)
        (setProperty run β n name value)
      split
      · next here => exact here ▸ bares_watchProperty calls β n name value
      · exact unwatched
  | initializeModel n =>
      show Bares id
        (if n = m then watchInitialize run' (β.beside Chronicle) m
          else initializeModel run' (β.beside Chronicle) n)
        (initializeModel run β n)
      split
      · next here => exact here ▸ bares_watchInitialize calls β n
      · exact unwatched
  | resetModel n =>
      show Bares id
        (if n = m then watchReset run' (β.beside Chronicle) m
          else resetModel run' (β.beside Chronicle) n)
        (resetModel run β n)
      split
      · next here => exact here ▸ bares_watchReset calls β n
      · exact unwatched
  | _ => exact unwatched

end Unwatched

theorem watch_action (β : Behaviour σ ε) (m : Nat) (quiet : σ → Bool) (fills : Bool)
    (depth : Nat) (a : Action σ (Noted Chronicle ε)) (w : Ensemble σ (Noted Chronicle ε)) :
    watch β m quiet fills (depth + 1) (.action a) w =
      if a.spares m quiet fills then
        watchBody (watch β m quiet fills depth) (β.beside Chronicle) m depth (.action a) w
      else none :=
  rfl

theorem runUnder_action (β : Behaviour σ ε) (m : Nat) (quiet : σ → Bool) (fills : Bool)
    (depth : Nat) (a : Action σ ε) (w : Ensemble σ ε) :
    runUnder β (depth + 1) (sparing m quiet fills) (.action a) w =
      if a.spares m quiet fills then
        body (runUnder β depth (sparing m quiet fills)) β depth (.action a) w
      else none :=
  rfl

/-- A watched run is a run that spares the model's signals, with a chronicle beside it. -/
theorem bare_watch (β : Behaviour σ ε) (m : Nat) (quiet : σ → Bool) (fills : Bool) (depth : Nat) :
    BareRunner (watch β m quiet fills depth) (runUnder β depth (sparing m quiet fills)) := by
  induction depth with
  | zero => exact ⟨fun _ _ => .tooDeep, fun _ => .tooDeep, fun _ => .tooDeep, fun _ => .tooDeep⟩
  | succ depth ih =>
      have inner := bare_watchBody ih β m depth
      refine ⟨fun slot notice w => ?_, fun task w => ?_, fun code w => ?_, fun a w => ?_⟩
      · exact inner.slot slot notice w
      · exact inner.task task w
      · exact inner.subscription code w
      · show (watch β m quiet fills (depth + 1) (.action (a.beside Chronicle)) w).map _ =
          runUnder β (depth + 1) (sparing m quiet fills) (.action a) w.bare
        rw [watch_action, runUnder_action, Action.spares_beside]
        split
        · exact inner.action a w
        · rfl

end Ensemble

end Mvc
