import Mvc.Proofs.Edits
import Mvc.Proofs.Watch

/-! # Writing again what is held

A write compares its value with the one that is held. After a write that was accepted, another one
to the same name is redundant if it writes the very same value, bit for bit and at every depth, and
only then (`redundant_iff_identical`). So long as nobody has written to the name in between: the
first write tells the model's hook and those who listen, and they may write again before it is over.
-/

namespace Mvc

variable {σ ε ν : Type}

/-- What a write announces by itself, in order, from what it comes to. -/
def SetOutcome.announcements (hooked : Bool) (name : String) (old value : Value) :
    SetOutcome → List Announcement
  | changed => (if hooked then [.reacted name old value] else []) ++ [.property name value, .data]
  | unchanged | rejected => []

deriving instance DecidableEq for Edit

/-- An edit concerns a name. -/
def Edit.Touches (name : String) : Edit → Prop
  | set n _ accepted => accepted = true ∧ n = name
  | put n _ => n = name
  | replace _ | clear => True

/-- Of all edits that concern a name, the last one sets it to a value. -/
def SetLast (name : String) (value : Value) (log : List Edited) : Prop :=
  ∃ before e after, log = before ++ e :: after ∧ e.edit = .set name value true ∧
    ∀ e' ∈ after, ¬e'.edit.Touches name

theorem Edit.apply_of_not_touches {e : Edit} {name : String} (aside : ¬e.Touches name)
    (c : Content) : e.apply c name = c name := by
  cases e with
  | set n value accepted =>
      cases accepted with
      | true => exact Function.update_of_ne (fun same => aside ⟨rfl, same.symm⟩) _ _
      | false => rfl
  | put n value => exact Function.update_of_ne (fun same => aside same.symm) _ _
  | replace | clear => exact absurd trivial aside

theorem Replays.of_not_touches {c c' : Content} {log : List Edited} {name : String}
    (replays : Replays c log c') (aside : ∀ e ∈ log, ¬e.edit.Touches name) : c' name = c name := by
  induction replays with
  | nothing c => rfl
  | edited _ _ _ ih =>
      obtain ⟨here, later⟩ := List.forall_mem_cons.mp aside
      exact (ih later).trans (Edit.apply_of_not_touches here _)

/-- What was set last is held. -/
theorem Replays.of_setLast {c c' : Content} {log : List Edited} {name : String} {value : Value}
    (replays : Replays c log c') (last : SetLast name value log) :
    c' name = Store.kept value := by
  obtain ⟨before, e, after, rfl, set, aside⟩ := last
  induction before generalizing c with
  | nil =>
      cases replays with
      | edited _ _ later =>
          rw [later.of_not_touches aside, set, Edit.apply, if_pos rfl, Function.update_self]
  | cons first before ih =>
      cases replays with
      | edited _ _ later => exact ih later

namespace Ensemble

open Proc

/-! ## What a write announces by itself -/

/-- An ensemble with announcements noted beside it. -/
abbrev Telling (σ ε : Type) := Ensemble σ (Noted (List Announcement) ε)

/-- A procedure, the notes being left alone. -/
def aside {α : Type} (p : Proc (Ensemble σ ε) α) : Proc (Ensemble σ (Noted ν ε)) α := fun w =>
  (p w.bare).map fun x => (x.1, x.2.noted w.client.notes)

/-- Note an announcement. -/
def tell (e : Announcement) (w : Telling σ ε) : Telling σ ε :=
  { w with client := { w.client with notes := w.client.notes ++ [e] } }

/-- `write`, each of its announcements being noted when it is made, but not those of others. -/
def tellingWrite (run : Runner σ ε) (β : Behaviour σ ε) (m : Nat) (hooked : Bool) (name : String)
    (value : Value) : Proc (Telling σ ε) SetOutcome := do
  let accepted ← if hooked then aside (run.client (β.accepts m name value)) else pure true
  if !accepted then return .rejected
  let old := ((← get).model m).store.get name
  if old == value then return .unchanged
  modify (updateStore m fun s => s.write name value)
  if hooked then
    modify (tell (.reacted name old value))
    aside (run.client (β.afterSet m name old value))
  modify (tell (.property name value))
  aside (emit run (.modelProperty m) (.property name value))
  modify (tell .data)
  aside (emit run (.modelData m) .dataChanged)
  return .changed

variable {β : Behaviour σ ε} {m : Nat} {name : String} {value : Value}

section Steps

variable {run : Runner σ ε}

theorem bares_aside {α : Type} (p : Proc (Ensemble σ ε) α) :
    Bares id (aside (ν := ν) p) p := by
  intro w
  show ((p w.bare).map _).map _ = p w.bare
  rw [Option.map_map]
  exact Option.map_id'

theorem ends_aside {α : Type} {p : Proc (Ensemble σ ε) α} {w : Ensemble σ (Noted ν ε)}
    {post : α → Ensemble σ ε → Prop} (ends : Ends p w.bare post) :
    Ends (aside p) w fun r w' => post r w'.bare ∧ w'.client.notes = w.client.notes := by
  intro r w' h
  obtain ⟨⟨r, v⟩, ran, same⟩ := Option.map_eq_some_iff.mp h
  obtain ⟨rfl, rfl⟩ := Prod.mk.inj same
  exact ⟨ends r v ran, rfl⟩

theorem notes_aside {α : Type} (p : Proc (Ensemble σ ε) α) (w : Ensemble σ (Noted ν ε)) :
    Ends (aside p) w fun _ w' => w'.client.notes = w.client.notes := by
  have done : Ends p w.bare fun _ _ => True := fun _ _ _ => trivial
  exact (ends_aside done).mono fun _ _ same => same.2

theorem bares_tellingWrite (hooked : Bool) : Bares id (tellingWrite run β m hooked name value)
    (write run β m hooked name value) := by
  unfold tellingWrite write
  have announce : Bares id
      (do
        modify (tell (.property name value))
        aside (emit run (.modelProperty m) (.property name value))
        modify (tell .data)
        aside (emit run (.modelData m) .dataChanged)
        return SetOutcome.changed)
      (do
        emit run (.modelProperty m) (.property name value)
        emit run (.modelData m) .dataChanged
        return SetOutcome.changed) := by
    refine .note rfl (.bind (bares_aside _) fun _ => ?_)
    exact .note rfl (.bind (bares_aside _) fun _ => .pure _)
  cases hooked with
  | false =>
      refine .bind (.pure true) fun accepted => .ite (.pure _) (.look fun w => ?_)
      exact .ite (.pure _) (.bind (.modify fun w => rfl) fun _ => announce)
  | true =>
      refine .bind (f := id) (bares_aside _) fun accepted => ?_
      refine .ite (.pure _) (.look fun w => ?_)
      refine .ite (.pure _) (.bind (.modify fun w => rfl) fun _ => .note rfl ?_)
      exact .bind (bares_aside _) fun _ => announce

/-- The store of a model stays as it is. -/
def SameStore (m : Nat) (w w' : Ensemble σ ε) : Prop := (w'.model m).store = (w.model m).store

/-- What the write of a value comes to where another one is held, or the same. -/
structure CameTo (m : Nat) (hooked : Bool) (name : String) (value : Value) (w : Telling σ ε)
    (r : SetOutcome) (w' : Telling σ ε) : Prop where
  told : w'.client.notes = w.client.notes ++
    r.announcements hooked name ((w.model m).store.get name) value
  unchanged : r = .unchanged → (w.model m).store.get name = value ∧ SameStore m w w'
  changed : r = .changed → (w.model m).store.get name ≠ value

theorem ends_announce (w : Telling σ ε) : Ends (do
      modify (tell (.property name value))
      aside (emit run (.modelProperty m) (.property name value))
      modify (tell .data)
      aside (emit run (.modelData m) .dataChanged)
      return SetOutcome.changed) w fun r w' =>
    r = .changed ∧ w'.client.notes = w.client.notes ++ [.property name value, .data] := by
  refine .modify_bind (.bind ((notes_aside _ _).mono fun _ w₁ first => ?_))
  refine .modify_bind (.bind ((notes_aside _ _).mono fun _ w₂ second => ?_))
  exact (ends_pure _ _ _).mpr ⟨rfl, by simp [second, first, tell]⟩

theorem tellingWrite_comesTo {hooked : Bool} {w : Telling σ ε}
    (asked : hooked = true → Keeps (SameStore m) (run.client (β.accepts m name value))) :
    Ends (tellingWrite run β m hooked name value) w (CameTo m hooked name value w) := by
  have kept {w₁ : Telling σ ε} (same : w₁.client.notes = w.client.notes)
      (store : SameStore m w w₁) :
      (w₁.model m).store.get name = value → CameTo m hooked name value w .unchanged w₁ :=
    fun held => ⟨by simp [same, SetOutcome.announcements],
      fun _ => ⟨(congrArg (·.get name) store).symm.trans held, store⟩, nofun⟩
  cases hooked with
  | false =>
      refine .bind_of_eq rfl (.get_bind ?_)
      dsimp only
      split
      · next held =>
          exact (ends_pure _ _ _).mpr (kept rfl rfl (eq_of_beq held))
      · next other =>
          refine .modify_bind ((ends_announce _).mono ?_)
          rintro r w' ⟨rfl, told⟩
          exact ⟨told, nofun, fun _ held => other (beq_iff_eq.mpr held)⟩
  | true =>
      refine .bind ((ends_aside (asked rfl w.bare)).mono ?_)
      rintro accepted w₁ ⟨store, same⟩
      cases accepted with
      | false =>
          refine (ends_pure _ _ _).mpr ⟨by simp [same, SetOutcome.announcements], nofun, nofun⟩
      | true =>
          refine .get_bind ?_
          dsimp only
          split
          · next held => exact (ends_pure _ _ _).mpr (kept same store (eq_of_beq held))
          · next other =>
              have before : (w₁.model m).store = (w.model m).store := store
              rw [before] at other ⊢
              refine .modify_bind (.modify_bind (.bind ((notes_aside _ _).mono ?_)))
              intro _ w₂ reacted
              have reacted : w₂.client.notes = w.client.notes ++
                  [.reacted name ((w.model m).store.get name) value] :=
                reacted.trans (congrArg (· ++ _) same)
              refine (ends_announce _).mono ?_
              rintro r w' ⟨rfl, told⟩
              refine ⟨?_, nofun, fun _ held => other (beq_iff_eq.mpr held)⟩
              simp [told, reacted, SetOutcome.announcements]

end Steps

/-- Every write can be told. -/
theorem exists_told {depth : Nat} {hooked : Bool} {w w' : Ensemble σ ε} {r : SetOutcome}
    (ran : run β (depth + 1) (.action (.write m hooked name value)) w = some (r, w')) :
    ∃ told, tellingWrite (run β depth) β m hooked name value (w.noted []) =
      some (r, w'.noted told) := by
  have bares : Bares id (tellingWrite (run β depth) β m hooked name value)
      (write (run β depth) β m hooked name value) := bares_tellingWrite hooked
  have bares := bares (w.noted [])
  have ran : write (run β depth) β m hooked name value (w.noted ([] : List Announcement)).bare =
      some (r, w') := ran
  rw [ran] at bares
  obtain ⟨⟨r', v⟩, told, eq⟩ := Option.map_eq_some_iff.mp bares
  obtain ⟨rfl, rfl⟩ := Prod.mk.inj eq
  exact ⟨v.client.notes, told⟩

theorem run_of_recorded {depth : Nat} {hooked : Bool} {w w₁ : Ensemble σ ε} {r : SetOutcome}
    {log : List Edited} (first : recorded β m (depth + 1)
      (.action (.write m hooked name value)) (w.noted []) = some (r, w₁.noted log)) :
    run β (depth + 1) (.action (.write m hooked name value)) w = some (r, w₁) :=
  ((bare_recorded β m (depth + 1)).action (.write m hooked name value) _).symm.trans
    (congrArg (Option.map _) first)

/-! ## Redundant writes -/

/-- When a model's hook is asked about a value of a property, it leaves the store alone. -/
def Asks (β : Behaviour σ ε) (m : Nat) (name : String) : Prop :=
  ∀ value depth, Keeps (SameStore m) ((run β depth).client (β.accepts m name value))

/-- While a property has a value, writing it again is redundant if the very same value is written,
    and only then. -/
structure Holds (β : Behaviour σ ε) (m : Nat) (name : String) (v : Value) (w : Ensemble σ ε) :
    Prop where
  /-- Without hooks there is nothing that a redundant write does, or could fail by. -/
  idle : ∀ depth, run β (depth + 1) (.action (.write m false name v)) w = some (.unchanged, w)
  /-- With hooks it only asks whether the value is accepted. -/
  asks : ∀ depth w', (run β depth).client (β.accepts m name v) w = some (true, w') →
    run β (depth + 1) (.action (.write m true name v)) w = some (.unchanged, w')
  /-- A write that is not refused has no effect and tells neither the hook nor anybody else if it is
      redundant, and else it tells them, of the value before, too. -/
  redundant : ∀ depth hooked x r w',
    run β (depth + 1) (.action (.write m hooked name x)) w = some (r, w') → r ≠ .rejected →
    ∃ told, tellingWrite (run β depth) β m hooked name x (w.noted []) = some (r, w'.noted told) ∧
      (r = .unchanged ∧ told = [] ↔ x = v) ∧ (x = v → SameStore m w w') ∧
      (x ≠ v → r = .changed ∧ told = SetOutcome.changed.announcements hooked name v x)

theorem write_held {run : Runner σ ε} (hooked : Bool) {w w₁ : Ensemble σ ε}
    (accepted : (if hooked then run.client (β.accepts m name value) else pure true) w =
      some (true, w₁))
    (held : (w₁.model m).store.get name = value) :
    write run β m hooked name value w = some (.unchanged, w₁) := by
  unfold write
  cases hooked <;>
  · simp only [Bool.false_eq_true, if_false, if_true] at accepted ⊢
    rw [bind_eq_of_eq accepted]
    simp only [Bool.not_true, Bool.false_eq_true, if_false, get_bind, held, beq_self_eq_true,
      if_true]
    rfl

theorem holds_of_get {w : Ensemble σ ε} {v : Value} (asked : Asks β m name)
    (held : (w.model m).store.get name = v) : Holds β m name v w where
  idle depth := write_held false rfl held
  asks depth w' accepted := by
    have store : SameStore m w w' := asked v depth _ _ _ accepted
    exact write_held true accepted ((congrArg (·.get name) store).trans held)
  redundant depth hooked x r w' ran accepted := by
    obtain ⟨told, telling⟩ := exists_told ran
    have came := tellingWrite_comesTo (fun _ => asked x depth) _ _ telling
    have notes : told = r.announcements hooked name ((w.model m).store.get name) x := came.told
    refine ⟨told, telling, ?_⟩
    cases r with
    | rejected => exact absurd rfl accepted
    | unchanged =>
        obtain ⟨same, store⟩ := came.unchanged rfl
        obtain rfl : v = x := held.symm.trans same
        exact ⟨⟨fun _ => rfl, fun _ => ⟨rfl, notes⟩⟩, fun _ => store, fun other => absurd rfl other⟩
    | changed =>
        have other : x ≠ v := fun same => came.changed rfl (held.trans same.symm)
        refine ⟨⟨nofun, fun same => absurd same other⟩, fun same => absurd same other,
          fun _ => ⟨rfl, ?_⟩⟩
        rw [notes, held]

/-- Equality of values is an equivalence. Values are equal when they are the same, those inside them
    included, and a double is the same only if its bits are.

    After a write that was accepted, and after which nobody wrote to that name any more before it
    was over, a write that is not refused changes nothing and tells nobody anything if it writes the
    same value, and only then. So two writes of the same value tell of it once at most. -/
theorem redundant_iff_identical (β : Behaviour σ ε) :
    Equivalence (fun a b : Value => (a == b) = true) ∧ (∀ a b : Value, (a == b) = true ↔ a = b) ∧
    (∀ a b : Binary64, (Value.float a == Value.float b) = true ↔ a.bits = b.bits) ∧
    ∀ {m depth : Nat} {hooked : Bool} {name : String} {v : Value} {w w₁ : Ensemble σ ε}
      {r : SetOutcome} {log : List Edited}, Asks β m name →
      Content.IsFull (w.model m).store.value? →
      recorded β m (depth + 1) (.action (.write m hooked name v)) (w.noted []) =
        some (r, w₁.noted log) →
      SetLast name v log →
      Holds β m name v w₁ ∧
        ∃ told, tellingWrite (run β depth) β m hooked name v (w.noted []) =
            some (r, w₁.noted told) ∧
          told = r.announcements hooked name ((w.model m).store.get name) v ∧
          told.countP (· matches .property ..) ≤ 1 := by
  refine ⟨⟨fun a => beq_self_eq_true a, fun same => ?_, fun same same' => ?_⟩,
    fun a b => beq_iff_eq, fun a b => ?_, ?_⟩
  · exact beq_iff_eq.mpr (eq_of_beq same).symm
  · exact beq_iff_eq.mpr ((eq_of_beq same).trans (eq_of_beq same'))
  · obtain ⟨bits⟩ := a
    obtain ⟨bits'⟩ := b
    simp
  · intro m depth hooked name v w w₁ r log asked full first last
    obtain ⟨log', noted, replays⟩ := recorded_amends β m (depth + 1) _ _ _ _ first
    obtain rfl : log = log' := noted
    have held : (w₁.model m).store.get name = v := by
      rw [Store.get_eq]
      exact (congrArg (·.getD .null) ((replays full).of_setLast last)).trans (Store.getD_kept v)
    obtain ⟨told, telling⟩ := exists_told (run_of_recorded first)
    have came := tellingWrite_comesTo (fun _ => asked v depth) _ _ telling
    have own : told = r.announcements hooked name ((w.model m).store.get name) v := came.told
    refine ⟨holds_of_get asked held, told, telling, own, ?_⟩
    rw [own]
    cases r <;> cases hooked <;> simp [SetOutcome.announcements]

/-- A list with a NaN inside, whose payload is given. -/
def nested (payload : UInt64) : Value :=
  .list [.float ⟨0x7ff8000000000000 + payload⟩, .map [("zero", .float ⟨0x8000000000000000⟩)]]

/-- A width that is no number, told to a hook that keeps it under another name, too, is told of once
    however often it is written, but another NaN is another value. -/
theorem redundant_nan : ∃ (w₁ w₃ : Ensemble Nat Unit) (told : List Announcement),
    run guarded 8 (.action (.write 0 true "width" (nested 1))) guardedStart =
      some (.changed, w₁) ∧
    run guarded 8 (.action (.write 0 false "width" (nested 1))) w₁ = some (.unchanged, w₁) ∧
    run guarded 8 (.action (.write 0 true "width" (nested 2))) w₁ = some (.changed, w₃) ∧
    tellingWrite (run guarded 7) guarded 0 true "width" (nested 2) (w₁.noted []) =
      some (.changed, w₃.noted told) ∧
    told = [.reacted "width" (nested 1) (nested 2), .property "width" (nested 2), .data] := by
  have logged : ((recorded guarded 0 8) (.action (.write 0 true "width" (nested 1)))
      (guardedStart.noted [])).map (fun x => (x.1, x.2.client.notes.map (·.edit))) =
        some (.changed, [.set "width" (nested 1) true, .put "kept" (nested 1)]) := by
    decide +kernel
  obtain ⟨⟨r, w'⟩, first, same⟩ := Option.map_eq_some_iff.mp logged
  obtain ⟨rfl, edits⟩ := Prod.mk.inj same
  have first : recorded guarded 0 8 (.action (.write 0 true "width" (nested 1)))
      (guardedStart.noted []) = some (.changed, w'.bare.noted w'.client.notes) := first
  obtain ⟨e, rest, log, edit, others⟩ := List.map_eq_cons_iff.mp edits
  have last : SetLast "width" (nested 1) w'.client.notes := by
    refine ⟨[], e, rest, log, edit, fun e' member => ?_⟩
    have other : e'.edit ∈ [Edit.put "kept" (nested 1)] :=
      others ▸ List.mem_map.mpr ⟨e', member, rfl⟩
    rw [List.mem_singleton.mp other]
    exact show "kept" ≠ "width" by decide
  have asked : Asks guarded 0 "width" := fun _ _ w _ _ h => by
    cases h
    rfl
  have full : Content.IsFull (guardedStart.model 0).store.value? := fun _ => nofun
  have holds := ((redundant_iff_identical guarded).2.2.2 asked full first last).1
  have ran := run_of_recorded first
  have third : ((run guarded 8 (.action (.write 0 true "width" (nested 1)))) guardedStart).bind
      (fun x => ((run guarded 8 (.action (.write 0 true "width" (nested 2)))) x.2).map (·.1)) =
        some SetOutcome.changed := by
    decide +kernel
  rw [ran] at third
  obtain ⟨⟨r, w₃⟩, ran₃, rfl⟩ := Option.map_eq_some_iff.mp third
  obtain ⟨told, telling, -, -, other⟩ := holds.redundant 7 true (nested 2) _ w₃ ran₃ nofun
  obtain ⟨-, told_eq⟩ := other (by decide)
  exact ⟨w'.bare, w₃, told, ran, holds.idle 7, ran₃, telling, told_eq⟩

/-- A width of two is set as soon as another width has been set. -/
def insisting : Behaviour Nat Unit :=
  { Behaviour.plain with
    slot := fun _ notice =>
      match notice with
      | .property "width" _ => do
        let _ ← Program.perform (Action.write 0 false "width" (.integer 2))
      | _ => pure () }

/-- A slot writes to the name before the first write is over, so the second one is not redundant. -/
theorem changed_twice_of_insisting : ∃ w₁ w₂ : Ensemble Nat Unit,
    run insisting 8 (.action (.write 0 false "width" (.integer 1))) guardedStart =
      some (.changed, w₁) ∧
    run insisting 8 (.action (.write 0 false "width" (.integer 1))) w₁ = some (.changed, w₂) := by
  have first : ((run insisting 8 (.action (.write 0 false "width" (.integer 1)))
      guardedStart).bind fun x =>
        (run insisting 8 (.action (.write 0 false "width" (.integer 1))) x.2).map fun y =>
          (x.1, y.1)) = some (SetOutcome.changed, SetOutcome.changed) := by
    decide +kernel
  obtain ⟨⟨r, w₁⟩, ran, rest⟩ := Option.bind_eq_some_iff.mp first
  obtain ⟨⟨r', w₂⟩, ran', same⟩ := Option.map_eq_some_iff.mp rest
  cases same
  exact ⟨w₁, w₂, ran, ran'⟩

end Ensemble

end Mvc
