import Mvc.Proofs.Logbook

/-! # What happens to a controller in the course of a run

A passage leads from one standing of a controller to another, and says what is written down on
the way. Binding, setting up and closing each have their parts, and between these any number of
other passages may lie, since client code runs there.

What a whole run does to a controller is shown by induction on passages: what was announced
last, how often it is set up, to which model it listens, and which bindings it holds.
-/

namespace Mvc

variable {σ : Type}

/-! ## Standings -/

/-- How a controller stands. -/
structure Standing (σ : Type) where
  pair : Pair
  initialized : Bool
  closing : Bool
  bindings : List (Subscription σ)
  /-- The model that it listens to. -/
  listening : Option Nat

/-- The model that a controller listens to. -/
def Controller.listening (o : Controller σ) : Option Nat :=
  match o.modelSubscriptions with
  | [.connection (.modelData m) _] => some m
  | _ => none

/-- How a controller stands. -/
def Controller.standing (o : Controller σ) : Standing σ :=
  ⟨o.pair, o.initialized, o.closing, o.bindings, o.listening⟩

namespace Standing

variable (s : Standing σ)

/-- The phase of a controller that stands so. -/
def phase : Phase :=
  Controller.phase { (default : Controller σ) with
    model := s.pair.model, view := s.pair.view, initialized := s.initialized, closing := s.closing }

/-- Whether bindings can be made. -/
def isReady : Bool := s.initialized && s.pair.model.isSome && s.pair.view.isSome

/-- Another model is bound, and nothing is made of it yet. -/
def withModel (m : Option Nat) : Standing σ :=
  { s with pair := { s.pair with model := m }, bindings := [], listening := none }

/-- Another view is bound, and nothing is made of it yet. -/
def withView (v : Option Nat) : Standing σ :=
  { s with pair := { s.pair with view := v }, bindings := [], closing := false }

theorem phase_standing (o : Controller σ) : o.standing.phase = o.phase := rfl

end Standing

/-! ## Passages -/

/-- What a passage is part of. -/
inductive Part where
  /-- Any number of operations, one after another. -/
  | calls
  /-- Making bindings anew and announcing the phase. -/
  | rebinding
  /-- Announcing the phase. -/
  | telling
  deriving DecidableEq

/-- What happens to a controller, and how it stands before and after. The truth values say whether
    something is being done to it meanwhile, and whether its phase is being announced. -/
inductive Passage :
    Bool → Bool → Part → Standing σ → Standing σ → List (Happening σ) → Prop where
  | idle {busy d s} : Passage busy d .calls s s []
  | andThen {busy d s s₁ s₂ a b} (first : Passage busy d .calls s s₁ a)
      (second : Passage busy d .calls s₁ s₂ b) : Passage busy d .calls s s₂ (a ++ b)
  | given {busy s} (listener : ConnectionId) (phase : Phase) :
      Passage busy true .calls s s [.given listener phase]
  /-- The model is taken away. -/
  | unbound {busy d s s₁ s₂ a b} (inner : Passage true d .calls (s.withModel none) s₁ a)
      (rest : Passage true d .rebinding s₁ s₂ b) : Passage busy d .calls s s₂
        (.turned ⟨none, s.pair.view⟩ busy :: (a ++ .ended s.bindings :: b))
  /-- A model is bound. -/
  | bound {busy d s s₁ s₂ a b} {m : Nat}
      (inner : Passage true d .calls (s.withModel (some m)) s₁ a)
      (rest : Passage true d .rebinding { s₁ with listening := some m } s₂ b) :
      Passage busy d .calls s s₂ (.turned ⟨some m, s.pair.view⟩ busy ::
        (a ++ .ended s.bindings :: .joined m s₁.pair.model :: b))
  /-- A view is bound or taken away. -/
  | faced {busy d s s₁ s₂ a b} {v : Option Nat}
      (inner : Passage true d .calls (s.withView v) s₁ a)
      (rest : Passage true d .rebinding s₁ s₂ b) : Passage busy d .calls s s₂
        (.turned ⟨s.pair.model, v⟩ busy :: (a ++ .ended s.bindings :: b))
  /-- The setup fails. -/
  | refused {busy d s s₁ a} {e : ControllerError} (new : s.initialized = false)
      (inner : Passage true d .calls s s₁ a) :
      Passage busy d .calls s s₁ (.tried :: (a ++ [.setUp (.error e)]))
  /-- The setup succeeds. -/
  | setUp {busy d s s₁ s₂ a b} (new : s.initialized = false)
      (inner : Passage true d .calls s s₁ a)
      (rest : Passage true d .rebinding { s₁ with initialized := true } s₂ b) :
      Passage busy d .calls s s₂ (.tried :: (a ++ .setUp (.ok ()) :: b))
  /-- The closing phase begins. -/
  | shut {busy d s s₁ s₂ a b} (inner : Passage true d .calls s s₁ a)
      (rest : Passage true d .telling { s₁ with closing := true } s₂ b) :
      Passage busy d .calls s s₂ (.closes :: (a ++ b))
  | unready {d s s₁ a} (unready : s.isReady = false)
      (rest : Passage true d .telling s s₁ a) : Passage true d .rebinding s s₁ a
  /-- Bindings are made, in place of others. -/
  | made {d s s₁ s₂ s₃ a b t} {bindings : List (Subscription σ)} (ready : s.isReady = true)
      (inner : Passage true d .calls s s₁ a)
      (ending : Passage true d .calls { s₁ with bindings } s₂ b)
      (rest : Passage true d .telling s₂ s₃ t) : Passage true d .rebinding s s₃
        (a ++ .made s.pair s₁.pair bindings :: (b ++ .ended s₁.bindings :: t))
  | told {d s s₁ a} (blocked : Bool) (inner : Passage true true .calls s s₁ a) :
      Passage true d .telling s s₁ (.told s.phase d blocked :: a)

/-! ## Logbooks -/

namespace Happening

/-- The phase that is announced. -/
@[simp] def toldPhase : Happening σ → List Phase
  | told phase _ _ => [phase]
  | _ => []

/-- The phase that somebody is given. -/
@[simp] def givenPhase (listener : ConnectionId) : Happening σ → List Phase
  | given l phase => if l = listener then [phase] else []
  | _ => []

/-- The bindings that were made, and for which model and view. -/
@[simp] def making : Happening σ → List (Pair × List (Subscription σ))
  | made first _ bindings => [(first, bindings)]
  | _ => []

/-- The bindings that have come to an end. -/
@[simp] def ending : Happening σ → List (Subscription σ)
  | ended bindings => bindings
  | _ => []

/-- The phases that were announced. -/
def tolds (log : List (Happening σ)) : List Phase := log.flatMap toldPhase

/-- The phases that somebody was given. -/
def givens (listener : ConnectionId) (log : List (Happening σ)) : List Phase :=
  log.flatMap (givenPhase listener)

/-- All bindings that were made, and for which model and view. -/
def makings (log : List (Happening σ)) : List (Pair × List (Subscription σ)) :=
  log.flatMap making

/-- All bindings that have come to an end. -/
def endings (log : List (Happening σ)) : List (Subscription σ) := log.flatMap ending

/-- Whether a step of the lifecycle begins. -/
def isStep : Happening σ → Bool
  | turned .. | tried | closes => true
  | _ => false

/-- A controller comes to listen to a model that is bound, and another pair is not bound in the
    time that bindings are made. -/
@[simp] def IsFair : Happening σ → Prop
  | joined m bound => bound = some m
  | made first last _ => first = last
  | _ => True

/-- Another model or view is bound, but not while something else is being done. -/
@[simp] def IsOrderly : Happening σ → Prop
  | turned _ nested => nested = false
  | _ => True

/-- A phase is announced, but not while one is, or while the signal is blocked. -/
@[simp] def IsPrompt : Happening σ → Prop
  | told _ nested blocked => nested = false ∧ blocked = false
  | _ => True

/-- A phase is announced, but only while one is. -/
@[simp] def IsNested : Happening σ → Prop
  | told _ nested _ => nested = true
  | _ => True

/-- Everything that happens is as said. -/
def Each (P : Happening σ → Prop) (log : List (Happening σ)) : Prop := ∀ e ∈ log, P e

instance : DecidablePred (IsFair (σ := σ))
  | joined m bound => inferInstanceAs (Decidable (bound = some m))
  | made first last _ => inferInstanceAs (Decidable (first = last))
  | turned .. | tried | setUp _ | ended _ | closes | told .. | given .. => .isTrue trivial

instance : DecidablePred (IsOrderly (σ := σ))
  | turned _ nested => inferInstanceAs (Decidable (nested = false))
  | joined .. | tried | setUp _ | made .. | ended _ | closes | told .. | given .. => .isTrue trivial

instance : DecidablePred (IsPrompt (σ := σ))
  | told _ nested blocked => inferInstanceAs (Decidable (nested = false ∧ blocked = false))
  | turned .. | joined .. | tried | setUp _ | made .. | ended _ | closes | given .. =>
    .isTrue trivial

instance (P : Happening σ → Prop) [DecidablePred P] (log : List (Happening σ)) :
    Decidable (Each P log) :=
  inferInstanceAs (Decidable (∀ e ∈ log, P e))

section Logs

variable (e : Happening σ) (a b : List (Happening σ)) (listener : ConnectionId)

@[simp] theorem tolds_nil : tolds ([] : List (Happening σ)) = [] := rfl

@[simp] theorem tolds_cons : tolds (e :: a) = e.toldPhase ++ tolds a := rfl

@[simp] theorem tolds_append : tolds (a ++ b) = tolds a ++ tolds b := List.flatMap_append

@[simp] theorem givens_nil : givens listener ([] : List (Happening σ)) = [] := rfl

@[simp] theorem givens_cons :
    givens listener (e :: a) = e.givenPhase listener ++ givens listener a := rfl

@[simp] theorem givens_append :
    givens listener (a ++ b) = givens listener a ++ givens listener b := List.flatMap_append

@[simp] theorem makings_nil : makings ([] : List (Happening σ)) = [] := rfl

@[simp] theorem makings_cons : makings (e :: a) = e.making ++ makings a := rfl

@[simp] theorem makings_append : makings (a ++ b) = makings a ++ makings b := List.flatMap_append

@[simp] theorem endings_nil : endings ([] : List (Happening σ)) = [] := rfl

@[simp] theorem endings_cons : endings (e :: a) = e.ending ++ endings a := rfl

@[simp] theorem endings_append : endings (a ++ b) = endings a ++ endings b := List.flatMap_append

variable (P : Happening σ → Prop)

@[simp] theorem each_nil : Each P [] := fun _ member => by cases member

@[simp] theorem each_cons : Each P (e :: a) ↔ P e ∧ Each P a := List.forall_mem_cons

@[simp] theorem each_append : Each P (a ++ b) ↔ Each P a ∧ Each P b := List.forall_mem_append

/-- Setup is not tried again after it has succeeded. -/
def Lasting (log : List (Happening σ)) : Prop :=
  log.Pairwise fun e later => e = .setUp (.ok ()) → later ≠ .tried

@[simp] theorem lasting_nil : Lasting ([] : List (Happening σ)) := .nil

theorem lasting_cons :
    Lasting (e :: a) ↔ (e = .setUp (.ok ()) → .tried ∉ a) ∧ Lasting a := by
  refine List.pairwise_cons.trans (and_congr_left' ⟨fun h same member => ?_, ?_⟩)
  · exact h _ member same rfl
  · rintro h _ member same rfl
    exact h same member

theorem lasting_append : Lasting (a ++ b) ↔
    Lasting a ∧ Lasting b ∧ (.setUp (.ok ()) ∈ a → .tried ∉ b) := by
  refine List.pairwise_append.trans (and_congr_right' (and_congr_right' ⟨?_, ?_⟩))
  · exact fun h done again => h _ done _ again rfl rfl
  · rintro h _ done _ again rfl rfl
    exact h done again

end Logs

end Happening

namespace Passage

open Happening

variable {busy d : Bool} {part : Part} {s s' : Standing σ} {log : List (Happening σ)}

/-! ## Announcements -/

/-- What was announced last is the phase, or else nothing was and the phase is the same. -/
theorem last_told (passage : Passage busy d part s s' log) :
    (tolds log).getLast? = some s'.phase ∨
      part = .calls ∧ tolds log = [] ∧ s'.phase = s.phase := by
  induction passage with
  | idle => exact .inr ⟨rfl, rfl, rfl⟩
  | given => exact .inr ⟨rfl, rfl, rfl⟩
  | andThen _ _ first second =>
      rcases second with told | ⟨-, none, same⟩
      · exact .inl (by simp [told])
      · rcases first with told | ⟨-, none', same'⟩
        · exact .inl (by simp [none, told, same])
        · exact .inr ⟨rfl, by simp [none, none'], same.trans same'⟩
  | unbound _ _ _ rest | bound _ _ _ rest | faced _ _ _ rest | setUp _ _ _ _ rest
  | shut _ _ _ rest =>
      simp only [reduceCtorEq, false_and, or_false] at rest
      exact .inl (by simp [rest])
  | refused _ _ inner =>
      -- A setup that fails changes nothing, so what its own code announced still counts.
      rcases inner with told | ⟨-, none, same⟩
      · exact .inl (by simp [told])
      · exact .inr ⟨rfl, by simp [none], same⟩
  | unready _ _ rest => exact .inl (rest.resolve_right (by simp))
  | made _ _ _ _ _ _ rest =>
      simp only [reduceCtorEq, false_and, or_false] at rest
      exact .inl (by simp [rest])
  | told _ _ inner =>
      rcases inner with told | ⟨-, none, same⟩
      · exact .inl (by simp [List.getLast?_cons, told])
      · exact .inl (by simp [none, same])

/-- Nothing is announced unless a step of the lifecycle begins. -/
theorem tolds_eq_nil (passage : Passage busy d part s s' log) (calls : part = .calls)
    (still : Each (·.isStep = false) log) : tolds log = [] := by
  induction passage with
  | idle | given => rfl
  | andThen _ _ first second =>
      rw [each_append] at still
      simp [first rfl still.1, second rfl still.2]
  | unbound | bound | faced | refused | setUp | shut =>
      cases still _ List.mem_cons_self
  | unready | made | told => cases calls

/-- What is announced while the phase is being announced is nested. -/
theorem nested_of_telling (passage : Passage busy d part s s' log) (telling : d = true) :
    Each IsNested log := by
  induction passage with
  | idle | given => simp
  | andThen _ _ first second => exact (each_append ..).mpr ⟨first telling, second telling⟩
  | unbound _ _ inner rest | bound _ _ inner rest | faced _ _ inner rest
  | setUp _ _ _ inner rest | shut _ _ inner rest =>
      simpa using ⟨inner telling, rest telling⟩
  | refused _ _ inner => simpa using inner telling
  | unready _ _ rest => exact rest telling
  | made _ _ _ _ inner ending rest => simpa using ⟨inner telling, ending telling, rest telling⟩
  | told _ _ inner => simpa using ⟨telling, inner rfl⟩

/-! ## Other models and views -/

/-- In an orderly run the pair that is bound stays while something is being done. -/
theorem pair_eq_of_busy (passage : Passage busy d part s s' log) (during : busy = true)
    (orderly : Each IsOrderly log) : s'.pair = s.pair := by
  induction passage with
  | idle | given => rfl
  | unbound | bound | faced => simp [during] at orderly
  | andThen _ _ first second =>
      simp only [each_append] at orderly
      exact (second during orderly.2).trans (first during orderly.1)
  | setUp _ _ _ inner rest | shut _ _ inner rest =>
      simp only [each_cons, each_append, IsOrderly, true_and] at orderly
      exact (rest rfl orderly.2).trans (inner rfl orderly.1)
  | refused _ _ inner =>
      simp only [each_cons, each_append, IsOrderly, true_and] at orderly
      exact inner rfl orderly.1
  | unready _ _ rest => exact rest during orderly
  | made _ _ _ _ inner ending rest =>
      simp only [each_cons, each_append, IsOrderly, true_and] at orderly
      obtain ⟨first, second, third⟩ := orderly
      exact (rest rfl third).trans ((ending rfl second).trans (inner rfl first))
  | told _ _ inner =>
      simp only [each_cons, IsOrderly, true_and] at orderly
      exact inner rfl orderly

/-- In an orderly run nothing else is bound where it would not be fair. -/
theorem fair_of_orderly (passage : Passage busy d part s s' log)
    (orderly : Each IsOrderly log) : Each IsFair log := by
  induction passage with
  | idle | given => simp
  | andThen _ _ first second =>
      simp only [each_append] at orderly ⊢
      exact ⟨first orderly.1, second orderly.2⟩
  | unbound _ _ inner rest | faced _ _ inner rest =>
      simp only [each_cons, each_append, IsOrderly, IsFair, true_and] at orderly ⊢
      exact ⟨inner orderly.2.1, rest orderly.2.2⟩
  | setUp _ _ _ inner rest | shut _ _ inner rest =>
      simp only [each_cons, each_append, IsOrderly, IsFair, true_and] at orderly ⊢
      exact ⟨inner orderly.1, rest orderly.2⟩
  | bound passage _ inner rest =>
      simp only [each_cons, each_append, IsOrderly, IsFair, true_and] at orderly ⊢
      obtain ⟨-, first, second⟩ := orderly
      -- The model is still there when it is joined, since nothing is bound in between.
      refine ⟨inner first, ?_, rest second⟩
      rw [passage.pair_eq_of_busy rfl first]
      rfl
  | refused _ _ inner =>
      simp only [each_cons, each_append, IsOrderly, IsFair, true_and] at orderly ⊢
      exact ⟨inner orderly.1, each_nil _⟩
  | unready _ _ rest => exact rest orderly
  | made _ passage _ _ inner ending rest =>
      simp only [each_cons, each_append, IsOrderly, IsFair, true_and] at orderly ⊢
      obtain ⟨first, second, third⟩ := orderly
      exact ⟨inner first, (passage.pair_eq_of_busy rfl first).symm, ending second, rest third⟩
  | told _ _ inner =>
      simp only [each_cons, IsOrderly, IsFair, true_and] at orderly ⊢
      exact inner orderly

/-- A controller listens to the model that is bound, if all was fair. -/
theorem listening_eq (passage : Passage busy d part s s' log) (fair : Each IsFair log)
    (before : s.listening = s.pair.model) : s'.listening = s'.pair.model := by
  induction passage with
  | idle | given => exact before
  | andThen _ _ first second =>
      simp only [each_append] at fair
      exact second fair.2 (first fair.1 before)
  | unbound _ _ inner rest =>
      simp only [each_cons, each_append, IsFair, true_and] at fair
      exact rest fair.2 (inner fair.1 rfl)
  | bound inner _ _ rest =>
      simp only [each_cons, each_append, IsFair, true_and] at fair
      exact rest fair.2.2 fair.2.1.symm
  | faced _ _ inner rest | setUp _ _ _ inner rest | shut _ _ inner rest =>
      simp only [each_cons, each_append, IsFair, true_and] at fair
      exact rest fair.2 (inner fair.1 before)
  | refused _ _ inner =>
      simp only [each_cons, each_append, IsFair, true_and] at fair
      exact inner fair.1 before
  | unready _ _ rest => exact rest fair before
  | made _ _ _ _ inner ending rest =>
      simp only [each_cons, each_append, IsFair, true_and] at fair
      obtain ⟨first, -, second, third⟩ := fair
      exact rest third (ending second (inner first before))
  | told _ _ inner =>
      simp only [each_cons, IsFair, true_and] at fair
      exact inner fair before

/-! ## Setup -/

/-- A setup that succeeds stays. -/
theorem initialized_iff (passage : Passage busy d part s s' log) :
    s'.initialized = true ↔ s.initialized = true ∨ .setUp (.ok ()) ∈ log := by
  induction passage with
  | idle | given => simp
  | andThen _ _ first second => simp [first, second, or_assoc]
  | unbound _ _ inner rest | bound _ _ inner rest | faced _ _ inner rest =>
      simp [inner, rest, or_assoc, Standing.withModel, Standing.withView]
  | setUp _ _ _ inner rest => simp [rest]
  | shut _ _ inner rest => simp [inner, rest, or_assoc]
  | refused _ _ inner => simp [inner]
  | unready _ _ rest => exact rest
  | made _ _ _ _ inner ending rest => simp [inner, ending, rest, or_assoc]
  | told _ _ inner => simp [inner]

/-- What is set up is not set up again. -/
theorem not_tried (passage : Passage busy d part s s' log) (done : s.initialized = true) :
    .tried ∉ log := by
  induction passage with
  | idle | given => simp
  | andThen first _ ih ih' => simp [ih done, ih' (first.initialized_iff.mpr (.inl done))]
  | unbound inner _ ih ih' | bound inner _ ih ih' | faced inner _ ih ih' | shut inner _ ih ih' =>
      simp [ih done, ih' (inner.initialized_iff.mpr (.inl done))]
  | setUp new | refused new => simp [done] at new
  | unready _ _ rest => exact rest done
  | made _ inner ending _ ih ih' ih'' =>
      have first := inner.initialized_iff.mpr (.inl done)
      simp [ih done, ih' first, ih'' (ending.initialized_iff.mpr (.inl first))]
  | told _ _ inner => simp [inner done]

/-- What was set up in one passage is not set up in one that follows. -/
theorem not_tried_of_setUp {busy' d' : Bool} {part' : Part} {s₂ s₃ : Standing σ}
    {a b : List (Happening σ)} (first : Passage busy d part s s' a)
    (second : Passage busy' d' part' s₂ s₃ b)
    (kept : s'.initialized = true → s₂.initialized = true)
    (done : .setUp (.ok ()) ∈ a) : .tried ∉ b :=
  second.not_tried (kept (first.initialized_iff.mpr (.inr done)))

/-- Setup is not tried again after it has succeeded. -/
theorem lasting (passage : Passage busy d part s s' log) : Lasting log := by
  induction passage with
  | idle | given => simp [lasting_cons]
  | andThen first second ih ih' =>
      exact (lasting_append ..).mpr ⟨ih, ih', first.not_tried_of_setUp second id⟩
  | unbound inner rest ih ih' | faced inner rest ih ih' | bound inner rest ih ih'
  | shut inner rest ih ih' =>
      simpa [lasting_cons, lasting_append, ih, ih'] using inner.not_tried_of_setUp rest
  | setUp _ _ rest ih ih' => simp [lasting_cons, lasting_append, ih, ih', rest.not_tried rfl]
  | refused _ _ ih => simp [lasting_cons, lasting_append, ih]
  | unready _ _ ih => exact ih
  | made _ inner ending rest ih ih' ih'' =>
      have later := inner.not_tried_of_setUp ending id
      have last := inner.not_tried_of_setUp rest fun done => ending.initialized_iff.mpr (.inl done)
      simp only [lasting_cons, lasting_append, ih, ih', ih'', reduceCtorEq, List.mem_cons,
        List.mem_append, false_or, not_or, true_and, false_implies]
      exact ⟨ending.not_tried_of_setUp rest id, fun done => ⟨later done, last done⟩⟩
  | told _ _ ih => simp [lasting_cons, ih]

/-! ## Bindings -/

/-- Whatever was made or there before has come to an end or is still there. -/
theorem balance (passage : Passage busy d part s s' log) :
    (endings log ++ s'.bindings).Perm (s.bindings ++ (makings log).flatMap (·.2)) := by
  classical
  -- Counted, since client code may return one subscription twice.
  refine List.perm_iff_count.mpr fun x => ?_
  induction passage with
  | idle | given => simp
  | andThen _ _ first second =>
      simp only [endings_append, makings_append, List.flatMap_append, List.count_append] at *
      omega
  | unbound _ _ inner rest | bound _ _ inner rest | faced _ _ inner rest =>
      simp [Standing.withModel, Standing.withView, List.count_append] at inner rest ⊢
      omega
  | setUp _ _ _ inner rest | shut _ _ inner rest =>
      simp [List.count_append] at inner rest ⊢
      omega
  | refused _ _ inner => simpa using inner
  | unready _ _ rest => exact rest
  | made _ _ _ _ inner ending rest =>
      simp [List.count_append] at inner ending rest ⊢
      omega
  | told _ _ inner => exact inner

/-- Which bindings are held after a passage. -/
structure Held (part : Part) (s s' : Standing σ) (log : List (Happening σ)) : Prop where
  /-- None, unless there is everything for them. -/
  none : s'.isReady = false → s'.bindings = []
  /-- Those that were made last, and for the pair that is bound, or else the same as before. -/
  last : s'.isReady = true → (∃ earlier, makings log = earlier ++ [(s'.pair, s'.bindings)]) ∨
    part ≠ .rebinding ∧ makings log = [] ∧ s.isReady = true ∧ s'.pair = s.pair ∧
      s'.bindings = s.bindings

namespace Held

variable {s₁ : Standing σ} {a b : List (Happening σ)}

theorem of_rebinding (rest : Held .rebinding s₁ s' b)
    (made : makings log = makings a ++ makings b) : Held part s s' log := by
  refine ⟨rest.none, fun ready => ?_⟩
  obtain ⟨earlier, last⟩ := (rest.last ready).resolve_right fun same => same.1 rfl
  exact .inl ⟨makings a ++ earlier, by rw [made, last, List.append_assoc]⟩

theorem trans (first : Held .calls s s₁ a) (second : Held part s₁ s' b)
    (made : makings log = makings a ++ makings b) : Held .calls s s' log := by
  refine ⟨second.none, fun ready => ?_⟩
  rcases second.last ready with ⟨earlier, last⟩ | ⟨-, none, ready₁, pair, bindings⟩
  · exact .inl ⟨makings a ++ earlier, by rw [made, last, List.append_assoc]⟩
  · rw [made, none, List.append_nil, pair, bindings]
    exact (first.last ready₁).imp_right fun same => ⟨by simp, same.2⟩

end Held

/-- Bindings are only held while there is everything for them. They were made last then, and for
    the model and view that are bound. -/
theorem held (passage : Passage busy d part s s' log) (fair : Each IsFair log)
    (before : s.isReady = false → s.bindings = []) : Held part s s' log := by
  induction passage with
  | idle | given => exact ⟨before, fun ready => .inr ⟨by simp, rfl, ready, rfl, rfl⟩⟩
  | andThen _ _ first second =>
      simp only [each_append] at fair
      have held := first fair.1 before
      exact held.trans (second fair.2 held.none) (makings_append ..)
  | unbound _ _ inner rest | faced _ _ inner rest =>
      simp only [each_cons, each_append, IsFair, true_and] at fair
      have held := inner fair.1 fun _ => rfl
      exact (rest fair.2 held.none).of_rebinding (by simp; rfl)
  | bound _ _ inner rest =>
      simp only [each_cons, each_append, IsFair, true_and] at fair
      have held := inner fair.1 fun _ => rfl
      exact (rest fair.2.2 held.none).of_rebinding (by simp; rfl)
  | @setUp _ _ _ s₁ _ a b _ _ _ inner rest =>
      simp only [each_cons, each_append, IsFair, true_and] at fair
      have held := inner fair.1 before
      -- What lacks a model or a view now lacked it before the setup succeeded.
      refine (rest fair.2 fun unready => held.none ?_).of_rebinding (a := a) (by simp)
      simp only [Standing.isReady, Bool.true_and] at unready ⊢
      rw [Bool.and_assoc, unready, Bool.and_false]
  | @shut _ _ _ s₁ _ a b _ _ inner rest =>
      simp only [each_cons, each_append, IsFair, true_and] at fair
      have held := inner fair.1 before
      have closed := rest fair.2 held.none
      have told : Held .telling s₁ _ b := ⟨closed.none, closed.last⟩
      exact held.trans told (by simp)
  | refused _ _ inner =>
      simp only [each_cons, each_append, IsFair, true_and] at fair
      have held := inner fair.1 before
      exact ⟨held.none, by simpa using held.last⟩
  | unready unready _ rest =>
      have held := rest fair before
      refine ⟨held.none, fun ready => .inl ((held.last ready).resolve_right ?_)⟩
      rintro ⟨-, -, ready, -⟩
      simp [unready] at ready
  | @made _ s₀ s₁ s₂ s₃ a b t bindings ready inner _ _ ih ih' ih'' =>
      simp only [each_cons, each_append, IsFair, true_and] at fair
      obtain ⟨first, same, second, third⟩ := fair
      -- By fairness the pair is the same when the new bindings take the place of others, so there
      -- is everything for them.
      have ready₁ : s₁.isReady = true := by
        simp only [Standing.isReady, ← same, Bool.and_eq_true] at ready ⊢
        exact ⟨⟨inner.initialized_iff.mpr (.inl ready.1.1), ready.1.2⟩, ready.2⟩
      have held := ih' second fun unready => by cases ready₁.symm.trans unready
      have held' : Held .calls { s₁ with bindings } s₃ (b ++ t) :=
        held.trans (ih'' third held.none) (makings_append ..)
      refine ⟨held'.none, fun ready₃ => .inl ?_⟩
      -- Others may have been made while the old ones ended, or while the phase was announced.
      rcases held'.last ready₃ with ⟨earlier, last⟩ | ⟨-, none, -, pair, kept⟩
      · refine ⟨makings a ++ (s₀.pair, bindings) :: earlier, ?_⟩
        rw [makings_append] at last
        simp [last]
      · refine ⟨makings a, ?_⟩
        rw [makings_append, List.append_eq_nil_iff] at none
        simp [none, pair, kept, same]
  | told _ _ inner =>
      simp only [each_cons, IsFair, true_and] at fair
      have held := inner fair before
      refine ⟨held.none, fun ready => (held.last ready).imp_right ?_⟩
      exact fun same => ⟨by simp, same.2⟩

end Passage

end Mvc
