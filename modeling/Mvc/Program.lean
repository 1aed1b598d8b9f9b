/-! # Procedures and programs

A procedure changes a state of type `ω` and has a result; it has none when it needs deeper
nesting than it was granted. A program is what client code is made of: it looks at the whole
state, performs actions of a public interface, and decides by what it sees and by the
results how it goes on. Every program is finite; what its actions set off may not be.
-/

namespace Mvc

/-- A change of state with a result, or none if it nests too deep. -/
abbrev Proc (ω α : Type) := StateT ω Option α

/-- The procedure that has no result. -/
def Proc.tooDeep {ω α : Type} : Proc ω α := fun _ => none

/-- Client code over states `ω` and actions `α`, where an action `a` has a result of type
    `R a`; the code itself has a result of type `ρ`. -/
inductive Program (ω : Type) {α : Type} (R : α → Type) (ρ : Type) where
  /-- The end. -/
  | done (result : ρ)
  /-- Look at the state. -/
  | look (next : ω → Program ω R ρ)
  /-- Perform an action. -/
  | act (action : α) (next : R action → Program ω R ρ)

namespace Program

variable {ω α : Type} {R : α → Type} {ρ τ : Type}

/-- One program after another. -/
def bind : Program ω R ρ → (ρ → Program ω R τ) → Program ω R τ
  | done r, f => f r
  | look next, f => look fun w => bind (next w) f
  | act a next, f => act a fun r => bind (next r) f

instance : Monad (Program ω R) where
  pure := done
  bind := bind

/-- The program that performs one action. -/
def perform (a : α) : Program ω R (R a) := act a done

/-- The program that reads something off the state. -/
def see (f : ω → ρ) : Program ω R ρ := look fun w => done (f w)

/-- Run a program, given how actions are performed. -/
def run (step : (a : α) → Proc ω (R a)) : Program ω R ρ → Proc ω ρ
  | done r => pure r
  | look next => do run step (next (← get))
  | act a next => do run step (next (← step a))

/-- All actions that a program may ever perform satisfy a property. -/
def All (P : α → Prop) : Program ω R ρ → Prop
  | done _ => True
  | look next => ∀ w, All P (next w)
  | act a next => P a ∧ ∀ r, All P (next r)

end Program

end Mvc
