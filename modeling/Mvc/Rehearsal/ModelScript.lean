import Mvc.Rehearsal.Basic
import Mvc.Value.Text

/-! # Scripted models

A scripted model says what it does, takes only some values, follows changes by further
writes, and may fail to determine its defaults.
-/

namespace Mvc.Rehearsal

/-- Which values a property takes. -/
inductive Condition where
  /-- Those of one kind. -/
  | kind (name : String)
  /-- Some values. -/
  | oneOf (values : List Value)
  /-- Integers from a bound on. -/
  | atLeast (bound : Int)
  /-- None. -/
  | never

/-- Whether a value satisfies a condition. -/
def Condition.holds (v : Value) : Condition → Bool
  | kind name => v.kind.name = name
  | oneOf values => values.any fun x => x == v
  | atLeast bound => v.asInteger?.any fun i => decide (bound ≤ i.toInt)
  | never => false

/-- What a scripted model does. -/
structure ModelScript where
  /-- Conditions of some properties; the others take every value. -/
  allow : List (String × Condition)
  /-- What is written after a property changed. -/
  onAfter : List (String × List (String × Value))
  /-- The defaults. -/
  defaults : List (String × Value)
  /-- The properties that must have some text. -/
  nonempty : List String
  /-- Why the defaults cannot be determined at first. -/
  failure : Option ModelError

/-- What a model is noticed doing. -/
inductive ModelEvent where
  | before (name : String) (value : Value) (accepted : Bool)
  | after (name : String) (old new : Value)
  | populate (isInitialized isValid : Bool)
  | property (name : String) (value : Value)
  | data
  | validity (isValid : Bool)

/-- Whether a scripted model's properties make sense. -/
def ModelScript.validates (script : ModelScript) (store : Store) : Bool :=
  script.nonempty.all fun name => (store.get name).lossyText != ""

variable {σ ε : Type}

/-- Write values one after another, through the model or to its bare store. -/
def writeAll (m : Nat) (bare : Bool) : List (String × Value) → Client σ ε Unit
  | [] => pure ()
  | (name, value) :: rest => do
    if bare then
      let _ ← Program.perform (Action.write (σ := σ) (ε := ε) m false name value)
    else
      let _ ← Program.perform (Action.setProperty (σ := σ) (ε := ε) m name value)
    writeAll m bare rest

/-- A scripted model's check of a value. -/
def ModelScript.accepts (script : ModelScript) (note : ModelEvent → Client σ ε Unit)
    (name : String) (value : Value) : Client σ ε Bool := do
  let accepted := (script.allow.lookup name).all fun c => c.holds value
  note (.before name value accepted)
  return accepted

/-- A scripted model's reaction to a change. -/
def ModelScript.afterSet (script : ModelScript) (note : ModelEvent → Client σ ε Unit)
    (m : Nat) (bare : Bool) (name : String) (old new : Value) : Client σ ε Unit := do
  note (.after name old new)
  writeAll m bare ((script.onAfter.lookup name).getD [])

/-- A scripted model's defaults, or why it has none now. -/
def ModelScript.populate (script : ModelScript) (note : ModelEvent → Client σ ε Unit) (m : Nat)
    (failure : Option ModelError) : Client σ ε (Except ModelError (List (String × Value))) := do
  let event ← Program.see fun w : Ensemble σ ε =>
    let isInitialized := (w.model m).initialized
    ModelEvent.populate isInitialized (isInitialized && script.validates (w.model m).store)
  note event
  match failure with
  | some e => return .error e
  | none => return .ok script.defaults

end Mvc.Rehearsal
