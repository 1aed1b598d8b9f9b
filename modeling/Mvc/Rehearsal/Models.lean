import Mvc.Rehearsal.ModelScript
import Mvc.Store.Dump

/-! # Rehearsing one model

One model, alone or only its store, with listeners that write down what its signals carry.
On a bare store a further listener writes more properties when one has changed.
-/

namespace Mvc.Rehearsal.Models

/-- The listeners. -/
inductive Code where
  /-- Writes down what it hears. -/
  | recorder
  /-- Writes further properties. -/
  | follower

/-- The client state. -/
structure State where
  /-- Why the defaults cannot be determined now. -/
  failure : Option ModelError
  /-- What was noticed. -/
  log : List ModelEvent

/-- The steps. -/
inductive Step where
  /-- Fill the model with its defaults, for the first time or again. -/
  | populate (again : Bool)
  /-- Write through the model. -/
  | set (name : String) (value : Value)
  /-- Write to the store, with the hooks or without. -/
  | write (hooked : Bool) (background : Bool) (name : String) (value : Value)
  | setSilently (name : String) (value : Value)
  | replaceAll (pairs : List (String × Value))
  | get (name : String)
  | kind (name : String)
  | has (name : String)
  | names
  | size
  | clear
  | snapshot
  | dump (options : DumpOptions)
  | describeStore
  | describeModel
  | block (properties : Bool) (blocked : Bool)
  | setFailure (failure : Option ModelError)

/-- The code of model rehearsals. -/
abbrev Program (ρ : Type) := Client Code State ρ

/-- Write down an event. -/
def note (e : ModelEvent) : Program Unit :=
  .perform (Action.change fun s => { s with log := s.log ++ [e] })

/-- What to rehearse. -/
structure Setting where
  /-- The model's hooks; without a script it has none. -/
  script : Option ModelScript
  /-- Whether only the store is used. -/
  bare : Bool
  /-- What the follower writes after a property changed. -/
  reactions : List (String × List (String × Value))

/-- The client code of a setting. -/
def behaviour (setting : Setting) : Behaviour Code State :=
  let plain := Behaviour.plain
  { plain with
    accepts := fun m name value =>
      match setting.script with
      | some script => script.accepts note name value
      | none => plain.accepts m name value
    afterSet := fun m name old new =>
      match setting.script with
      | some script => script.afterSet note m setting.bare name old new
      | none => plain.afterSet m name old new
    populate := fun m =>
      match setting.script with
      | some script => do
        let failure ← Program.see fun w : Ensemble Code State => w.client.failure
        script.populate note m failure
      | none => plain.populate m
    validates := fun _ store => setting.script.all fun script => script.validates store
    slot := fun code notice =>
      match code, notice with
      | .recorder, .property name value => note (.property name value)
      | .recorder, .dataChanged => note .data
      | .recorder, .validity isValid => note (.validity isValid)
      | .follower, .property name _ => writeAll 0 true ((setting.reactions.lookup name).getD [])
      | _, _ => pure () }

/-- Connect the listeners. -/
def arrange (setting : Setting) : Program Unit := do
  let listen (signal : SignalRef) (code : Code) : Program Unit := do
    let _ ← Program.perform (Action.connect signal (.client code) .direct)
  listen (.modelProperty 0) .recorder
  listen (.modelData 0) .recorder
  if setting.bare then listen (.modelProperty 0) .follower else listen (.modelValidity 0) .recorder

/-- The report of filling a model with its defaults. -/
def unitReport : Except ModelError Unit → Report := .attempt ModelError.kind ModelError.message

/-- See something of the model. -/
def see (f : Model Code → Report) : Program Report := Program.see fun w => f (w.model 0)

/-- What a step does. -/
def Step.perform : Step → Program Report
  | .populate again => do
    if again then
      let r ← Program.perform (Action.resetModel 0)
      return unitReport r
    else
      let r ← Program.perform (Action.initializeModel 0)
      return unitReport r
  | .set name value => do
    let outcome ← Program.perform (Action.setProperty 0 name value)
    return outcome.report
  | .write hooked background name value => do
    if background then
      let outcome ← Program.perform (Action.inBackground (.write 0 hooked name value))
      return outcome.report
    else
      let outcome ← Program.perform (Action.write 0 hooked name value)
      return outcome.report
  | .setSilently name value => do
    Program.perform (Action.setSilently 0 name value)
    return .nothing
  | .replaceAll pairs => do
    Program.perform (Action.replaceAll 0 pairs)
    return .nothing
  | .get name => see fun o => .value (o.store.get name)
  | .kind name =>
    see fun o => .option (fun v : Value => .text v.kind.name) (o.store.values.get? name)
  | .has name => see fun o => .flag (o.store.has name)
  | .names => see fun o => .texts o.store.names
  | .size => see fun o => .group [.number o.store.size, .flag o.store.values.isEmpty]
  | .clear => do
    Program.perform (Action.clear 0)
    return .nothing
  | .snapshot => see fun o => .properties o.store.values.entries
  | .dump options => see fun o => .option .text (o.store.dump? options)
  | .describeStore => see fun o => .text o.store.diagnostic
  | .describeModel => see fun o => .text o.diagnostic
  | .block properties blocked => do
    Program.perform
      (Action.block (if properties then .modelProperty 0 else .modelData 0) blocked)
    return .nothing
  | .setFailure failure => do
    Program.perform (Action.change fun s => { s with failure })
    return .nothing

/-- The state of a model: its name, and whether it is initialized and valid. -/
def standing (β : Behaviour Code State) (w : Ensemble Code State) : Report :=
  let o := w.model 0
  .group [.text o.stateName, .flag o.initialized, .flag (Ensemble.isModelValid β w 0)]

/-- The rehearsal of one model. -/
def stage (setting : Setting) : Stage Code State ModelEvent Step where
  behaviour := behaviour setting
  perform := Step.perform
  collect s := (s.log, { s with log := [] })
  standing := standing (behaviour setting)

/-- Rehearse one model. -/
def rehearse (setting : Setting) (steps : List Step) : Option (List (StepResult ModelEvent)) := do
  let state : State := ⟨setting.script.bind (·.failure), []⟩
  let ((), w) ← Ensemble.runClient (behaviour setting) depth (arrange setting) (.new state)
  play (stage setting) steps w

end Mvc.Rehearsal.Models
