import Mvc.Proofs.Bystanders
import Mvc.Proofs.Notes

/-! # What all client code does

A behaviour obeys a rule if all of its code performs only actions that the rule allows. It does
so beside notes, too. What the allowed actions keep, its code keeps, wherever it is called.
-/

namespace Mvc

variable {σ ε : Type}

/-- Everything that a program performs beside notes it performs without them. -/
theorem Program.all_beside {ρ ν : Type} {P : Action σ ε → Prop} {code : Client σ ε ρ}
    (all : code.All P) : (code.beside ν).All fun a' => ∃ a, P a ∧ a' = a.beside ν := by
  induction code with
  | done r => trivial
  | look next ih => exact fun w => ih w.bare (all w.bare)
  | act a next ih => exact ⟨⟨a, all.1, rfl⟩, fun r => ih (a.result r) (all.2 (a.result r))⟩

/-- All client code performs only actions of some kind. -/
structure Behaviour.Obeys (β : Behaviour σ ε) (P : Action σ ε → Prop) : Prop where
  accepts : ∀ m name value, (β.accepts m name value).All P
  afterSet : ∀ m name old new, (β.afterSet m name old new).All P
  populate : ∀ m, (β.populate m).All P
  setup : ∀ c, (β.setup c).All P
  connect : ∀ c, (β.connect c).All P
  handles : ∀ c name data, (β.handles c name data).All P
  derive : ∀ c, (β.derive c).All P
  dataChanged : ∀ c, (β.dataChanged c).All P
  updateRequested : ∀ c, (β.updateRequested c).All P
  closing : ∀ c, (β.closing c).All P
  viewSetup : ∀ v, (β.viewSetup v).All P
  display : ∀ v, (β.display v).All P
  showError : ∀ v message, (β.showError v message).All P
  showInfo : ∀ v message, (β.showInfo v message).All P
  slot : ∀ code notice, (β.slot code notice).All P
  job : ∀ code, (β.job code).All P

namespace Behaviour.Obeys

variable {β : Behaviour σ ε} {P : Action σ ε → Prop}

theorem beside (obeys : β.Obeys P) (ν : Type) :
    (β.beside ν).Obeys fun a' => ∃ a, P a ∧ a' = a.beside ν where
  accepts m name value := Program.all_beside (obeys.accepts m name value)
  afterSet m name old new := Program.all_beside (obeys.afterSet m name old new)
  populate m := Program.all_beside (obeys.populate m)
  setup c := Program.all_beside (obeys.setup c)
  connect c := Program.all_beside (obeys.connect c)
  handles c name data := Program.all_beside (obeys.handles c name data)
  derive c := Program.all_beside (obeys.derive c)
  dataChanged c := Program.all_beside (obeys.dataChanged c)
  updateRequested c := Program.all_beside (obeys.updateRequested c)
  closing c := Program.all_beside (obeys.closing c)
  viewSetup v := Program.all_beside (obeys.viewSetup v)
  display v := Program.all_beside (obeys.display v)
  showError v message := Program.all_beside (obeys.showError v message)
  showInfo v message := Program.all_beside (obeys.showInfo v message)
  slot code notice := Program.all_beside (obeys.slot code notice)
  job code := Program.all_beside (obeys.job code)

/-- The code keeps what the allowed actions keep. -/
theorem hooked (obeys : β.Obeys P) {R : Ensemble σ ε → Ensemble σ ε → Prop} {run : Runner σ ε}
    (client : ∀ {ρ : Type} {code : Client σ ε ρ}, code.All P → Proc.Keeps R (run.client code)) :
    Ensemble.Hooked R β run where
  accepts m name value := client (obeys.accepts m name value)
  afterSet m name old new := client (obeys.afterSet m name old new)
  populate m := client (obeys.populate m)
  setup c := client (obeys.setup c)
  connect c := client (obeys.connect c)
  handles _ c name data := client (obeys.handles c name data)
  derive c := client (obeys.derive c)
  dataChanged c := client (obeys.dataChanged c)
  updateRequested c := client (obeys.updateRequested c)
  closing c := client (obeys.closing c)
  viewSetup v := client (obeys.viewSetup v)
  display v := client (obeys.display v)
  showError v message := client (obeys.showError v message)
  showInfo v message := client (obeys.showInfo v message)
  slot code notice := client (obeys.slot code notice)
  job code := client (obeys.job code)

end Behaviour.Obeys

end Mvc
