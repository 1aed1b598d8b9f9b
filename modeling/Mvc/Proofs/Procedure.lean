import Mvc.Program

/-! # What procedures do to a state

A procedure may have no result, so most that is said about it is said about the results that
it has. `Ends` looks at one state, `Keeps` relates the states before and after, and `Tracks`
compares two procedures: the second ends as the first does whenever the first does. With the
relation that always holds, `Tracks` says that the second has every result of the first.
`Reaches` says that there is a result, too.
-/

namespace Mvc.Proc

variable {ω α γ : Type} {R : ω → ω → Prop}

/-- However the procedure ends from a state, it ends as said. -/
def Ends (p : Proc ω α) (w : ω) (post : α → ω → Prop) : Prop :=
  ∀ r w', p w = some (r, w') → post r w'

/-- The procedure ends from a state, and it ends as said. -/
def Reaches (p : Proc ω α) (w : ω) (post : α → ω → Prop) : Prop :=
  ∃ r w', p w = some (r, w') ∧ post r w'

/-- The states before and after are related. -/
def Keeps (R : ω → ω → Prop) (p : Proc ω α) : Prop :=
  ∀ w, Ends p w fun _ w' => R w w'

/-- From a state, the second procedure ends as the first does, and the states before and
    after are related. -/
def TracksAt (R : ω → ω → Prop) (p q : Proc ω α) (w : ω) : Prop :=
  ∀ r w', p w = some (r, w') → q w = some (r, w') ∧ R w w'

/-- From every state. -/
def Tracks (R : ω → ω → Prop) (p q : Proc ω α) : Prop := ∀ w, TracksAt R p q w

/-- A relation that holds of what stays the same and of what happens one after another. -/
structure Composes (R : ω → ω → Prop) : Prop where
  refl : ∀ w, R w w
  trans : ∀ {a b c}, R a b → R b c → R a c

theorem tracks_self (p : Proc ω α) : Tracks R p p ↔ Keeps R p := by
  constructor
  · intro tracks w r w' h
    exact (tracks w r w' h).2
  · intro keeps w r w' h
    exact ⟨h, keeps w r w' h⟩

theorem bind_eq_some {p : Proc ω α} {f : α → Proc ω γ} {w : ω} {x : γ × ω} :
    (p >>= f) w = some x ↔ ∃ a w₁, p w = some (a, w₁) ∧ f a w₁ = some x := by
  show (p w).bind (fun y => f y.1 y.2) = some x ↔ _
  rw [Option.bind_eq_some_iff]
  constructor
  · rintro ⟨⟨a, w₁⟩, ha, hx⟩
    exact ⟨a, w₁, ha, hx⟩
  · rintro ⟨a, w₁, ha, hx⟩
    exact ⟨(a, w₁), ha, hx⟩

theorem bind_eq_of_eq {p : Proc ω α} {f : α → Proc ω γ} {w w₁ : ω} {a : α}
    (h : p w = some (a, w₁)) : (p >>= f) w = f a w₁ := by
  show (p w).bind (fun y => f y.1 y.2) = _
  rw [h]
  rfl

theorem get_bind (f : ω → Proc ω α) (w : ω) : ((get : Proc ω ω) >>= f) w = f w w := rfl

theorem modify_bind (g : ω → ω) (f : Unit → Proc ω α) (w : ω) :
    ((modify g : Proc ω Unit) >>= f) w = f () (g w) := rfl

/-! ## Ending -/

theorem ends_pure (a : α) (w : ω) (post : α → ω → Prop) :
    Ends (pure a) w post ↔ post a w := by
  constructor
  · intro h
    exact h a w rfl
  · intro h r w' same
    cases same
    exact h

theorem ends_bind (p : Proc ω α) (f : α → Proc ω γ) (w : ω) (post : γ → ω → Prop) :
    Ends (p >>= f) w post ↔ Ends p w fun a w₁ => Ends (f a) w₁ post := by
  constructor
  · intro h a w₁ ha r w' hr
    exact h r w' (bind_eq_some.mpr ⟨a, w₁, ha, hr⟩)
  · intro h r w' hr
    obtain ⟨a, w₁, ha, rest⟩ := bind_eq_some.mp hr
    exact h a w₁ ha r w' rest

theorem ends_of_eq {p : Proc ω α} {w w' : ω} {a : α} {post : α → ω → Prop}
    (h : p w = some (a, w')) : Ends p w post ↔ post a w' := by
  constructor
  · intro ends
    exact ends a w' h
  · intro holds r w₁ same
    rw [h] at same
    cases same
    exact holds

theorem ends_get (w : ω) (post : ω → ω → Prop) :
    Ends (get : Proc ω ω) w post ↔ post w w := ends_of_eq rfl

theorem ends_modify (f : ω → ω) (w : ω) (post : Unit → ω → Prop) :
    Ends (modify f : Proc ω Unit) w post ↔ post () (f w) := ends_of_eq rfl

theorem Ends.bind {p : Proc ω α} {f : α → Proc ω γ} {w : ω} {post : γ → ω → Prop}
    (first : Ends p w fun a w₁ => Ends (f a) w₁ post) : Ends (p >>= f) w post :=
  (ends_bind p f w post).mpr first

theorem Ends.bind_of_eq {p : Proc ω α} {f : α → Proc ω γ} {w w' : ω} {a : α}
    {post : γ → ω → Prop} (h : p w = some (a, w')) (rest : Ends (f a) w' post) :
    Ends (p >>= f) w post :=
  .bind ((ends_of_eq h).mpr rest)

theorem Ends.get_bind {f : ω → Proc ω γ} {w : ω} {post : γ → ω → Prop}
    (rest : Ends (f w) w post) : Ends (get >>= f) w post :=
  .bind_of_eq rfl rest

theorem Ends.modify_bind {g : ω → ω} {f : Unit → Proc ω γ} {w : ω} {post : γ → ω → Prop}
    (rest : Ends (f ()) (g w) post) : Ends (modify g >>= f) w post :=
  .bind_of_eq rfl rest

theorem Ends.mono {p : Proc ω α} {w : ω} {post post' : α → ω → Prop} (h : Ends p w post)
    (imp : ∀ r w', post r w' → post' r w') : Ends p w post' :=
  fun r w' same => imp r w' (h r w' same)

theorem Ends.and {p : Proc ω α} {w : ω} {post post' : α → ω → Prop} (h : Ends p w post)
    (h' : Ends p w post') : Ends p w fun r w' => post r w' ∧ post' r w' :=
  fun r w' same => ⟨h r w' same, h' r w' same⟩

/-! ## Reaching -/

theorem reaches_pure {a : α} {w : ω} {post : α → ω → Prop} (h : post a w) :
    Reaches (pure a) w post :=
  ⟨a, w, rfl, h⟩

theorem reaches_of_eq {p : Proc ω α} {w w' : ω} {a : α} {post : α → ω → Prop}
    (h : p w = some (a, w')) (holds : post a w') : Reaches p w post :=
  ⟨a, w', h, holds⟩

theorem Reaches.bind {p : Proc ω α} {f : α → Proc ω γ} {w : ω} {mid : α → ω → Prop}
    {post : γ → ω → Prop} (first : Reaches p w mid)
    (rest : ∀ a w₁, mid a w₁ → Reaches (f a) w₁ post) : Reaches (p >>= f) w post := by
  obtain ⟨a, w₁, h, holds⟩ := first
  obtain ⟨r, w', h', holds'⟩ := rest a w₁ holds
  exact ⟨r, w', (bind_eq_of_eq h).trans h', holds'⟩

theorem reaches_get {f : ω → Proc ω α} {w : ω} {post : α → ω → Prop}
    (rest : Reaches (f w) w post) : Reaches (get >>= f) w post := rest

theorem reaches_modify {g : ω → ω} {f : Unit → Proc ω α} {w : ω} {post : α → ω → Prop}
    (rest : Reaches (f ()) (g w) post) : Reaches (modify g >>= f) w post := rest

theorem Reaches.mono {p : Proc ω α} {w : ω} {post post' : α → ω → Prop} (h : Reaches p w post)
    (imp : ∀ r w', post r w' → post' r w') : Reaches p w post' := by
  obtain ⟨r, w', same, holds⟩ := h
  exact ⟨r, w', same, imp r w' holds⟩

/-! ## Tracking -/

theorem Tracks.keeps {p q : Proc ω α} (tracks : Tracks R p q) : Keeps R p :=
  fun w r w' h => (tracks w r w' h).2

theorem Tracks.anyhow {p q : Proc ω α} (tracks : Tracks R p q) :
    Tracks (fun _ _ => True) p q :=
  fun w r w' h => ⟨(tracks w r w' h).1, trivial⟩

theorem Tracks.keeping {S : ω → ω → Prop} {p q : Proc ω α} (tracks : Tracks S p q)
    (keeps : Keeps R p) : Tracks R p q :=
  fun w r w' h => ⟨(tracks w r w' h).1, keeps w r w' h⟩

theorem Tracks.pure (order : Composes R) (a : α) : Tracks R (pure a) (pure a) := by
  intro w r w' h
  cases h
  exact ⟨rfl, order.refl w⟩

theorem Tracks.get (order : Composes R) : Tracks R (get : Proc ω ω) get := by
  intro w r w' h
  cases h
  exact ⟨rfl, order.refl w⟩

theorem Tracks.modify {f : ω → ω} (related : ∀ w, R w (f w)) :
    Tracks R (modify f : Proc ω Unit) (modify f) := by
  intro w r w' h
  cases h
  exact ⟨rfl, related w⟩

theorem Tracks.bind (order : Composes R) {p q : Proc ω α}
    {f g : α → Proc ω γ} (first : Tracks R p q) (rest : ∀ a, Tracks R (f a) (g a)) :
    Tracks R (p >>= f) (q >>= g) := by
  intro w r w' h
  obtain ⟨a, w₁, ha, hr⟩ := bind_eq_some.mp h
  obtain ⟨ha', before⟩ := first w a w₁ ha
  obtain ⟨hr', after⟩ := rest a w₁ r w' hr
  exact ⟨bind_eq_some.mpr ⟨a, w₁, ha', hr'⟩, order.trans before after⟩

theorem Tracks.ite {c : Prop} [Decidable c] {p q p' q' : Proc ω α} (yes : Tracks R p q)
    (no : Tracks R p' q') : Tracks R (if c then p else p') (if c then q else q') := by
  split
  · exact yes
  · exact no

theorem Tracks.tooDeep (q : Proc ω α) : Tracks R Proc.tooDeep q := by
  intro w r w' h
  cases h

/-- A program is tracked by itself if its actions are. -/
theorem Tracks.program (order : Composes R) {κ : Type} {ρ : κ → Type} {τ : Type}
    {s t : (a : κ) → Proc ω (ρ a)} (actions : ∀ a, Tracks R (s a) (t a)) (code : Program ω ρ τ) :
    Tracks R (code.run s) (code.run t) := by
  induction code with
  | done r => exact .pure order r
  | look next ih => exact .bind order (.get order) fun w => ih w
  | act a next ih => exact .bind order (actions a) fun r => ih r

/-- A program keeps a relation if the actions that it may perform do. -/
theorem Keeps.program (order : Composes R) {κ : Type} {ρ : κ → Type} {τ : Type}
    {P : κ → Prop} {s : (a : κ) → Proc ω (ρ a)} (actions : ∀ a, P a → Keeps R (s a))
    {code : Program ω ρ τ} (allowed : code.All P) : Keeps R (code.run s) := by
  induction code with
  | done r =>
      intro w r' w' h
      cases h
      exact order.refl w
  | look next ih => exact fun w => ih w (allowed w) w
  | act a next ih =>
      intro w
      refine (ends_bind _ _ _ _).mpr ((actions a allowed.1 w).mono fun r w₁ first => ?_)
      exact (ih r (allowed.2 r) w₁).mono fun _ _ rest => order.trans first rest

/-! ## Keeping a relation -/

theorem Keeps.pure (order : Composes R) (a : α) : Keeps R (pure a) :=
  (Tracks.pure order a).keeps

theorem Keeps.look {f : ω → Proc ω α} (rest : ∀ w, Keeps R (f w)) : Keeps R (get >>= f) :=
  fun w => rest w w

theorem Keeps.modify {f : ω → ω} (related : ∀ w, R w (f w)) :
    Keeps R (modify f : Proc ω Unit) :=
  (Tracks.modify related).keeps

theorem Keeps.ite {c : Prop} [Decidable c] {p q : Proc ω α} (yes : Keeps R p) (no : Keeps R q) :
    Keeps R (if c then p else q) := by
  split
  · exact yes
  · exact no

theorem Keeps.bind (order : Composes R) {p : Proc ω α} {f : α → Proc ω γ} (first : Keeps R p)
    (rest : ∀ a, Keeps R (f a)) : Keeps R (p >>= f) := by
  intro w
  refine (ends_bind _ _ _ _).mpr ((first w).mono fun a w₁ before => ?_)
  exact (rest a w₁).mono fun _ _ after => order.trans before after

end Mvc.Proc

namespace Mvc

open Proc

variable {ω κ ρ τ : Type} {r : κ → Type}

/-- A program performs only actions with a property, as long as it sees only states of some
    kind. -/
def Program.AllWhere (I : ω → Prop) (P : κ → Prop) : Program ω r ρ → Prop
  | .done _ => True
  | .look next => ∀ w, I w → AllWhere I P (next w)
  | .act a next => P a ∧ ∀ x, AllWhere I P (next x)

namespace Program

variable {I : ω → Prop} {P Q : κ → Prop}

theorem All.allWhere {code : Program ω r ρ} (all : code.All P) : code.AllWhere I P := by
  induction code with
  | done x => trivial
  | look next ih => exact fun w _ => ih w (all w)
  | act a next ih => exact ⟨all.1, fun x => ih x (all.2 x)⟩

theorem All.mono {code : Program ω r ρ} (all : code.All P) (imp : ∀ a, P a → Q a) :
    code.All Q := by
  induction code with
  | done x => trivial
  | look next ih => exact fun w => ih w (all w)
  | act a next ih => exact ⟨imp a all.1, fun x => ih x (all.2 x)⟩

theorem AllWhere.mono {code : Program ω r ρ} (all : code.AllWhere I P)
    (imp : ∀ a, P a → Q a) : code.AllWhere I Q := by
  induction code with
  | done x => trivial
  | look next ih => exact fun w here => ih w (all w here)
  | act a next ih => exact ⟨imp a all.1, fun x => ih x (all.2 x)⟩

theorem AllWhere.bind {code : Program ω r ρ} {next : ρ → Program ω r τ}
    (first : code.AllWhere I P) (rest : ∀ x, (next x).AllWhere I P) :
    (code >>= next).AllWhere I P := by
  induction code with
  | done x => exact rest x
  | look look ih => exact fun w here => ih w (first w here)
  | act a next ih => exact ⟨first.1, fun x => ih x (first.2 x)⟩

theorem AllWhere.see {f : ω → ρ} {next : ρ → Program ω r τ}
    (rest : ∀ w, I w → (next (f w)).AllWhere I P) : (Program.see f >>= next).AllWhere I P :=
  rest

theorem All.bind {code : Program ω r ρ} {next : ρ → Program ω r τ}
    (first : code.All P) (rest : ∀ x, (next x).All P) : (code >>= next).All P := by
  induction code with
  | done x => exact rest x
  | look look ih => exact fun w => ih w (first w)
  | act a next ih => exact ⟨first.1, fun x => ih x (first.2 x)⟩

/-- A program keeps a relation that says nothing about the states that the program is not to see,
    if the actions do that it may perform. -/
theorem AllWhere.keeps {R : ω → ω → Prop} (order : Composes R) {s : (a : κ) → Proc ω (r a)}
    (actions : ∀ a, P a → Keeps R (s a)) (elsewhere : ∀ {w w'}, ¬ I w → R w w')
    {code : Program ω r ρ} (all : code.AllWhere I P) : Keeps R (code.run s) := by
  induction code with
  | done x => exact .pure order x
  | look next ih =>
      intro w
      by_cases here : I w
      · exact ih w (all w here) w
      · exact fun _ _ _ => elsewhere here
  | act a next ih => exact .bind order (actions a all.1) fun x => ih x (all.2 x)

end Program

end Mvc
