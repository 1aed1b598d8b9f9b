import Mathlib.Data.List.DropRight

/-! # Sequences in a text

A value in a text ends before a comma, a bracket or a brace, a blank, a line end or nothing. Lists
and maps hold values with commas between them. If each of them is read off the front of its text
or is refused there, a whole sequence is read off the front of the texts with commas between them,
or is refused if one of the values is.
-/

namespace Mvc

/-- A value ends in front of a text. -/
def Closes (s : List Char) : Prop := ∀ c ∈ s.head?, c ∈ [',', ']', '\x7d', ' ', '\n']

variable {s t rest : List Char}

theorem closes_nil : Closes [] := by simp [Closes]

theorem closes_cons {c : Char} (member : c ∈ [',', ']', '\x7d', ' ', '\n']) : Closes (c :: s) := by
  simpa [Closes] using member

/-- Texts with commas between them begin with the first one, behind which a value may end. -/
theorem intercalate_cons (closes : Closes t) (text : List Char) (texts : List (List Char)) :
    ∃ rest, Closes rest ∧ [','].intercalate (text :: texts) ++ t = text ++ rest := by
  cases texts with
  | nil => exact ⟨t, closes, by rw [List.intercalate_singleton]⟩
  | cons next texts =>
      refine ⟨',' :: ([','].intercalate (next :: texts) ++ t), closes_cons (by simp), ?_⟩
      rw [List.intercalate_cons_cons, List.append_assoc, List.append_assoc, List.singleton_append]

section

variable {p : Char → Bool}

theorem takeWhile_append (all : ∀ c ∈ s, p c = true) (stop : ∀ c ∈ rest.head?, p c = false) :
    (s ++ rest).takeWhile p = s := by
  rw [List.takeWhile_append_of_pos all]
  cases rest with
  | nil => simp
  | cons c rest => simp [stop c rfl]

theorem dropWhile_append (all : ∀ c ∈ s, p c = true) (stop : ∀ c ∈ rest.head?, p c = false) :
    (s ++ rest).dropWhile p = rest := by
  rw [List.dropWhile_append_of_pos all]
  cases rest with
  | nil => simp
  | cons c rest => simp [stop c rfl]

/-- Dropping blanks drops nothing else. -/
theorem countP_dropWhile (s : List Char) :
    (s.dropWhile p).countP (fun c => !p c) = s.countP fun c => !p c := by
  induction s with
  | nil => rfl
  | cons c s ih =>
      by_cases blank : p c = true <;> simp [blank, ih]

/-- There are as many commas between texts as there are texts but one. -/
theorem length_le_countP (comma : p ',' = false) (texts : List (List Char)) :
    texts.length ≤ ([','].intercalate texts).countP (fun c => !p c) + 1 := by
  induction texts with
  | nil => simp
  | cons text texts ih =>
      cases texts with
      | nil => simp
      | cons next texts =>
          rw [List.intercalate_cons_cons, List.countP_append, List.countP_append]
          simp only [List.length_cons, List.countP_singleton, comma] at ih ⊢
          simp
          omega

/-- The texts, commas between them and a bracket are at least as many characters as there are
    texts, not counting blanks. -/
theorem length_le_dropWhile (comma : p ',' = false) {close : Char} (solid : p close = false)
    (texts : List (List Char)) (bracket : t.dropWhile p = close :: rest) :
    texts.length ≤ (([','].intercalate texts ++ t).dropWhile p).length := by
  have commas := length_le_countP comma texts
  have last : 1 ≤ t.countP fun c => !p c := by
    rw [← countP_dropWhile, bracket, List.countP_cons]
    simp [solid]
  have all := List.countP_le_length (p := fun c => !p c)
    (l := ([','].intercalate texts ++ t).dropWhile p)
  rw [countP_dropWhile, List.countP_append] at all
  omega

end

/-- A reader of values with commas between them, up to a closing character; `skip` drops what may
    stand before a comma or that character. -/
structure Sequential {β : Type} (item? : List Char → Option (β × List Char))
    (skip : List Char → List Char) (close : Char)
    (items? : Nat → List Char → Option (List β × List Char)) : Prop where
  refused : ∀ {fuel s}, item? s = none → items? (fuel + 1) s = none
  last : ∀ {fuel s x t rest}, item? s = some (x, t) → skip t = close :: rest →
    items? (fuel + 1) s = some ([x], rest)
  next : ∀ {fuel s x t rest}, item? s = some (x, t) → skip t = ',' :: rest →
    items? (fuel + 1) s = (items? fuel rest).map fun (xs, rest) => (x :: xs, rest)

/-- A sequence is read if each of its values is. -/
theorem Sequential.read {α β : Type} {item? : List Char → Option (β × List Char)}
    {skip : List Char → List Char} {close : Char}
    {items? : Nat → List Char → Option (List β × List Char)}
    (sequential : Sequential item? skip close items?) {line : α → List Char} {back : α → β}
    {fits : α → Prop} [DecidablePred fits] (comma : ∀ s, skip (',' :: s) = ',' :: s)
    {items : List α} (nonempty : items ≠ []) {fuel : Nat} (enough : items.length ≤ fuel)
    (reads : ∀ x ∈ items, ∀ rest, Closes rest →
      item? (line x ++ rest) = if fits x then some (back x, rest) else none)
    (closes : Closes t) (bracket : skip t = close :: rest) :
    items? fuel ([','].intercalate (items.map line) ++ t) =
      if ∀ x ∈ items, fits x then some (items.map back, rest) else none := by
  induction items generalizing fuel with
  | nil => contradiction
  | cons x items ih =>
      obtain ⟨fuel, rfl⟩ : ∃ n, fuel = n + 1 := ⟨fuel - 1, by simp at enough; omega⟩
      simp only [List.mem_cons, forall_eq_or_imp, List.length_cons, Nat.add_le_add_iff_right]
        at reads enough ⊢
      cases items with
      | nil =>
          have item := reads.1 t closes
          rw [List.map_singleton, List.intercalate_singleton]
          by_cases here : fits x
          · rw [if_pos here] at item
            simp [sequential.last item bracket, here]
          · rw [if_neg here] at item
            simp [sequential.refused item, here]
      | cons y items =>
          -- What follows the first item is a comma and the sequence of the others.
          have item := reads.1 (',' :: ([','].intercalate ((y :: items).map line) ++ t))
            (closes_cons (by simp))
          rw [List.map_cons, List.map_cons, List.intercalate_cons_cons, ← List.map_cons,
            List.append_assoc, List.append_assoc, List.singleton_append]
          by_cases here : fits x
          · rw [if_pos here] at item
            rw [sequential.next item (comma _), ih (by simp) enough reads.2]
            by_cases all : ∀ z ∈ y :: items, fits z
            · rw [if_pos all, if_pos ⟨here, all⟩]
              rfl
            · rw [if_neg all, if_neg fun both => all both.2]
              rfl
          · rw [if_neg here] at item
            rw [sequential.refused item, if_neg fun both => here both.1]

end Mvc
