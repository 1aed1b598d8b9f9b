import Mathlib.Data.String.Basic
import Mvc.Settings.Tree

/-! # Keys and the names on them

A key in normal form is made of its names with slashes between them, and of nothing else: cutting
it gives the names back. A key lies below another one if its names begin with those of the other
and go on; then it also comes later in the order of keys.
-/

namespace Mvc

namespace Text

variable {p : Char → Bool} {piece s t : List Char} {parts rest : List (List Char)}

attribute [grind =] pieces joinSlash

theorem pieces_ne_nil (s : List Char) : pieces p s ≠ [] := by
  induction s with
  | nil => simp [pieces]
  | cons c s ih =>
      simp only [pieces]
      split
      · simp
      · split <;> simp

theorem pieces_cons {c : Char} (inside : p c = false) (s : List Char) :
    ∃ piece rest, pieces p s = piece :: rest ∧ pieces p (c :: s) = (c :: piece) :: rest := by
  obtain ⟨piece, rest, eq⟩ := List.exists_cons_of_ne_nil (pieces_ne_nil (p := p) s)
  exact ⟨piece, rest, eq, by simp [pieces, inside, eq]⟩

theorem mem_pieces (member : piece ∈ pieces p s) : ∀ c ∈ piece, p c = false := by
  induction s generalizing piece with
  | nil => simp_all [pieces]
  | cons c s ih =>
      cases sep : p c with
      | true =>
          simp only [pieces, sep, if_true, List.mem_cons] at member
          rcases member with rfl | member
          · simp
          · exact ih member
      | false =>
          obtain ⟨first, rest, eq, eq'⟩ := pieces_cons sep s
          rw [eq', List.mem_cons] at member
          rcases member with rfl | member
          · intro d here
            rcases List.mem_cons.mp here with rfl | here
            · exact sep
            · exact ih (eq ▸ List.mem_cons_self) d here
          · exact ih (eq ▸ List.mem_cons_of_mem _ member)

/-- A text is cut at each separator by itself. -/
theorem pieces_append {c : Char} (sep : p c = true) (s t : List Char) :
    pieces p (s ++ c :: t) = pieces p s ++ pieces p t := by
  induction s with
  | nil => simp [pieces, sep]
  | cons d s ih =>
      cases here : p d with
      | true => simp [pieces, here, ih]
      | false =>
          obtain ⟨piece, rest, eq, eq'⟩ := pieces_cons here s
          obtain ⟨piece', rest', both, both'⟩ := pieces_cons here (s ++ c :: t)
          rw [ih, eq, List.cons_append, List.cons.injEq] at both
          obtain ⟨rfl, rfl⟩ := both
          rw [List.cons_append, both', eq', List.cons_append]

theorem pieces_of_inside (inside : ∀ c ∈ s, p c = false) : pieces p s = [s] := by
  induction s with
  | nil => rfl
  | cons c s ih =>
      simp only [List.mem_cons, forall_eq_or_imp] at inside
      simp [pieces, inside.1, ih inside.2]

theorem joinSlash_cons (more : rest ≠ []) :
    joinSlash (piece :: rest) = piece ++ '/' :: joinSlash rest := by
  cases rest with
  | nil => contradiction
  | cons => rfl

theorem joinSlash_append (some : parts ≠ []) (more : rest ≠ []) :
    joinSlash (parts ++ rest) = joinSlash parts ++ '/' :: joinSlash rest := by
  induction parts with
  | nil => contradiction
  | cons piece parts ih =>
      by_cases last : parts = []
      · subst last
        exact joinSlash_cons more
      · rw [List.cons_append, joinSlash_cons (by simp [last]), joinSlash_cons last, ih last,
          List.append_assoc, List.cons_append]

theorem joinSlash_pieces (s : List Char) : joinSlash (pieces (· = '/') s) = s := by
  induction s with
  | nil => rfl
  | cons c s ih =>
      by_cases slash : c = '/'
      · subst slash
        have cut : pieces (· = '/') ('/' :: s) = [] :: pieces (· = '/') s := by simp [pieces]
        rw [cut, joinSlash_cons (pieces_ne_nil s), ih, List.nil_append]
      · obtain ⟨piece, rest, eq, eq'⟩ :=
          pieces_cons (p := fun d => decide (d = '/')) (c := c) (by simp [slash]) s
        rw [eq] at ih
        rw [eq']
        cases rest with
        | nil => exact congrArg (c :: ·) ih
        | cons => exact congrArg (c :: ·) ih

theorem pieces_joinSlash (sep : p '/' = true) (some : parts ≠ [])
    (inside : ∀ part ∈ parts, ∀ c ∈ part, p c = false) : pieces p (joinSlash parts) = parts := by
  induction parts with
  | nil => contradiction
  | cons part parts ih =>
      simp only [List.mem_cons, forall_eq_or_imp] at inside
      by_cases last : parts = []
      · subst last
        exact pieces_of_inside inside.1
      · rw [joinSlash_cons last, pieces_append sep, pieces_of_inside inside.1, ih last inside.2,
          List.singleton_append]

end Text

namespace Key

open Text

variable {key key' name : String} {names names' : List String}

theorem isSeparator_slash : isSeparator '/' = true := rfl

/-- A segment of a key, as characters. -/
def IsSegment (segment : List Char) : Prop :=
  segment ≠ [] ∧ ∀ c ∈ segment, isSeparator c = false

/-- A name that spells one segment. -/
def IsName (name : String) : Prop := IsSegment name.toList

/-- Keys in normal form, the empty one apart. -/
def IsNormal (key : String) : Prop := key ≠ "" ∧ normalize key = key

instance : DecidablePred IsNormal := fun _ => inferInstanceAs (Decidable (_ ∧ _))

/-- The key of some names. -/
def ofPath (names : List String) : String := String.ofList (joinSlash (names.map String.toList))

/-- One key extends another one as a path. -/
def IsBelow (key key' : String) : Prop := (key' ++ "/").toList <+: key.toList

instance : DecidableRel IsBelow := fun key key' =>
  inferInstanceAs (Decidable ((key' ++ "/").toList <+: key.toList))

theorem isSegment_of_mem {segment : List Char} (member : segment ∈ segments key) :
    IsSegment segment := by
  simp only [segments, List.mem_filter] at member
  exact ⟨by simpa using member.2, mem_pieces member.1⟩

theorem segments_joinSlash {parts : List (List Char)} (some : parts ≠ [])
    (inside : ∀ part ∈ parts, ∀ c ∈ part, isSeparator c = false) :
    segments (String.ofList (joinSlash parts)) = parts.filter fun part => !part.isEmpty := by
  rw [segments, String.toList_ofList, pieces_joinSlash isSeparator_slash some inside]

theorem segments_normalize (key : String) : segments (normalize key) = segments key := by
  by_cases none : segments key = []
  · rw [normalize, none]
    rfl
  · rw [normalize, segments_joinSlash none fun part member => (isSegment_of_mem member).2]
    exact List.filter_eq_self.mpr fun part member => by simp [(isSegment_of_mem member).1]

theorem normalize_normalize (key : String) : normalize (normalize key) = normalize key := by
  rw [normalize, segments_normalize, ← normalize]

theorem segments_of_isName (plain : IsName name) : segments name = [name.toList] := by
  simp [segments, pieces_of_inside plain.2, plain.1]

theorem normalize_of_isName (plain : IsName name) : normalize name = name := by
  simp [normalize, segments_of_isName plain, joinSlash]

theorem normalize_eq_empty : normalize key = "" ↔ segments key = [] := by
  constructor
  · intro blank
    rw [← segments_normalize, blank]
    rfl
  · intro none
    simp [normalize, none, joinSlash]

theorem path_ne_nil (key : String) : path key ≠ [] := by
  simp [path, pieces_ne_nil]

theorem ofPath_path (key : String) : ofPath (path key) = key := by
  simp only [ofPath, path, List.map_map]
  rw [show String.toList ∘ String.ofList = id from funext fun _ => String.toList_ofList,
    List.map_id, joinSlash_pieces, String.ofList_toList]

theorem path_injective : path key = path key' ↔ key = key' := by
  constructor
  · intro same
    rw [← ofPath_path key, same, ofPath_path]
  · rintro rfl
    rfl

theorem path_ofPath (some : names ≠ []) (plain : ∀ name ∈ names, IsName name) :
    path (ofPath names) = names := by
  rw [path, ofPath, String.toList_ofList, pieces_joinSlash (by simp) (by simpa using some)]
  · simp [Function.comp_def]
  · intro part member c here
    obtain ⟨name, listed, rfl⟩ := List.mem_map.mp member
    have inside := (plain name listed).2 c here
    simp only [isSeparator, Bool.or_eq_false_iff] at inside
    exact inside.1

theorem isNormal_ofPath (some : names ≠ []) (plain : ∀ name ∈ names, IsName name) :
    IsNormal (ofPath names) := by
  constructor
  · intro blank
    have cut := path_ofPath some plain
    rw [blank] at cut
    have first := plain "" (by rw [← cut]; simp [path, Text.pieces])
    exact first.1 rfl
  · have parts : segments (ofPath names) = names.map String.toList := by
      rw [ofPath, segments_joinSlash (by simpa using some)]
      · rw [List.filter_eq_self]
        intro part member
        obtain ⟨name, listed, rfl⟩ := List.mem_map.mp member
        simpa using (plain name listed).1
      · intro part member
        obtain ⟨name, listed, rfl⟩ := List.mem_map.mp member
        exact (plain name listed).2
    rw [normalize, parts]
    rfl

/-- In normal form every piece between slashes is a segment. -/
theorem segments_of_isNormal (normal : IsNormal key) :
    segments key = pieces (· = '/') key.toList := by
  have some : segments key ≠ [] := fun none => normal.1 (normal.2 ▸ normalize_eq_empty.mpr none)
  have spelled : key.toList = joinSlash (segments key) := by
    conv_lhs => rw [← normal.2, normalize, String.toList_ofList]
  rw [spelled, pieces_joinSlash (by simp) some]
  · intro part member c here
    have inside := (isSegment_of_mem member).2 c here
    simp only [isSeparator, Bool.or_eq_false_iff] at inside
    exact inside.1

theorem isName_of_mem_path (normal : IsNormal key) (member : name ∈ path key) : IsName name := by
  rw [path, ← segments_of_isNormal normal] at member
  obtain ⟨segment, listed, rfl⟩ := List.mem_map.mp member
  rw [IsName, String.toList_ofList]
  exact isSegment_of_mem listed

theorem isBelow_iff : IsBelow key key' ↔ ∃ more, more ≠ [] ∧ path key = path key' ++ more := by
  constructor
  · rintro ⟨text, eq⟩
    refine ⟨(pieces (· = '/') text).map String.ofList, by simp [pieces_ne_nil], ?_⟩
    rw [path, ← eq, String.toList_append, List.append_assoc]
    exact (congrArg _ (pieces_append (c := '/') (by rfl) _ text)).trans List.map_append
  · rintro ⟨more, some, eq⟩
    refine ⟨joinSlash (more.map String.toList), ?_⟩
    rw [← ofPath_path key, ofPath, eq, List.map_append, String.toList_ofList,
      joinSlash_append (by simpa using path_ne_nil key') (by simpa using some)]
    have here := congrArg String.toList (ofPath_path key')
    rw [ofPath, String.toList_ofList] at here
    rw [here, String.toList_append]
    exact List.append_assoc ..

theorem lt_of_isBelow (below : IsBelow key key') : key' < key := by
  obtain ⟨text, eq⟩ := below
  rw [String.lt_iff_toList_lt, ← eq, String.toList_append, List.append_assoc]
  have longer : key'.toList ++ [] < key'.toList ++ ("/".toList ++ text) :=
    List.append_left_lt (List.nil_lt_cons _ _)
  rwa [List.append_nil] at longer

end Key

end Mvc
