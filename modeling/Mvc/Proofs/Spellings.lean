import Mvc.Proofs.Tidings

/-! # Spellings of a key, and the keys below it

A key is cut at its dots and slashes, and the pieces that are not empty are its segments. In normal
form slashes stand between them and nowhere else, so two spellings have the same normal form just
when they have the same segments. Each access to settings looks at one entry and leaves the others
alone, and the segments of its key say which one that is.

A group is looked up by a beginning of the keys as texts: its normal form with a slash behind it.
For keys in normal form this is a beginning of the segments, so a sibling whose name merely begins
like the group's is passed over. The outermost group, whose normal form is empty, is looked up by a
lone slash, which no such key begins with: it lists nothing, though every key is in it.
-/

namespace Mvc

namespace Text

variable {p : Char → Bool} {s : List Char} {c d : Char}

theorem pieces_eq_splitOnP (s : List Char) : pieces p s = s.splitOnP p := by
  induction s with
  | nil => simp [pieces]
  | cons c s ih =>
      rw [List.splitOnP_cons_eq_if_modifyHead, ← ih]
      cases here : p c with
      | true => simp [pieces, here]
      | false =>
          obtain ⟨piece, rest, eq, eq'⟩ := pieces_cons here s
          simp [eq, eq']

theorem pieces_of_head (sep : p c = true) (s : List Char) : pieces p (c :: s) = [] :: pieces p s :=
  pieces_append sep [] s

theorem nil_mem_of_adjacent (sep : p c = true) (sep' : p d = true) (adjacent : [c, d] <:+: s) :
    [] ∈ pieces p s := by
  obtain ⟨before, after, rfl⟩ := adjacent
  rw [List.append_assoc, List.cons_append, pieces_append sep, List.singleton_append,
    pieces_of_head sep']
  simp

theorem nil_mem_of_head? (sep : p c = true) (front : s.head? = some c) : [] ∈ pieces p s := by
  obtain ⟨rest, rfl⟩ := List.head?_eq_some_iff.mp front
  rw [pieces_of_head sep]
  exact List.mem_cons_self

theorem nil_mem_of_getLast? (sep : p c = true) (back : s.getLast? = some c) :
    [] ∈ pieces p s := by
  obtain ⟨rest, rfl⟩ := List.getLast?_eq_some_iff.mp back
  rw [pieces_append sep]
  simp [pieces]

theorem mem_joinSlash {parts : List (List Char)} (member : c ∈ joinSlash parts) :
    c = '/' ∨ ∃ part ∈ parts, c ∈ part := by
  induction parts with
  | nil => simp [joinSlash] at member
  | cons part parts ih =>
      by_cases last : parts = []
      · subst last
        exact .inr ⟨part, List.mem_cons_self, member⟩
      · rw [joinSlash_cons last, List.mem_append, List.mem_cons] at member
        rcases member with here | slash | later
        · exact .inr ⟨part, List.mem_cons_self, here⟩
        · exact .inl slash
        · obtain slash | ⟨part', listed, here⟩ := ih later
          · exact .inl slash
          · exact .inr ⟨part', List.mem_cons_of_mem _ listed, here⟩

end Text

namespace Key

open Text

variable {key key' : String}

/-! ## Normal forms -/

/-- A text without dots in which slashes stand between names only. -/
structure IsTidy (key : String) : Prop where
  dotless : '.' ∉ key.toList
  single : ¬['/', '/'] <:+: key.toList
  front : key.toList.head? ≠ some '/'
  back : key.toList.getLast? ≠ some '/'

/-- Two keys in normal form with a slash between them; an empty one does not count. -/
def joined (key key' : String) : String :=
  if key = "" then key' else if key' = "" then key else key ++ "/" ++ key'

theorem segments_eq_splitOnP (key : String) :
    segments key = (key.toList.splitOnP isSeparator).filter fun piece => !piece.isEmpty := by
  rw [segments, pieces_eq_splitOnP]

theorem normalize_eq_iff : normalize key = normalize key' ↔ segments key = segments key' := by
  constructor
  · intro same
    rw [← segments_normalize key, same, segments_normalize]
  · intro same
    rw [normalize, same, normalize]

theorem dot_not_mem_normalize (key : String) : '.' ∉ (normalize key).toList := by
  intro member
  rw [normalize, String.toList_ofList] at member
  obtain slash | ⟨segment, listed, here⟩ := mem_joinSlash member
  · exact absurd slash (by decide)
  · exact absurd ((isSegment_of_mem listed).2 '.' here) (by decide)

theorem isTidy_normalize (key : String) : IsTidy (normalize key) := by
  by_cases blank : normalize key = ""
  · rw [blank]
    constructor <;> simp
  · -- A slash in a wrong place would leave an empty piece, and no segment is empty.
    have full : [] ∉ pieces (· = '/') (normalize key).toList := by
      intro member
      have normal : IsNormal (normalize key) := ⟨blank, normalize_normalize key⟩
      rw [← segments_of_isNormal normal] at member
      exact (isSegment_of_mem member).1 rfl
    constructor
    · exact dot_not_mem_normalize key
    · intro adjacent
      exact full (nil_mem_of_adjacent (by simp) (by simp) adjacent)
    · intro front
      exact full (nil_mem_of_head? (by simp) front)
    · intro back
      exact full (nil_mem_of_getLast? (by simp) back)

theorem segments_append {sep : Char} (cut : isSeparator sep = true) (key key' : String) :
    segments (key ++ String.singleton sep ++ key') = segments key ++ segments key' := by
  have text : (key ++ String.singleton sep ++ key').toList =
      key.toList ++ sep :: key'.toList := by simp
  rw [segments, text, pieces_append cut, List.filter_append, ← segments, ← segments]

theorem normalize_append {sep : Char} (cut : isSeparator sep = true) (key key' : String) :
    normalize (key ++ String.singleton sep ++ key') =
      joined (normalize key) (normalize key') := by
  rw [joined, normalize, segments_append cut]
  by_cases none : segments key = []
  · rw [if_pos (normalize_eq_empty.mpr none), none, List.nil_append, normalize]
  · rw [if_neg (mt normalize_eq_empty.mp none)]
    by_cases none' : segments key' = []
    · rw [if_pos (normalize_eq_empty.mpr none'), none', List.append_nil, normalize]
    · rw [if_neg (mt normalize_eq_empty.mp none'), joinSlash_append none none']
      rw [← String.toList_inj]
      simp [normalize]

end Key

namespace Settings

open Key

variable {s s' : Settings} {key key' k : String}

/-! ## Accesses -/

/-- What can be done with settings under one key. -/
inductive Access where
  | get
  | contains
  | set (value : Value)
  | remove

/-- What an access hands back. -/
inductive Answer where
  | found (value : Option Value)
  | truth (b : Bool)
  deriving DecidableEq

theorem announced_remove : (s.remove key).announced =
    if (s.values.get? (normalize key)).isSome then [normalize key] else [] := by
  by_cases present : (s.values.get? (normalize key)).isSome
  · simp [Settings.remove, Dict.contains, present]
  · simp [Settings.remove, Dict.contains, present, unchanged]

/-- A write is announced when there is something else than it leaves. -/
theorem announced_set (value : Value) : (s.set key value).announced =
    if normalize key = "" ∨ s.values.get? (normalize key) = Store.kept value then []
    else [normalize key] := by
  by_cases blank : normalize key = ""
  · rw [if_pos (.inl blank)]
    simp [Settings.set, blank, unchanged]
  · simp only [Settings.set, String.isEmpty_iff, blank, if_false, false_or, Store.kept]
    cases null : value.isNull with
    | true =>
        rw [if_pos rfl, if_pos rfl, announced_remove, normalize_normalize]
        cases s.values.get? (normalize key) <;> simp
    | false =>
        by_cases kept : s.values.get? (normalize key) = some value
        · simp [kept, unchanged]
        · simp [kept]

namespace Access

/-- What is found under a key or taken from it, whether there is anything, and whether a write
    changes it. -/
def answer (s : Settings) (key : String) : Access → Answer
  | get => .found (s.get? key)
  | contains => .truth (s.contains key)
  | set value => .truth !(s.set key value).announced.isEmpty
  | remove => .found (s.get? key)

/-- What an access does to the settings. -/
def change (s : Settings) (key : String) : Access → Change
  | set value => s.set key value
  | remove => s.remove key
  | get | contains => s.unchanged

/-- Two spellings of one normal form are one key. -/
theorem spelling (same : normalize key = normalize key') (s : Settings) (access : Access) :
    access.answer s key = access.answer s key' ∧ access.change s key = access.change s key' := by
  cases access with
  | get => simp [answer, change, get?, same]
  | contains => simp [answer, change, Settings.contains, same]
  | set value => simp [answer, change, Settings.set, same]
  | remove => simp [answer, change, get?, Settings.remove, same]

/-- No entry changes but the one that the key names. -/
theorem elsewhere (access : Access) (other : k ≠ normalize key) :
    (access.change s key).after.values.get? k = s.values.get? k := by
  cases access with
  | get | contains => rfl
  | set value => rw [change, get?_set, if_neg fun both => other both.1]
  | remove => rw [change, get?_remove, if_neg other]

/-- What an access hands back, announces and leaves depends on its own entry alone. -/
theorem own (access : Access)
    (same : s.values.get? (normalize key) = s'.values.get? (normalize key)) :
    access.answer s key = access.answer s' key ∧
      (access.change s key).announced = (access.change s' key).announced ∧
      (access.change s key).after.values.get? (normalize key) =
        (access.change s' key).after.values.get? (normalize key) := by
  cases access with
  | get => exact ⟨congrArg Answer.found same, rfl, same⟩
  | contains => exact ⟨congrArg (fun v => Answer.truth (Option.isSome v)) same, rfl, same⟩
  | set value =>
      have announced : (s.set key value).announced = (s'.set key value).announced := by
        rw [announced_set, announced_set, same]
      refine ⟨?_, announced, ?_⟩
      · rw [answer, answer, announced]
      · rw [change, change, get?_set, get?_set, same]
  | remove =>
      refine ⟨congrArg Answer.found same, ?_, ?_⟩
      · rw [change, change, announced_remove, announced_remove, same]
      · rw [change, change, get?_remove, get?_remove, same]

end Access

/-- What is done under one key is neither seen nor touched by what is done under the other. -/
structure Apart (key key' : String) : Prop where
  answer : ∀ s (first second : Access),
    second.answer (first.change s key).after key' = second.answer s key'
  announced : ∀ s (first second : Access),
    (second.change (first.change s key).after key').announced = (second.change s key').announced
  after : ∀ s (first second : Access),
    (second.change (first.change s key).after key').after =
      (first.change (second.change s key').after key).after

theorem apart_of_ne (other : normalize key ≠ normalize key') : Apart key key' where
  answer s first second := (second.own (first.elsewhere other.symm)).1
  announced s first second := (second.own (first.elsewhere other.symm)).2.1
  after s first second := by
    refine ext_get? fun k => ?_
    by_cases here : k = normalize key'
    · subst here
      rw [(second.own (first.elsewhere other.symm)).2.2, first.elsewhere other.symm]
    · rw [second.elsewhere here]
      by_cases there : k = normalize key
      · subst there
        rw [(first.own (second.elsewhere other)).2.2]
      · rw [first.elsewhere there, first.elsewhere there, second.elsewhere here]

/-! ## Segments are addresses -/

/-- The segments of two spellings decide what they address. -/
structure BySegments (key key' : String) : Prop where
  /-- The segments are what lies between dots and slashes, empty pieces left out. -/
  segments_eq : segments key =
    (key.toList.splitOnP fun c => c = '/' || c = '.').filter fun piece => !piece.isEmpty
  idempotent : normalize (normalize key) = normalize key
  tidy : IsTidy (normalize key)
  normalize_eq : normalize key = normalize key' ↔ segments key = segments key'
  append : ∀ sep ∈ ['.', '/'], normalize (key ++ String.singleton sep ++ key') =
    joined (normalize key) (normalize key')
  /-- Spellings of the same segments can be exchanged. -/
  same : segments key = segments key' → ∀ s (access : Access),
    access.answer s key = access.answer s key' ∧ access.change s key = access.change s key'
  /-- Any other two have nothing to do with each other. -/
  apart : segments key ≠ segments key' → Apart key key'
  /-- A key without segments has no value. -/
  get?_set : ∀ (s : Settings) value, (s.set key value).after.get? key =
    if segments key = [] then s.get? key else Store.kept value
  get?_remove : ∀ s : Settings, (s.remove key).after.get? key = none
  contains_eq : ∀ s : Settings, s.contains key = (s.get? key).isSome

theorem addressed_by_segments (key key' : String) : BySegments key key' where
  segments_eq := segments_eq_splitOnP key
  idempotent := normalize_normalize key
  tidy := isTidy_normalize key
  normalize_eq := normalize_eq_iff
  append sep member := by
    have cut : isSeparator sep = true := by
      simp only [List.mem_cons, List.not_mem_nil, or_false] at member
      rcases member with rfl | rfl <;> rfl
    exact normalize_append cut key key'
  same equal s access := access.spelling (normalize_eq_iff.mpr equal) s
  apart other := apart_of_ne (mt normalize_eq_iff.mp other)
  get?_set s value := by
    rw [get?, Settings.get?_set, get?, Store.kept]
    by_cases blank : segments key = []
    · rw [if_pos blank, if_neg fun both => both.2 (normalize_eq_empty.mpr blank)]
    · rw [if_neg blank, if_pos ⟨rfl, mt normalize_eq_empty.mp blank⟩]
  get?_remove s := by rw [get?, Settings.get?_remove, if_pos rfl]
  contains_eq s := rfl

example : normalize "/window//width." = normalize "window.width" := by
  decide +kernel

end Settings

/-! ## Groups -/

namespace Key

variable {key group : String}

/-- The segments of a key begin with those of a group and go on. -/
def IsUnder (key group : String) : Prop :=
  segments group <+: segments key ∧ segments group ≠ segments key

instance : DecidableRel IsUnder := fun _ _ => instDecidableAnd

theorem path_of_isNormal (normal : IsNormal key) : path key = (segments key).map String.ofList := by
  rw [path, segments_of_isNormal normal]

theorem isUnder_iff : IsUnder key group ↔
    ∃ more, more ≠ [] ∧ segments key = segments group ++ more := by
  constructor
  · rintro ⟨⟨more, eq⟩, other⟩
    refine ⟨more, ?_, eq.symm⟩
    rintro rfl
    exact other (by rw [← eq, List.append_nil])
  · rintro ⟨more, some, eq⟩
    refine ⟨⟨more, eq.symm⟩, fun same => some ?_⟩
    rw [← same] at eq
    exact List.self_eq_append_right.mp eq

theorem isUnder_of_blank (blank : segments group = []) :
    IsUnder key group ↔ segments key ≠ [] := by
  rw [IsUnder, blank]
  exact ⟨fun under same => under.2 same.symm, fun some => ⟨List.nil_prefix, some.symm⟩⟩

/-- No key in normal form begins with a slash, or consists of nothing but a group and a slash. -/
theorem isBelow_of_isNormal (normal : IsNormal key) (normal' : IsNormal group) :
    IsBelow key group ↔ IsUnder key group := by
  rw [isBelow_iff, isUnder_iff, path_of_isNormal normal, path_of_isNormal normal']
  constructor
  · rintro ⟨more, some, eq⟩
    refine ⟨more.map String.toList, by simpa using some, ?_⟩
    have segments := congrArg (List.map String.toList) eq
    simpa [Function.comp_def] using segments
  · rintro ⟨more, some, eq⟩
    exact ⟨more.map String.ofList, by simpa using some, by rw [eq, List.map_append]⟩

theorem not_isBelow_empty (normal : IsNormal key) : ¬IsBelow key "" := by
  intro below
  obtain ⟨more, -, eq⟩ := isBelow_iff.mp below
  have first : "" ∈ path key := by
    rw [eq]
    simp [path, Text.pieces]
  exact (isName_of_mem_path normal first).1 rfl

theorem isBelow_normalize_iff (normal : normalize key = key) :
    IsBelow key (normalize group) ↔ segments group ≠ [] ∧ IsUnder key group := by
  by_cases none : segments key = []
  · have blank : key = "" := normal ▸ normalize_eq_empty.mpr none
    have above : ¬IsUnder key group := by
      simp [IsUnder, none]
    have apart : ¬IsBelow key (normalize group) := by
      simp [IsBelow, blank]
    simp [above, apart]
  · have named : IsNormal key := ⟨fun blank => none (by rw [blank]; rfl), normal⟩
    by_cases outermost : segments group = []
    · rw [normalize_eq_empty.mpr outermost]
      simp [not_isBelow_empty named, outermost]
    · have named' := Settings.isNormal_normalize (mt normalize_eq_empty.mp outermost)
      rw [isBelow_of_isNormal named named', IsUnder, segments_normalize, ← IsUnder]
      simp [outermost]

end Key

namespace Settings

open Key

variable {s : Settings} {key group : String}

theorem mem_groupKeys :
    key ∈ s.groupKeys group ↔ key ∈ s.values.keys ∧ IsBelow key (normalize group) := by
  simp [groupKeys, IsBelow]

theorem groupKeys_ascending (s : Settings) (group : String) :
    (s.groupKeys group).Pairwise (· < ·) := by
  have ascending : s.values.keys.Pairwise (· < ·) := List.pairwise_map.mpr s.values.ascending
  exact ascending.filter _

/-- Every group but the outermost one lists the keys below it, and no others; the outermost one
    lists none. -/
theorem groupKeys_lists_descendants (normal : ∀ key ∈ s.values.keys, normalize key = key)
    (group : String) :
    (s.groupKeys group).Pairwise (· < ·) ∧
    (∀ key, key ∈ s.groupKeys group ↔
      segments group ≠ [] ∧ key ∈ s.values.keys ∧ IsUnder key group) ∧
    ((∀ key, key ∈ s.groupKeys group ↔ key ∈ s.values.keys ∧ IsUnder key group) ↔
      segments group ≠ [] ∨ ∀ key ∈ s.values.keys, key = "") := by
  have listed : ∀ key, key ∈ s.groupKeys group ↔
      segments group ≠ [] ∧ key ∈ s.values.keys ∧ IsUnder key group := by
    intro key
    rw [mem_groupKeys]
    constructor
    · rintro ⟨member, below⟩
      obtain ⟨some, under⟩ := (isBelow_normalize_iff (normal key member)).mp below
      exact ⟨some, member, under⟩
    · rintro ⟨some, member, under⟩
      exact ⟨member, (isBelow_normalize_iff (normal key member)).mpr ⟨some, under⟩⟩
  refine ⟨groupKeys_ascending s group, listed, ?_⟩
  by_cases outermost : segments group = []
  · have blank : ∀ key ∈ s.values.keys, IsUnder key group ↔ key ≠ "" := by
      intro key member
      rw [isUnder_of_blank outermost, ne_eq, ← normalize_eq_empty, normal key member]
    constructor
    · intro all
      refine .inr fun key member => ?_
      by_contra some
      have here := (all key).mpr ⟨member, (blank key member).mpr some⟩
      exact ((listed key).mp here).1 outermost
    · rintro (some | empty) key
      · exact absurd outermost some
      · constructor
        · intro here
          exact ((listed key).mp here).2
        · rintro ⟨member, under⟩
          exact absurd (empty key member) ((blank key member).mp under)
  · simp [listed, outermost]

/-- Settings with a group, another key that begins with the same letters, and a group inside. -/
def windows : Settings :=
  empty.after [.set "window.width" (.integer 1000) trivial, .set "windowed" (.bool true) trivial,
    .set "/window/frame/height" (.integer 3) trivial, .set "window" (.bool true) trivial]

theorem normal_windows : ∀ key ∈ windows.values.keys, normalize key = key := by
  decide +kernel

/-- A group is listed in any spelling, without its siblings and itself. -/
theorem descendants_of_window :
    (∀ key ∈ windows.values.keys, normalize key = key) ∧
    "window/frame/height" ∈ windows.groupKeys ".window//" ∧
    "windowed" ∉ windows.groupKeys ".window//" ∧ "window" ∉ windows.groupKeys ".window//" := by
  have listed := (groupKeys_lists_descendants normal_windows ".window//").2.1
  refine ⟨normal_windows, (listed _).mpr ?_, fun here => ?_, fun here => ?_⟩
  · decide +kernel
  · exact absurd ((listed _).mp here) (by decide +kernel)
  · exact absurd ((listed _).mp here) (by decide +kernel)

/-- Every key is below the outermost group, which lists none. -/
theorem outermost_group_empty :
    (∀ key ∈ windows.values.keys, normalize key = key ∧ IsUnder key "") ∧
      "windowed" ∈ windows.values.keys ∧ windows.groupKeys "" = [] := by
  decide +kernel

end Settings

end Mvc
