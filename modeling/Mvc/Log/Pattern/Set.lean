import Mvc.Log.Pattern.Atom

/-! # Sets of characters in patterns

A set stands between brackets: characters, ranges of them, classes by name, and sets within.
Doubled signs between two parts form their intersection and their differences. A closing
bracket right behind the opening one is a member, so no set is empty by itself, and so are
dashes there and before the closing bracket.

Reading a set yields how deeply it is nested.
-/

namespace Mvc.Log.Pattern

/-- An open bracket. -/
structure Bracket where
  /-- How many members the part at hand has. -/
  count : Nat
  /-- How deeply they are nested. -/
  deepest : Nat
  /-- How deeply the parts before the last doubled sign are nested. -/
  left : Option Nat

namespace Bracket

/-- A bracket with members that are not nested. -/
def ofMembers (count : Nat) : Bracket := ⟨count, 0, none⟩

/-- One more member, nested so deeply. -/
def add (b : Bracket) (depth : Nat) : Bracket :=
  { b with count := b.count + 1, deepest := max b.deepest depth }

/-- How deeply all that the bracket holds is nested. -/
def depth (b : Bracket) : Nat :=
  let part := if b.count < 2 then b.deepest else b.deepest + 1
  match b.left with
  | none => part
  | some left => max left part + 1

/-- Begin the part behind a doubled sign. -/
def combine (b : Bracket) : Bracket := ⟨0, 0, some b.depth⟩

end Bracket

/-- The classes with a name, all of them in ASCII. -/
def classNames : List String :=
  ["alnum", "alpha", "ascii", "blank", "cntrl", "digit", "graph", "lower", "print", "punct",
    "space", "upper", "word", "xdigit"]

/-- Read the rest of a class by its name, such as `[:^alpha:]`, behind the first bracket: also
    whether it is negated. -/
def namedClass? : List Char → Option (Bool × List Char)
  | ':' :: s =>
    let (negated, s) := match s with
      | '^' :: s => (true, s)
      | s => (false, s)
    let name := s.takeWhile (· ≠ ':')
    match s.dropWhile (· ≠ ':') with
    | ':' :: ']' :: rest =>
      if classNames.contains (String.ofList name) then some (negated, rest) else none
    | _ => none
  | _ => none

/-- Whether sets and classes can be negated. Without Unicode that would give all bytes beyond
    ASCII. A class, or a set within another one, has members for certain when it is negated. -/
def canNegate (m : Modes) (isOutermost : Bool) : Bool :=
  m.unicode && (isOutermost || !m.ignoresCase)

/-- Take dashes from the front, and count them. -/
def takeDashes (m : Modes) (count : Nat) : Nat → List Char → Nat × List Char
  | 0, s => (count, s)
  | fuel + 1, '-' :: s => takeDashes m (count + 1) fuel (m.skip s)
  | _ + 1, s => (count, s)

/-- Read the front of a set, behind its opening bracket. -/
def openSet? (m : Modes) (isOutermost : Bool) (s : List Char) : Option (Bracket × List Char) :=
  let (negated, s) := match m.skip s with
    | '^' :: s => (true, m.skip s)
    | s => (false, s)
  if negated && !canNegate m isOutermost then none
  else
    let (count, rest) := takeDashes m 0 s.length s
    let (count, rest) := match rest with
      | ']' :: rest => if count = 0 then (1, m.skip rest) else (count, ']' :: rest)
      | rest => (count, rest)
    -- A dash and a bracket are characters like others.
    if count > 0 && !(Atom.letter '-' false).isMember m then none
    else some (.ofMembers count, rest)

/-- The next character that counts, if there is one; of a comment the first character counts. -/
def peek? (m : Modes) (s : List Char) : Option Char :=
  if m.spaced then
    match s.dropWhile Text.isBlank with
    | '#' :: s => (s.dropWhile Text.isBlank).head?
    | s => s.head?
  else s.head?

/-- Read the end of a range behind its dash, and check it. -/
def range? (m : Modes) (first : Atom) (s : List Char) : Option (List Char) :=
  match first, Atom.read? m (m.skip s) with
  | .letter low a, some (.letter high b, rest) =>
    let areMembers := (Atom.letter low a).isMember m && (Atom.letter high b).isMember m
    if low ≤ high && areMembers then some rest else none
  | _, _ => none

/-- Read a character, a class or a range. -/
def member? (m : Modes) (s : List Char) : Option (List Char) :=
  match Atom.read? m s with
  | none => none
  | some (first, rest) =>
    let rest := m.skip rest
    let single := if first.isMember m then some rest else none
    match rest with
    | '-' :: tail =>
      if (peek? m tail).any (fun c => c = ']' || c = '-') then single else range? m first tail
    | _ => single

/-- Read the rest of a set, behind what the open brackets already hold, the innermost apart. -/
def setRest? (m : Modes) :
    Nat → Bracket → List Bracket → List Char → Option (Nat × List Char)
  | 0, _, _, _ => none
  | fuel + 1, b, others, s =>
    match m.skip s with
    | [] => none
    | '[' :: s =>
      match namedClass? s with
      | some (negated, rest) =>
        let isMember := if negated then canNegate m false else (Atom.letter 'a' false).isMember m
        if isMember then setRest? m fuel (b.add 0) others rest else none
      | none =>
        match openSet? m false s with
        | some (inner, rest) => setRest? m fuel inner (b :: others) rest
        | none => none
    | ']' :: s =>
      match others with
      | [] => some (b.depth + 1, s)
      | outer :: others => setRest? m fuel (outer.add (b.depth + 1)) others s
    | '&' :: '&' :: s | '-' :: '-' :: s | '~' :: '~' :: s => setRest? m fuel b.combine others s
    | s =>
      match member? m s with
      | some rest => setRest? m fuel (b.add 0) others rest
      | none => none

/-- Read a set, behind its opening bracket. -/
def set? (m : Modes) (s : List Char) : Option (Nat × List Char) :=
  match openSet? m true s with
  | some (b, rest) => setRest? m (s.length + 1) b [] rest
  | none => none

end Mvc.Log.Pattern
