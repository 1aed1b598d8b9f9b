import Mvc.Log.Pattern.Set
import Mvc.Text.Alphanumeric

/-! # Patterns

The value of a field is matched by a pattern, a regular expression: parts one after the other,
alternatives with bars between them, groups in parentheses, and repetitions. A group may have
a name, which is its own, and may set modes, as may a part that does nothing else.

Patterns occur inside braces and between commas, so they hold no closing brace and no comma;
hence a count of repetitions, which needs the brace, is never complete.
-/

namespace Mvc.Log.Pattern

/-- How deeply a pattern may be nested. -/
def depthLimit : Nat := 250

/-- The alternatives read so far, as far as what follows depends on them. -/
structure Group where
  /-- How deeply the finished alternatives are nested, if there are any. -/
  finished : Option Nat
  /-- How many parts the alternative at hand has. -/
  count : Nat
  /-- How deeply they are nested. -/
  deepest : Nat
  /-- How deeply the last part is nested, if it is one that can be repeated. -/
  last : Option Nat

namespace Group

/-- A group of which nothing has been read. -/
def fresh : Group := ⟨none, 0, 0, none⟩

/-- One more part. -/
def add (g : Group) (depth : Nat) : Group :=
  { g with count := g.count + 1, deepest := max g.deepest depth, last := some depth }

/-- One more part that only sets modes. -/
def addModes (g : Group) : Group := { g with count := g.count + 1, last := none }

/-- How deeply the alternative at hand is nested. -/
def alternative (g : Group) : Nat := if g.count < 2 then g.deepest else g.deepest + 1

/-- Begin another alternative. -/
def bar (g : Group) : Group := ⟨some (max (g.finished.getD 0) g.alternative), 0, 0, none⟩

/-- How deeply the whole group is nested. -/
def depth (g : Group) : Nat :=
  match g.finished with
  | none => g.alternative
  | some finished => max finished g.alternative + 1

/-- Repeat the last part. -/
def repeat? (g : Group) : Option Group :=
  g.last.map fun depth => { g with deepest := max g.deepest (depth + 1), last := some (depth + 1) }

end Group

/-- How a parenthesis opens. -/
inductive Opening where
  /-- A group, perhaps with a name, and the modes inside. -/
  | group (name : Option (List Char)) (modes : Modes)
  /-- A part that sets modes for what follows in the group around it. -/
  | setting (modes : Modes)

/-- Set a mode to what comes before or behind a dash. Some modes do not matter here. -/
def Modes.set? (m : Modes) (letter : Char) (value : Bool) : Option Modes :=
  if letter = 'i' then some { m with ignoresCase := value }
  else if letter = 'u' then some { m with unicode := value }
  else if letter = 'x' then some { m with spaced := value }
  else if "msUR".toList.contains letter then some m
  else none

/-- Read the letters of modes up to the end of the opening. Every letter occurs once, the dash
    too, and a dash does not come last; `seen` has the characters before, the nearest first. -/
def modes? (m : Modes) (seen : List Char) : List Char → Option (Opening × List Char)
  | [] => none
  | c :: s =>
    if c = ')' || c = ':' then
      if seen.head? = some '-' || (c = ')' && seen.isEmpty) then none
      else some (if c = ')' then .setting m else .group none m, s)
    else if seen.contains c then none
    else if c = '-' then modes? m (c :: seen) s
    else
      match m.set? c (!seen.contains '-') with
      | some m => modes? m (c :: seen) s
      | none => none

/-- Whether a text can be the name of a group. -/
def isGroupName : List Char → Bool
  | [] => false
  | c :: s =>
    (c = '_' || Text.isAlphabetic c) &&
      s.all fun c => c = '_' || c = '.' || c = '[' || c = ']' || Text.isAlphanumeric c

/-- Read the name of a group, behind its first bracket. -/
def named? (m : Modes) (s : List Char) : Option (Opening × List Char) :=
  let name := s.takeWhile (· ≠ '>')
  match s.dropWhile (· ≠ '>') with
  | '>' :: rest => if isGroupName name then some (.group (some name) m, rest) else none
  | _ => none

/-- Read the opening of a parenthesis. A look at what surrounds a match is not known. -/
def opening? (m : Modes) (s : List Char) : Option (Opening × List Char) :=
  match m.skip s with
  | '?' :: 'P' :: '<' :: rest => named? m rest
  | '?' :: '<' :: rest => named? m rest
  | '?' :: rest => modes? m [] rest
  | rest => some (.group none m, rest)

/-- Where the reader of a pattern stands. -/
structure Reader where
  /-- The innermost group. -/
  group : Group
  /-- The groups around it, from the inside, each with the modes that return behind the one
      inside it. -/
  outer : List (Group × Modes)
  /-- The names of groups so far. -/
  names : List (List Char)
  modes : Modes

namespace Reader

/-- A reader at the front of a pattern. -/
def start : Reader := ⟨.fresh, [], [], .usual⟩

/-- One more part. -/
def add (r : Reader) (depth : Nat) : Reader := { r with group := r.group.add depth }

/-- Enter a group, or set modes. -/
def enter? (r : Reader) : Opening → Option Reader
  | .setting modes => some { r with group := r.group.addModes, modes }
  | .group name modes =>
    if name.any r.names.contains then none
    else
      some
        { group := .fresh, outer := (r.group, r.modes) :: r.outer
          names := name.toList ++ r.names, modes }

/-- Leave a group. -/
def leave? (r : Reader) : Option Reader :=
  match r.outer with
  | [] => none
  | (around, modes) :: outer =>
    some { r with group := around.add (r.group.depth + 1), outer, modes }

/-- Whether the reader can stop. -/
def isDone (r : Reader) : Bool := r.outer.isEmpty && r.group.depth ≤ depthLimit

/-- Read the part that begins a text, which is not empty. -/
def step? (r : Reader) : List Char → Option (Reader × List Char)
  | '(' :: s => do
    let (opening, s) ← opening? r.modes s
    return (← r.enter? opening, s)
  | ')' :: s => do return (← r.leave?, s)
  | '|' :: s => some ({ r with group := r.group.bar }, s)
  | '[' :: s => do
    let (depth, s) ← set? r.modes s
    return (r.add depth, s)
  | '*' :: '?' :: s | '+' :: '?' :: s | '?' :: '?' :: s | '*' :: s | '+' :: s | '?' :: s => do
    return ({ r with group := ← r.group.repeat? }, s)
  | '\x7b' :: _ => none
  | '.' :: s => if r.modes.unicode then some (r.add 0, s) else none
  | '^' :: s | '$' :: s => some (r.add 0, s)
  | s => do
    let (atom, s) ← Atom.read? r.modes s
    if atom.isKnown r.modes then some (r.add 0, s) else none

/-- Read a pattern to its end. -/
def accepts (r : Reader) : Nat → List Char → Bool
  | 0, _ => false
  | fuel + 1, s =>
    match r.modes.skip s with
    | [] => r.isDone
    | s =>
      match r.step? s with
      | some (r, rest) => accepts r fuel rest
      | none => false

end Reader

/-- Whether a text is a pattern; every part of one takes a character. -/
def isPattern (s : List Char) : Bool := Reader.start.accepts (s.length + 1) s

end Mvc.Log.Pattern
