import Mvc.Log.Pattern.Basic
import Mvc.Text.Split

/-! # Log filters

A filter is a list of directives with commas between them. A directive has the form
`target[span{fields}]=level`, of which most parts may be missing: a level alone holds
for every target, a target alone lets everything through. Of the directives that concern an
event the most specific one decides, of two for the same target the later.

The parts of a directive are found in the text without the blanks at its ends, but cut out,
at the same places, of the text with them.
-/

namespace Mvc.Log

/-- How much a filter lets through, from nothing to everything. -/
inductive Level where
  | off | error | warn | info | debug | trace
  deriving DecidableEq, Repr

/-- The position of a level, counted from nothing. -/
def Level.rank : Level → Nat
  | off => 0
  | error => 1
  | warn => 2
  | info => 3
  | debug => 4
  | trace => 5

/-- The level with a name. -/
def Level.named : List (String × Level) :=
  [("error", error), ("warn", warn), ("info", info), ("debug", debug), ("trace", trace),
    ("off", off)]

/-- The level with a number. -/
def Level.numbered : List Level := [off, error, warn, info, debug, trace]

/-- A natural number in decimal, perhaps with a plus. -/
def natural? (s : List Char) : Option Nat :=
  let digits := match s with
    | '+' :: s => s
    | s => s
  if digits.isEmpty || !digits.all Char.isDigit then none
  else some (digits.foldl (fun n c => 10 * n + (c.toNat - 48)) 0)

/-- The level that a text denotes, by its number or by its name in letters of either case. -/
def Level.ofText? (text : String) : Option Level :=
  match (natural? text.toList).bind fun n => numbered[n]? with
  | some level => some level
  | none => if text.isEmpty then some error else named.lookup text.toLower

/-- A part of a filter. -/
structure Directive where
  level : Level
  /-- What the names of the targets begin with. -/
  target : Option String
  /-- The span inside which events are let through. -/
  span : Option String
  /-- The fields that are asked for, each with whether a value is asked for too. -/
  fields : List (String × Bool)

/-- The directive that lets everything through. -/
def Directive.everything : Directive := ⟨.trace, none, none, []⟩

/-- Where the reader of a directive stands; each place notes where the part at hand begins. -/
inductive Place where
  | start
  | name (first : Nat)
  | span (first : Nat)
  | field (first : Nat)
  | fieldsDone
  | spanDone
  | level (first : Nat)

/-- The bytes of a text from one position up to another; none if that cuts a character. -/
def slice? (text : String) (first last : Nat) : Option String :=
  String.fromUTF8? (text.toUTF8.extract first last)

/-- Whether a directive may begin with a character. -/
def beginsName (c : Char) : Bool := c = '-' || c = ':' || c = '_' || Text.isAlphanumeric c

/-- Whether a text is an exponent with its mark, or empty. -/
def isExponent : List Char → Bool
  | [] => true
  | c :: s =>
    let digits := match s with
      | '+' :: s | '-' :: s => s
      | s => s
    (c = 'e' || c = 'E') && !digits.isEmpty && digits.all Char.isDigit

/-- Whether a text is a number in decimal without a sign. -/
def isUnsigned (s : List Char) : Bool :=
  let whole := s.takeWhile Char.isDigit
  let (fraction, rest) := match s.dropWhile Char.isDigit with
    | '.' :: s => (s.takeWhile Char.isDigit, s.dropWhile Char.isDigit)
    | s => ([], s)
  (!whole.isEmpty || !fraction.isEmpty) && isExponent rest

/-- Whether a text is a number with a plus. Of the numbers these alone are no patterns. -/
def isPlusNumber : List Char → Bool
  | '+' :: s => ["inf", "infinity", "nan"].contains (String.ofList s).toLower || isUnsigned s
  | _ => false

/-- The fields that a text asks for: a name, and perhaps a value, which is a number, a truth
    value or a pattern. -/
def readField? (text : String) : Option (String × Bool) :=
  if text.isEmpty then none
  else
    match Text.pieces (· = '=') text.toList with
    | [] => none
    | [name] => some (String.ofList name, false)
    | name :: value :: _ =>
      if isPlusNumber value || Pattern.isPattern value then some (String.ofList name, true)
      else none

/-- Read one character, which begins at a position. -/
def Directive.step? (text : String) (d : Directive) (place : Place) (position : Nat) (c : Char) :
    Option (Directive × Place) :=
  match place with
  | .start =>
    if c = '[' then some (d, .span (position + 1))
    else if beginsName c then some (d, .name position)
    else none
  | .name first =>
    if c = '=' then do
      return ({ d with target := some (← slice? text first position) }, .level (position + 1))
    else if c = '[' then do
      return ({ d with target := some (← slice? text first position) }, .span (position + 1))
    else some (d, .name first)
  | .span first =>
    if c = ']' then do
      return ({ d with span := some (← slice? text first position) }, .spanDone)
    else if c = '\x7b' then do
      let name ← slice? text first position
      return ({ d with span := if name.isEmpty then none else some name }, .field (position + 1))
    else some (d, .span first)
  | .field first =>
    if c = '\x7d' then do
      let field ← readField? (← slice? text first position)
      return ({ d with fields := d.fields ++ [field] }, .fieldsDone)
    else some (d, .field first)
  | .fieldsDone => if c = ']' then some (d, .spanDone) else none
  | .spanDone => if c = '=' then some (d, .level (position + 1)) else none
  | .level first => some (d, .level first)

/-- Read the characters from a position on. -/
def Directive.scan? (text : String) (d : Directive) (place : Place) (position : Nat) :
    List Char → Option (Directive × Place)
  | [] => some (d, place)
  | c :: s =>
    match d.step? text place position c with
    | none => none
    | some (d, place) => scan? text d place (position + c.utf8Size) s

/-- The directive at the end of the text: a level ends it, a name is a level or a target. -/
def Directive.finish? (text : String) (d : Directive) : Place → Option Directive
  | .name first => do
    let name ← slice? text first text.utf8ByteSize
    match Level.ofText? name with
    | some level => return { d with level, target := none }
    | none => return { d with target := some name }
  | .level first => do
    let name ← slice? text first text.utf8ByteSize
    if name.isEmpty then return { d with level := .trace }
    else return { d with level := ← Level.ofText? name }
  | .spanDone => some d
  | _ => none

/-- The directive that a text denotes. -/
def Directive.parse? (text : String) : Option Directive := do
  let (d, place) ← Directive.everything.scan? text .start 0 (Text.trim text.toList)
  d.finish? text place

/-- The directives of a filter; empty ones do not count. -/
def parseFilter? (text : String) : Option (List Directive) :=
  (((Text.pieces (· = ',') text.toList).filter fun piece => !piece.isEmpty).map
    String.ofList).mapM Directive.parse?

/-- Whether a directive decides about events of a target outside of all spans that have some
    fields. One that asks for values decides about spans only. -/
def Directive.concerns (d : Directive) (target : String) (fields : List String) : Bool :=
  d.span.isNone && d.fields.all (fun (name, hasValue) => fields.contains name && !hasValue) &&
    (d.target.getD "").toList.isPrefixOf target.toList

/-- Whether the first of two directives is less specific than the second or as specific. -/
def Directive.yieldsTo (a b : Directive) : Bool :=
  let length (d : Directive) : Nat :=
    match d.target with
    | some target => target.utf8ByteSize + 1
    | none => 0
  length a < length b || (length a = length b && a.fields.length ≤ b.fields.length)

/-- The most specific of some directives, the last one if there are several. -/
def mostSpecific? : List Directive → Option Directive
  | [] => none
  | d :: rest =>
    match mostSpecific? rest with
    | some e => if d.yieldsTo e then some e else some d
    | none => some d

/-- Whether a filter lets an event through. -/
def lets (filter : List Directive) (target : String) (fields : List String) (level : Level) :
    Bool :=
  match mostSpecific? (filter.filter fun d => d.concerns target fields) with
  | some d => level.rank ≤ d.level.rank
  | none => false

end Mvc.Log
