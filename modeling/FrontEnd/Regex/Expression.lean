import FrontEnd.Regex.CharClass
import FrontEnd.Text.Alphanumeric

/-!
# Regular expressions

Whether a text is a regular expression that can be used. An expression is a list of alternatives
with `|` between them, an alternative is a sequence of parts, and a part is a character, a class, a
place in the text, a group in parentheses or a repetition. Only repetitions without a count are
known, as a count stands in braces. An expression may not nest too deeply.
-/

namespace FrontEnd.Regex

/-- A part of a sequence, as far as it matters to what follows it. -/
structure Part where
  depth : Nat
  /-- A list of flags cannot be repeated. -/
  isRepeatable : Bool
  deriving DecidableEq, Repr

/-- What has been read of a group, or of the whole expression. -/
structure OpenGroup where
  /-- The depths of the alternatives that are complete. -/
  alternatives : List Nat := []
  /-- The parts of the last alternative, the latest first. -/
  parts : List Part := []
  deriving DecidableEq, Repr

namespace OpenGroup

/-- A group with one more part. -/
def add (g : OpenGroup) (depth : Nat) : OpenGroup :=
  { g with parts := ⟨depth, true⟩ :: g.parts }

/-- A group with one more list of flags. -/
def addFlags (g : OpenGroup) : OpenGroup :=
  { g with parts := ⟨0, false⟩ :: g.parts }

/-- The depths of all alternatives. -/
def depths (g : OpenGroup) : List Nat :=
  depthOf (g.parts.map (·.depth)) :: g.alternatives

/-- A group after the sign between two alternatives. -/
def nextAlternative (g : OpenGroup) : OpenGroup :=
  ⟨g.depths, []⟩

/-- A group whose last part is repeated. -/
def repeat? (g : OpenGroup) : Option OpenGroup :=
  match g.parts with
  | ⟨depth, true⟩ :: parts => some { g with parts := ⟨depth + 1, true⟩ :: parts }
  | _ => none

end OpenGroup

/-- What a parenthesis starts. -/
inductive Opening where
  /-- A group, with its name if it has one. -/
  | group (name : Option String) (inside : Mode)
  /-- Flags for what follows. -/
  | flags (after : Mode)

/-- Reads flags up to a colon or a parenthesis, each at most once. A minus sign, of which there is
one at most, switches off those after it. -/
def readFlags? (seen : List Flag) (off lastIsSign : Bool) (m : Mode) :
    List Char → Option (Opening × List Char)
  | [] => none
  | ':' :: rest => if lastIsSign then none else some (.group none m, rest)
  | ')' :: rest => if lastIsSign || seen.isEmpty then none else some (.flags m, rest)
  | '-' :: rest => if off then none else readFlags? seen true true m rest
  | c :: rest => do
    let flag ← Flag.ofChar? c
    if seen.contains flag then none else readFlags? (flag :: seen) off false (m.set flag !off) rest

/-- Whether a character can start the name of a group. -/
def isNameStart (c : Char) : Bool :=
  c == '_' || Text.isAlphabetic c

/-- Whether a character can stand in the name of a group. -/
def isNameChar (c : Char) : Bool :=
  c == '_' || c == '.' || c == '[' || c == ']' || Text.isAlphanumeric c

/-- Reads the name of a group, up to an angle bracket. -/
def readName? (m : Mode) (text : List Char) : Option (Opening × List Char) :=
  let name := text.takeWhile (· != '>')
  match text.dropWhile (· != '>') with
  | _ :: rest =>
    if name.head?.any isNameStart && name.all isNameChar then
      some (.group (some (String.ofList name)) m, rest)
    else none
  | [] => none

/-- Reads what follows the parenthesis of a group. -/
def readOpening? (m : Mode) (text : List Char) : Option (Opening × List Char) :=
  match m.skip text with
  | '?' :: 'P' :: '<' :: rest => readName? m rest
  | '?' :: '<' :: rest => readName? m rest
  | '?' :: rest => readFlags? [] false false m rest
  | rest => some (.group none m, rest)

/-- How far an expression has been read. -/
structure Reading where
  mode : Mode := {}
  /-- The names of groups so far. -/
  names : List String := []
  group : OpenGroup := {}
  /-- The groups around it, each with the mode to which its end returns. -/
  outer : List (Mode × OpenGroup) := []

namespace Reading

/-- One more part has been read. -/
def add (r : Reading) (depth : Nat) : Reading :=
  { r with group := r.group.add depth }

/-- What follows the parenthesis of a group has been read. No two groups share a name. -/
def open? (r : Reading) : Opening → Option Reading
  | .flags after => some { r with mode := after, group := r.group.addFlags }
  | .group none inside =>
    some { r with mode := inside, group := {}, outer := (r.mode, r.group) :: r.outer }
  | .group (some name) inside =>
    if r.names.contains name then none
    else some ⟨inside, name :: r.names, {}, (r.mode, r.group) :: r.outer⟩

/-- The end of a group has been read. -/
def close? (r : Reading) : Option Reading :=
  match r.outer with
  | [] => none
  | (mode, around) :: outer =>
    some ⟨mode, r.names, around.add (depthOf r.group.depths + 1), outer⟩

/-- An escape has been read. -/
def escape? (r : Reading) : Escape → Option Reading
  | .char c isByte => if r.mode.takesChar c isByte then some (r.add 0) else none
  | .shorthand negated => if r.mode.takesShorthand negated then some (r.add 0) else none
  | .textEdge => some (r.add 0)
  | .wordEdge => if r.mode.takesWordEdge then some (r.add 0) else none

/-- Takes the next piece of an expression, which starts with the given character. -/
def step? (r : Reading) (c : Char) (rest : List Char) : Option (Reading × List Char) :=
  match c with
  | '(' => do
    let (opening, rest) ← readOpening? r.mode rest
    return (← r.open? opening, rest)
  | ')' => do return (← r.close?, rest)
  | '|' => some ({ r with group := r.group.nextAlternative }, rest)
  | '[' => do
    let (depth, rest) ← readClass? r.mode rest
    return (r.add depth, rest)
  | '?' | '*' | '+' => do
    let group ← r.group.repeat?
    return ({ r with group }, if rest.head? = some '?' then rest.tail else rest)
  | '{' => none
  | '\\' => do
    let (escape, rest) ← readEscape? r.mode rest
    return (← r.escape? escape, rest)
  | '.' => if r.mode.takesDot then some (r.add 0, rest) else none
  | '^' | '$' => some (r.add 0, rest)
  | c => do return (← r.escape? (.char c false), rest)

/-- Reads the rest of an expression in at most so many steps: its depth. -/
def finish? : (steps : Nat) → Reading → List Char → Option Nat
  | 0, _, _ => none
  | steps + 1, r, text =>
    match r.mode.skip text with
    | [] => if r.outer.isEmpty then some (depthOf r.group.depths) else none
    | c :: rest => do
      let (r, rest) ← r.step? c rest
      r.finish? steps rest

end Reading

/-- The depth of an expression, or none for a text that is no expression. Every step takes a
character. -/
def depth? (text : List Char) : Option Nat :=
  Reading.finish? (text.length + 1) {} text

/-- The depth to which an expression may nest. -/
def deepest : Nat := 250

/-- Whether a text is an expression that can be used. -/
def isUsable (text : List Char) : Bool :=
  (depth? text).any (· ≤ deepest)

end FrontEnd.Regex
