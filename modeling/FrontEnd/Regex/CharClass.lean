import FrontEnd.Regex.Escape

/-!
# Character classes of a regular expression

A class lists its members between brackets: characters, ranges, shorthands, names of ASCII classes
and further classes. Two lists can be joined by `&&`, `--` and `~~`. A closing bracket and hyphens
at the start of a class are members.

What is read is measured by its depth, as the depth of an expression is limited.
-/

namespace FrontEnd.Regex

/-- The depth of some things that stand side by side. One alone does not add to it. -/
def depthOf : List Nat → Nat
  | [] => 0
  | [depth] => depth
  | depths => depths.foldl max 0 + 1

/-- An open class. -/
structure OpenClass where
  /-- The depth of what stands before the last operator. -/
  left : Option Nat := none
  /-- The depths of the members since. -/
  members : List Nat := []
  /-- Nothing but hyphens has been read so far. -/
  atStart : Bool := true
  deriving DecidableEq, Repr

namespace OpenClass

/-- The depth of all that has been read of a class. -/
def depth (k : OpenClass) : Nat :=
  match k.left with
  | none => depthOf k.members
  | some left => max left (depthOf k.members) + 1

/-- A class with one more member. -/
def add (k : OpenClass) (depth : Nat) : OpenClass :=
  { k with members := depth :: k.members, atStart := false }

/-- A class after an operator. -/
def join (k : OpenClass) : OpenClass :=
  ⟨some k.depth, [], false⟩

/-- Whether a character is a member because it stands at the start. -/
def takesAtStart (k : OpenClass) (c : Char) : Bool :=
  k.atStart && (c == '-' || c == ']' && k.members.isEmpty)

end OpenClass

/-- The names of the classes of ASCII characters. -/
def classNames : List String :=
  ["alnum", "alpha", "ascii", "blank", "cntrl", "digit", "graph", "lower", "print", "punct",
    "space", "upper", "word", "xdigit"]

/-- Reads a named class such as `[:alpha:]` or `[:^alpha:]`, after its bracket, and whether it is
negated. -/
def readClassName? : List Char → Option (Bool × List Char)
  | ':' :: text =>
    let negated := text.head? == some '^'
    let text := if negated then text.tail else text
    let name := String.ofList (text.takeWhile (· != ':'))
    match text.dropWhile (· != ':') with
    | ':' :: ']' :: rest => if classNames.contains name then some (negated, rest) else none
    | _ => none
  | _ => none

/-- Reads the start of a class after its bracket. -/
def openClass? (m : Mode) (text : List Char) : Option (OpenClass × List Char) :=
  match m.skip text with
  | '^' :: rest => if m.takesNegation then some ({}, rest) else none
  | rest => some ({}, rest)

/-- Reads a member, or an end of a range. -/
def readMember? (m : Mode) : List Char → Option (Escape × List Char)
  | [] => none
  | '\\' :: rest => readEscape? m rest
  | c :: rest => some (.char c false, rest)

/-- Whether what has been read may be a member on its own. -/
def takesAlone (m : Mode) : Escape → Bool
  | .char c _ => m.takesMember c
  | .shorthand negated => m.takesShorthand negated
  | .textEdge | .wordEdge => false

/-- Whether what has been read may be the two ends of a range. -/
def takesRange (m : Mode) : (first last : Escape) → Bool
  | .char a _, .char b _ => a ≤ b && m.takesMember a && m.takesMember b
  | _, _ => false

/-- Reads a member or a range of members. -/
def readMembers? (m : Mode) (text : List Char) : Option (List Char) := do
  let (first, rest) ← readMember? m text
  let alone : Option (List Char) := if takesAlone m first then some rest else none
  match m.skip rest with
  | '-' :: after =>
    if [some ']', some '-'].contains (m.peek? after) then alone
    else
      let (last, rest) ← readMember? m (m.skip after)
      if takesRange m first last then some rest else none
  | _ => alone

/-- How far a class has been read. -/
inductive ClassProgress where
  /-- In a class, with those around it. -/
  | inside (k : OpenClass) (outer : List OpenClass)
  | closed (depth : Nat)

/-- Takes the next piece of a class. -/
def classStep? (m : Mode) (k : OpenClass) (outer : List OpenClass) (text : List Char) :
    Option (ClassProgress × List Char) :=
  match m.skip text with
  | [] => none
  | c :: rest =>
    if k.takesAtStart c then
      if m.takesMember c then some (.inside { k.add 0 with atStart := c == '-' } outer, rest)
      else none
    else
      match c, rest with
      | '[', rest =>
        match readClassName? rest with
        | some (negated, rest) =>
          if m.takesNamedClass negated then some (.inside (k.add 0) outer, rest) else none
        | none =>
          (openClass? m rest).map fun (inner, rest) => (.inside inner (k :: outer), rest)
      | ']', rest =>
        match outer with
        | [] => some (.closed (k.depth + 1), rest)
        | around :: outer => some (.inside (around.add (k.depth + 1)) outer, rest)
      | '&', '&' :: rest | '-', '-' :: rest | '~', '~' :: rest =>
        some (.inside k.join outer, rest)
      | c, rest => (readMembers? m (c :: rest)).map fun rest => (.inside (k.add 0) outer, rest)

/-- Reads the rest of a class in at most so many steps: its depth, and what follows it. -/
def readClassRest? (m : Mode) : (steps : Nat) → OpenClass → List OpenClass → List Char →
    Option (Nat × List Char)
  | 0, _, _, _ => none
  | steps + 1, k, outer, text => do
    match ← classStep? m k outer text with
    | (.closed depth, rest) => return (depth, rest)
    | (.inside k outer, rest) => readClassRest? m steps k outer rest

/-- Reads a class after its bracket: its depth, and what follows it. Every step takes a
character. -/
def readClass? (m : Mode) (text : List Char) : Option (Nat × List Char) := do
  let (k, rest) ← openClass? m text
  readClassRest? m (rest.length + 1) k [] rest

end FrontEnd.Regex
