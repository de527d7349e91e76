import FrontEnd.Text.Blank

/-!
# Modes of a regular expression

A regular expression is read in a mode, which its flags set: `(?x)` from there to the end of the
group, `(?x:…)` for a group of its own. The mode decides what an expression may hold. As long as its
characters are those of Unicode, it may hold nothing that takes a table of Unicode to tell: no
characters whose case is ignored, no shorthands and no word boundaries. If they are bytes, it may
hold nothing that matches a part of a character beyond ASCII.
-/

namespace FrontEnd.Regex

/-- A flag of an expression. -/
inductive Flag where
  | ignoreCase
  | multiLine
  | dotAll
  | lazy
  | unicode
  | carriageReturns
  | spaced
  deriving DecidableEq, Repr

/-- The flag that a letter stands for. -/
def Flag.ofChar? : Char → Option Flag
  | 'i' => some ignoreCase
  | 'm' => some multiLine
  | 's' => some dotAll
  | 'U' => some lazy
  | 'u' => some unicode
  | 'R' => some carriageReturns
  | 'x' => some spaced
  | _ => none

/-- The flags on which it depends what an expression may hold. -/
structure Mode where
  /-- The case of characters is ignored. -/
  ignoreCase : Bool := false
  /-- Characters are those of Unicode, and not bytes. -/
  unicode : Bool := true
  /-- Blanks and comments may stand between the parts. -/
  spaced : Bool := false
  deriving DecidableEq, Repr

/-- What is left after blanks and comments. A comment runs from `#` to the end of the line. -/
def skipGap (inComment : Bool) : List Char → List Char
  | [] => []
  | c :: rest =>
    if inComment then skipGap (c != '\n') rest
    else if Text.isBlank c then skipGap false rest
    else if c = '#' then skipGap true rest
    else c :: rest

namespace Mode

/-- The mode after a flag has been switched on or off. -/
def set (m : Mode) (flag : Flag) (on : Bool) : Mode :=
  match flag with
  | .ignoreCase => { m with ignoreCase := on }
  | .unicode => { m with unicode := on }
  | .spaced => { m with spaced := on }
  | .multiLine | .dotAll | .lazy | .carriageReturns => m

/-- What is left after what may stand between two parts. -/
def skip (m : Mode) (text : List Char) : List Char :=
  if m.spaced then skipGap false text else text

/-- The character by which it is told whether a hyphen makes a range: the next one, or in a spaced
expression the first one after blanks and one `#`, if there is one. -/
def peek? (m : Mode) (text : List Char) : Option Char :=
  if m.spaced then
    let rest := text.dropWhile Text.isBlank
    let rest := if rest.head? = some '#' then rest.tail.dropWhile Text.isBlank else rest
    rest.head? <|> text.head?
  else text.head?

/-- Whether a character may stand for itself, outside of classes. A byte is given by its number. -/
def takesChar (m : Mode) (c : Char) (isByte : Bool) : Bool :=
  if m.unicode then !m.ignoreCase else !isByte || c.toNat < 0x80

/-- Whether a character may be a member of a class, or an end of a range of members. -/
def takesMember (m : Mode) (c : Char) : Bool :=
  if m.unicode then !m.ignoreCase else c.toNat < 0x80

/-- Whether a shorthand for a class, such as `\d`, may be used. -/
def takesShorthand (m : Mode) (negated : Bool) : Bool :=
  !m.unicode && !negated

/-- Whether the name of a class of ASCII characters, such as `[:alpha:]`, may be used. -/
def takesNamedClass (m : Mode) (negated : Bool) : Bool :=
  if m.unicode then !m.ignoreCase else !negated

/-- Whether a class may be negated. -/
def takesNegation (m : Mode) : Bool :=
  m.unicode

/-- Whether the dot may be used, which stands for any character. -/
def takesDot (m : Mode) : Bool :=
  m.unicode

/-- Whether the edges of words may be asked for. -/
def takesWordEdge (m : Mode) : Bool :=
  !m.unicode

end Mode

end FrontEnd.Regex
