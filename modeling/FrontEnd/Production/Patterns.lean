import FrontEnd.Production.Comma

/-!
# Reading patterns
-/

namespace FrontEnd.Production

open Parse

/-- The messages of list patterns. -/
def listPatternRules : CommaRules where
  leading := (.listPatternComma, "Leading / double commas are not allowed within list patterns.")
  separator :=
    (.listPatternSeparator, "A list pattern's elements should be separated by commas")

/-- The messages of object patterns. -/
def objectPatternRules : CommaRules where
  leading :=
    (.objectPatternComma, "Leading / double commas are not allowed within object patterns.")
  separator := (.objectPatternSeparator,
    "An object pattern's property patterns should be separated by commas")

/-- Reads a field of an object pattern, `x` or `x: pattern`. -/
def objectField (pattern : Parse Pattern) : Parse (Field Pattern) := do
  let name ← identifier "expected a property name"
  if ← eat .colon then return ⟨name, some (← pattern)⟩ else return ⟨name, none⟩

/-- Reads the pattern that a token opens. -/
def openedPattern (pattern : Parse Pattern) (opening : PatternOpening) (token : Token) :
    Parse Pattern := do
  match opening with
  | .named =>
    let name ← identifier "expected a pattern name"
    let whole ← pattern
    return ⟨.named name whole, ← spanFrom token.span⟩
  | .plain => return ⟨.name token.ident, token.span⟩
  | .list =>
    let patterns ← commaSeparated .rightBracket listPatternRules pattern
    return ⟨.list patterns, ← spanFrom token.span⟩
  | .object =>
    let fields ← commaSeparated .rightBrace objectPatternRules (objectField pattern)
    return ⟨.object fields, ← spanFrom token.span⟩

/-- The failure to find a pattern at a token. -/
def noPattern (token : Token) : Diagnostic :=
  Diagnostic.grammatical .expectedPattern token.span
    ("Could not parse : '" ++ token.lexeme ++ "' (expected a pattern)")

/-- Consumes a token that opens a pattern. -/
def patternOpener : Parse (Token × PatternOpening) := do
  let grammar := (← read).grammar
  accept (fun t => (grammar.pattern? t.kind).map (t, ·)) noPattern

/-- Reads a pattern whose sub-patterns are read by `sub`. -/
def patternLayer (sub : Parse Pattern) : Parse Pattern := do
  let (token, opening) ← patternOpener
  traced opening.name token (openedPattern sub opening token)

/-- Reads a pattern that nests at most `fuel` deep. -/
def patternWithin : Nat → Parse Pattern
  | 0 => exhausted
  | fuel + 1 => patternLayer (patternWithin fuel)

/-- Reads a pattern. -/
def pattern : Parse Pattern := do
  patternWithin (← read).limit

end FrontEnd.Production
