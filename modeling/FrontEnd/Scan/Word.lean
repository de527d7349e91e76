import FrontEnd.Scan.Basic

/-!
# Words and symbols

A word is a name, a keyword, a truth value or, with a `!` right after it, a macro. A label is a
`#` and a name. A symbol is the longest text that the table of symbols lists.
-/

namespace FrontEnd.Scan

/-- Reads a label. -/
def label : Scan Token := do
  let start ← cursor
  skip 1
  let name ← takeWhile Text.isNameChar
  match name with
  | c :: _ =>
    if Text.isNameStart c then tokenFrom start .label (.text (String.ofList name))
    else throw (invalid start.pos)
  | [] => throw (invalid start.pos)
where
  invalid (place : Position) : Diagnostic :=
    Diagnostic.lexical .invalidLabel (Span.new place (place.offset + 1))
      Code.invalidLabel.explanation

/-- The kind and value of a word without a `!`. -/
def classifyWord (word : String) : TokenKind × TokenValue :=
  if word = "true" then (.booleanLiteral, .bool true)
  else if word = "false" then (.booleanLiteral, .bool false)
  else
    match TokenKind.keyword? word with
    | some kind => (kind, .none)
    | none => (.identifier, .text word)

/-- Reads a word. A `!` right after a name makes it a macro, whatever follows. -/
def word : Scan Token := do
  let start ← cursor
  let name ← takeWhile Text.isNameChar
  let here ← cursor
  if here.peek? = some '!' then
    skip 1
    tokenFrom start .macroTag (.text (String.ofList name ++ "!"))
  else
    let (kind, value) := classifyWord (String.ofList name)
    tokenFrom start kind value

/-- The longest symbol that starts with the symbol `text` of the given kind and goes on with the
given characters, and its length. -/
def longestSymbol (kind : TokenKind) (text : List Char) : List Char → TokenKind × Nat
  | [] => (kind, text.length)
  | c :: rest =>
    match TokenKind.symbol? (text ++ [c]) with
    | some longer => longestSymbol longer (text ++ [c]) rest
    | none => (kind, text.length)

/-- Reads a symbol that starts with the character `first`. -/
def symbol (first : Char) : Scan Token := do
  let start ← cursor
  match TokenKind.symbol? [first] with
  | none =>
    throw (Diagnostic.lexical .invalidCharacter start.spanOfNext
      ("Invalid character : '" ++ first.toString ++ "'"))
  | some kind =>
    let (kind, length) := longestSymbol kind [first] (start.rest.drop 1)
    skip length
    tokenFrom start kind .none

end FrontEnd.Scan
