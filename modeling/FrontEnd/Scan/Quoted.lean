import FrontEnd.Scan.Basic

/-!
# Strings and characters

A string stands in double quotes and a character in single quotes. A backslash gives the character
after it another meaning; an escaped newline in a string stands for nothing.
-/

namespace FrontEnd.Scan

/-- What an escaped character stands for in a string. -/
def unescape? : Char → Option (List Char)
  | '\\' => some ['\\']
  | '\n' => some []
  | 'n' => some ['\n']
  | '\'' => some ['\'']
  | '"' => some ['"']
  | '\x60' => some ['\x60']
  | _ => none

/-- The failure to close a string. -/
def endlessString (opened : Position) : Diagnostic :=
  (Diagnostic.lexical .unterminatedString (Span.new opened (opened.offset + 1))
    "Endless string").withNote "the string was started here"

/-- The failure to give an escaped character a meaning. -/
def invalidEscape (span : Span) (escaped : Char) : Diagnostic :=
  Diagnostic.lexical .invalidEscape span ("Invalid escape sequence: \\" ++ escaped.toString)

/-- Reads the rest of a string through its closing quote. The text read so far is kept in
reverse. -/
def stringBody (opened : Position) :
    List Char → Position → List Char → EStateM.Result Diagnostic Cursor (List Char)
  | [], pos, _ => .error (endlessString opened) ⟨[], pos⟩
  | '"' :: rest, pos, text => .ok text.reverse ⟨rest, pos.advance '"'⟩
  | ['\\'], pos, _ => .error (pastEnd (pos.advance '\\')) ⟨[], pos.advance '\\'⟩
  | '\\' :: c :: rest, pos, text =>
    let behind := pos.after ['\\', c]
    match unescape? c with
    | some meaning => stringBody opened rest behind (meaning.reverse ++ text)
    | none => .error (invalidEscape (Span.new pos behind.offset) c) ⟨rest, behind⟩
  | c :: rest, pos, text => stringBody opened rest (pos.advance c) (c :: text)

/-- Reads a string literal. -/
def stringLiteral : Scan Token := do
  let start ← cursor
  skip 1
  let text ← walk fun c => stringBody start.pos c.rest c.pos []
  tokenFrom start .stringLiteral (.text (String.ofList text))

/-- What an escaped character stands for in a character literal. -/
def unescapeChar? : Char → Option Char
  | '\\' => some '\\'
  | 'n' => some '\n'
  | '\'' => some '\''
  | '"' => some '"'
  | '\x60' => some '\x60'
  | _ => none

/-- Reads the character after a backslash in a character literal that opens at `start`, where the
backslash stands at `content`. -/
def charEscape (start content : Position) : Scan Char := do
  let escaped ← advance
  if escaped = '\n' then
    throw (Diagnostic.lexical .escapedNewlineInChar (Span.new start (start.offset + 1))
      "Cannot escape a newline in a character literal")
  else
    match unescapeChar? escaped with
    | some meaning => return meaning
    | none => throw (invalidEscape ((← cursor).spanFrom content) escaped)

/-- Reads what stands between the quotes of a character literal that opens at `start`. -/
def charContent (start : Position) : Scan Char := do
  let content ← cursor
  let c ← advance
  if c = '\'' then
    throw (Diagnostic.lexical .unterminatedChar ((← cursor).spanFrom content.pos)
      "A quote in a character literal must be escaped: write '\\''")
  else if c = '\\' then charEscape start content.pos
  else return c

/-- Reads a character literal. -/
def charLiteral : Scan Token := do
  let start ← cursor
  skip 1
  let c ← charContent start.pos
  let here ← cursor
  if here.peek? = some '\'' then
    skip 1
    tokenFrom start .charLiteral (.char c)
  else
    throw (Diagnostic.lexical .unterminatedChar here.spanOfNext
      "Character literals must contain exactly one character and be closed by '''")

end FrontEnd.Scan
