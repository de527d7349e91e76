import FrontEnd.Grammar.Table
import FrontEnd.Scan.Token

/-!
# The token stream

The parser reads tokens one after the other, looks ahead, and sometimes goes back. The stream keeps
every token it has read from the source, so a token is never scanned twice, and its reading place
is a number of tokens. Tokens are scanned when they are first looked at and no earlier: a fault in
the source shows only where the parser gets to it.
-/

namespace FrontEnd

/-- A token, and the cursor in front of it. -/
structure Lexed where
  token : Token
  start : Cursor

/-- The tokens read so far, the number of those consumed, and what is left to scan. -/
structure Stream where
  reader : Reader
  buffer : Array Lexed
  index : Nat

namespace Stream

/-- The stream in front of a reader. -/
def ofReader (reader : Reader) : Stream :=
  ⟨reader, #[], 0⟩

/-- Writes an event to the journal. -/
def record (s : Stream) (event : Event) : Stream :=
  { s with reader := s.reader.record event }

/-- The place of the last consumed token. -/
def previousSpan (s : Stream) : Span :=
  match s.index with
  | 0 => Span.emptyAt Position.start
  | i + 1 => (s.buffer[i]?.map (·.token.span)).getD (Span.emptyAt Position.start)

/-- The cursor in front of the first token that is not consumed. -/
def resumeCursor (s : Stream) : Cursor :=
  match s.buffer[s.index]? with
  | some next => next.start
  | none => s.reader.cursor

end Stream

/-- What does not change during a parse: the grammar, the action that reads expressions in template
strings, and a number that no chain of productions and no list of elements exceeds. -/
structure Session where
  grammar : Grammar
  embedded : Option (Scan Expr)
  limit : Nat

/-- A parsing action. When it fails, the stream stays where the failure was found. -/
abbrev Parse := ReaderT Session (EStateM Diagnostic Stream)

namespace Parse

/-- Runs a scanning action on the source behind the stream. -/
def scanning {α : Type} (action : Scan α) : Parse α := fun _ s =>
  match action s.reader with
  | .ok a reader => .ok a { s with reader := reader }
  | .error d reader => .error d { s with reader := reader }

/-- Scans one more token. -/
def scanNext : Parse Token := do
  scanning Scan.skipGap
  let start ← scanning Scan.cursor
  let t ← scanning (Scan.tokenHere (← read).embedded)
  modify fun s => { s with buffer := s.buffer.push ⟨t, start⟩ }
  return t

/-- Scans `n` more tokens and then one to return. -/
def scanPast : Nat → Parse Token
  | 0 => scanNext
  | n + 1 => do
    discard scanNext
    scanPast n

/-- The token `n` places after the next one, without consuming it. -/
def peekAhead (n : Nat) : Parse Token := do
  let s ← get
  match s.buffer[s.index + n]? with
  | some lexed => return lexed.token
  | none => scanPast (s.index + n - s.buffer.size)

/-- The next token, without consuming it. -/
def peek : Parse Token :=
  peekAhead 0

/-- The kind of the next token. -/
def peekKind : Parse TokenKind :=
  return (← peek).kind

/-- Consumes the next token. -/
def next : Parse Token := do
  let t ← peek
  modify fun s => { s with index := s.index + 1 }
  return t

/-- Whether the next token is of a kind. -/
def nextIs (kind : TokenKind) : Parse Bool :=
  return (← peekKind) == kind

/-- Consumes the next token if it is selected, and gives back what it was selected as. -/
def takeIf {α : Type} (select : Token → Option α) : Parse (Option α) := do
  match select (← peek) with
  | some a =>
    discard next
    return some a
  | none => return none

/-- Consumes the next token if it is of a kind, and gives it back. -/
def take? (kind : TokenKind) : Parse (Option Token) :=
  takeIf (Token.ofKind? kind)

/-- Consumes the next token if it is of a kind, and says whether it was. -/
def eat (kind : TokenKind) : Parse Bool :=
  return (← take? kind).isSome

/-- Consumes the next token, which has to be selected; otherwise it is refused. -/
def accept {α : Type} (select : Token → Option α) (refusal : Token → Diagnostic) : Parse α := do
  let t ← next
  match select t with
  | some a => return a
  | none => throw (refusal t)

/-- The failure to find a token of a kind. -/
def unexpected (expected : TokenKind) (found : Token) (context : String) : Diagnostic :=
  let explanation :=
    match expected.explanation? with
    | some text => " (" ++ text ++ ")"
    | none => ""
  Diagnostic.grammatical .unexpectedToken found.span
    ("Expected TokenType." ++ expected.name ++ explanation ++ ", got '" ++ found.lexeme ++ "' : " ++
      context)

/-- Consumes the next token, which has to be of a kind. -/
def consume (kind : TokenKind) (context : String) : Parse Token :=
  accept (Token.ofKind? kind) (unexpected kind · context)

/-- Consumes an identifier. -/
def identifier (context : String) : Parse Ident :=
  return (← consume .identifier context).ident

/-- The number of tokens consumed. -/
def checkpoint : Parse Nat :=
  return (← get).index

/-- Goes back to where a number of tokens were consumed. -/
def restore (index : Nat) : Parse Unit :=
  modify fun s => { s with index := index }

/-- The range from the start of a span through the last consumed token. -/
def spanFrom (start : Span) : Parse Span :=
  return start.merge (← get).previousSpan

/-- Raises a warning of the parser. -/
def warn (code : Code) (span : Span) (message : String) : Parse Unit :=
  modify (·.record (.warning (Diagnostic.warning .parser code span message)))

/-- Fails with an error of the parser. -/
def refuse {α : Type} (code : Code) (span : Span) (message : String) : Parse α :=
  throw (Diagnostic.grammatical code span message)

/-- Fails at the next token, which is consumed. -/
def refuseNext {α : Type} (code : Code) (message : String) : Parse α := do
  refuse code (← next).span message

/-- Fails because the session's limit is used up. -/
def exhausted {α : Type} : Parse α := do
  throw (Diagnostic.internal (← get).previousSpan "the parser does not get to an end")

/-- Runs a production, and writes to the journal where it starts and how it ends. -/
def traced {α : Type} (production : String) (token : Token) (action : Parse α) : Parse α :=
  fun session s =>
    match action session (s.record (.enter production token.lexeme token.span)) with
    | .ok a s => .ok a (s.record (.leave production true))
    | .error d s => .error d (s.record (.leave production false))

/-- Whether the next token can open an expression. -/
def canReadExpression : Parse Bool := do
  let kind ← peekKind
  return ((← read).grammar.opening? kind).isSome

end Parse

end FrontEnd
