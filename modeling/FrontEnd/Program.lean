import FrontEnd.Production.Expressions

/-!
# Programs

Scanning and parsing of whole sources. The two depend on each other: the parser takes its tokens
from the scanner, and the scanner leaves the expressions in template strings to the parser. As a
template string is longer than the expressions in it, `embeddedReader` goes one template deeper at
a time, and a source cannot hold more templates inside one another than it has characters.
-/

namespace FrontEnd

/-- Reads one expression at the reading place, with a stream of its own, and stops in front of the
first token that does not belong to it. -/
def readEmbedded (grammar : Grammar) (inner : Option (Scan Expr)) : Scan Expr := fun reader =>
  let session : Session := ⟨grammar, inner, reader.cursor.rest.length + 2⟩
  match Production.expression .lowest session (Stream.ofReader reader) with
  | .ok expr s => .ok expr { s.reader with cursor := s.resumeCursor }
  | .error d s => .error d s.reader

/-- The action that reads expressions in template strings, for templates that nest at most `depth`
deep. -/
def embeddedReader (grammar : Grammar) : Nat → Option (Scan Expr)
  | 0 => none
  | depth + 1 => some (readEmbedded grammar (embeddedReader grammar depth))

/-- The session in which a source is parsed. -/
def Session.ofText (grammar : Grammar) (source : List Char) : Session :=
  ⟨grammar, embeddedReader grammar source.length, source.length + 2⟩

/-- What comes of reading a source: a value or an error, and what happened on the way. -/
structure Outcome (α : Type) where
  result : Except Diagnostic α
  journal : Journal

/-- The warnings raised on the way. -/
def Outcome.warnings {α : Type} (o : Outcome α) : List Diagnostic :=
  o.journal.warnings

/-- Parses a source as a whole program. An empty one has no expression. -/
def parse (source : String) : Outcome (Option Expr) :=
  let text := source.toList
  let session := Session.ofText .standard text
  match Production.program session (Stream.ofReader (Reader.ofText text)) with
  | .ok program s => ⟨.ok program, s.reader.journal⟩
  | .error d s => ⟨.error d, s.reader.journal⟩

/-- The tokens of a source. -/
def tokenize (source : String) : Outcome (List Token) :=
  let text := source.toList
  let embedded := embeddedReader .standard text.length
  match Scan.tokens embedded (text.length + 1) (Reader.ofText text) with
  | .ok tokens r => ⟨.ok tokens, r.journal⟩
  | .error d r => ⟨.error d, r.journal⟩

/-- A scanner that can be asked for one token after the other. -/
structure Tokenizer where
  reader : Reader
  embedded : Option (Scan Expr)
  /-- Whether every character is a token of its own. -/
  raw : Bool
  /-- Whether iteration has come to its end. -/
  finished : Bool

namespace Tokenizer

/-- A tokenizer at the start of a source, with or without a parser for template expressions. -/
def ofText (source : List Char) (embedded : Bool) : Tokenizer :=
  ⟨Reader.ofText source,
    if embedded then embeddedReader .standard source.length else none, false, false⟩

/-- Runs a scanning action. -/
def run {α : Type} (t : Tokenizer) (action : Scan α) : Except Diagnostic α × Tokenizer :=
  match action t.reader with
  | .ok a reader => (.ok a, { t with reader := reader })
  | .error d reader => (.error d, { t with reader := reader })

/-- The next token. -/
def next (t : Tokenizer) : Except Diagnostic Token × Tokenizer :=
  t.run (if t.raw then Scan.rawToken else Scan.token t.embedded)

/-- The next item of an iteration over the tokens, which ends with the source or after an error. -/
def iterate (t : Tokenizer) : Option (Except Diagnostic Token) × Tokenizer :=
  if t.finished then (none, t)
  else
    match t.next with
    | (.ok token, t) =>
      if token.isEnd then (none, { t with finished := true }) else (some (.ok token), t)
    | (.error d, t) => (some (.error d), { t with finished := true })

end Tokenizer

end FrontEnd
