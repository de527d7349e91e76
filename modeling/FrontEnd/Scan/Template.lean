import FrontEnd.Scan.Quoted

/-!
# Template strings

A template string stands in backticks and may hold expressions, written `${expression}`. The
scanner leaves an expression to an action that is given to it, which reads the expression and stops
before the first token that it does not need; a closing brace has to follow there.

The string is read piece by piece, and neighbouring pieces of text are joined at the end.
-/

namespace FrontEnd.Scan

/-- A piece of a template string: some text, or an expression. -/
inductive Piece where
  | text (content : List Char)
  | embedded (expr : Expr)

namespace Piece

/-- Puts a text before the parts of a template, unless it is empty. -/
def flush : List Char × List (TemplatePart Expr) → List (TemplatePart Expr)
  | ([], after) => after
  | (before, after) => .text (String.ofList before) :: after

/-- Joins a piece to the text and the parts that follow it. -/
def join : Piece → List Char × List (TemplatePart Expr) → List Char × List (TemplatePart Expr)
  | .text content, (before, after) => (content ++ before, after)
  | .embedded expr, after => ([], .embedded expr :: flush after)

/-- The parts of a template: its expressions, and the texts between them that are not empty. -/
def parts (pieces : List Piece) : List (TemplatePart Expr) :=
  flush (pieces.foldr join ([], []))

end Piece

/-- Reads on after an escaped dollar sign, whose backslash stands at `start`. The sign need not be
escaped unless a brace follows it. -/
def escapedDollar (start : Position) : Scan (List Char) := do
  let here ← cursor
  if here.peek? = some '{' then
    skip 1
    return ['$', '{']
  else
    warn .unnecessaryDollarEscape (here.spanFrom start) Code.unnecessaryDollarEscape.title
    return ['$']

/-- Reads an escape. -/
def templateEscape : Scan (List Char) := do
  let start ← cursor
  skip 1
  let escaped ← advance
  if escaped = '$' then escapedDollar start.pos
  else
    match unescape? escaped with
    | some meaning => return meaning
    | none => throw (invalidEscape ((← cursor).spanFrom start.pos) escaped)

/-- Reads the expression after `${` with the given action, and the closing brace. -/
def embeddedExpression (embedded : Option (Scan Expr)) : Scan Expr := do
  let opened ← cursor
  match embedded with
  | none =>
    throw (Diagnostic.internal (Span.emptyAt opened.pos)
      "no parser is installed for template string expressions")
  | some read =>
    record (.templateOpened opened.pos)
    let expr ← read
    let here ← cursor
    record (.templateResumed here.pos)
    if here.peek? = some '}' then
      skip 1
      return expr
    else
      throw (Diagnostic.lexical .unclosedTemplateExpression here.spanOfNext
        "Expected '\x7d' after expression in template string")

/-- Reads the next piece of a template string, or its closing backtick. -/
def templatePiece? (embedded : Option (Scan Expr)) (opened : Position) : Scan (Option Piece) := do
  let here ← cursor
  match here.rest with
  | [] => throw (endlessString opened)
  | '\x60' :: _ =>
    skip 1
    return none
  | '\\' :: _ => return some (.text (← templateEscape))
  | '$' :: '{' :: _ =>
    skip 2
    return some (.embedded (← embeddedExpression embedded))
  | c :: _ =>
    skip 1
    return some (.text [c])

/-- Reads the pieces of a template string through its closing backtick. Every piece takes at least
one character, so `fuel` may be any number above that of the characters left. -/
def templatePieces (embedded : Option (Scan Expr)) (opened : Position) :
    Nat → List Piece → Scan (List Piece)
  | 0, _ => throw (Diagnostic.internal (Span.emptyAt opened) "a template string does not end")
  | fuel + 1, pieces => do
    match ← templatePiece? embedded opened with
    | none => return pieces.reverse
    | some piece => templatePieces embedded opened fuel (piece :: pieces)

/-- Reads a template string. -/
def templateLiteral (embedded : Option (Scan Expr)) : Scan Token := do
  let start ← cursor
  skip 1
  let pieces ← templatePieces embedded start.pos (start.rest.length + 1) []
  tokenFrom start .templateStringLiteral (.template (Piece.parts pieces))

end FrontEnd.Scan
