import FrontEnd.Production.Enums
import FrontEnd.Production.Imports
import FrontEnd.Production.Members
import FrontEnd.Production.Operators

/-!
# Expressions

An expression opens with one production, and is then extended by continuations as long as they bind
tighter than a minimum. Every production reads its sub-expressions through an action that it is
given; `expressionWithin` closes the circle, one level of nesting at a time.
-/

namespace FrontEnd.Production

open Parse

section Layers

variable (expr : Precedence → Parse Expr)

/-- Reads the rest of the production that a token opens. -/
def opened (opening : Opening) (token : Token) : Parse Expr := do
  match opening with
  | .identifier => return ⟨.identifier token.ident, token.span⟩
  | .unary op => unary expr op token
  | .literal => literal token
  | .block => block expr token
  | .group => group expr token
  | .conditional => conditional expr (← read).limit token
  | .typeCast => typeCast expr token
  | .declaration => declaration expr token
  | .whileLoop => whileLoop expr token
  | .forLoop => forLoop expr token
  | .endlessLoop => endlessLoop expr token
  | .lambda => lambda expr token
  | .function => function expr token
  | .classDef => classDef expr token
  | .traitDef => traitDef expr token
  | .enumDef => enumDef token
  | .importing => importing token
  | .returning => returning expr token
  | .breaking => breaking expr token
  | .continuing => continuing token
  | .label => label expr token
  | .list => list expr token
  | .binding => binding expr token
  | .mapping => mapping expr token

/-- The failure to find an expression at a token. -/
def noExpression (token : Token) : Diagnostic :=
  Diagnostic.grammatical .expectedExpression token.span
    ("Could not parse : '" ++ token.lexeme ++ "' (expected an expression)")

/-- Consumes a token that opens an expression. -/
def opener : Parse (Token × Opening) := do
  let grammar := (← read).grammar
  accept (fun t => ((grammar.opening? t.kind).filter (·.accepts t)).map (t, ·)) noExpression

/-- Consumes a token that continues an expression tighter than `least`, if it is next. -/
def continuer (least : Precedence) : Parse (Option (Token × Continuation)) := do
  let grammar := (← read).grammar
  takeIf fun t =>
    ((grammar.continuation? t.kind).filter (·.level.exceeds least)).map (t, ·)

/-- Extends an expression by continuations that bind tighter than `least`, at most `fuel` of
them. -/
def extend (least : Precedence) : Nat → Expr → Parse Expr
  | 0, _ => exhausted
  | fuel + 1, left => do
    match ← continuer least with
    | none => return left
    | some (token, continuation) =>
      let extended ← traced continuation.name token (continued expr continuation left token)
      extend least fuel extended

/-- Reads the rest of an expression after the token that opens it. -/
def expressionFrom (least : Precedence) (token : Token) (opening : Opening) : Parse Expr := do
  let left ← traced opening.name token (opened expr opening token)
  extend expr least (← read).limit left

/-- Reads an expression whose sub-expressions are read by `expr`. -/
def expressionLayer (least : Precedence) : Parse Expr := do
  let (token, opening) ← opener
  expressionFrom expr least token opening

end Layers

/-- Reads an expression that nests at most `fuel` deep. -/
def expressionWithin : Nat → Precedence → Parse Expr
  | 0, _ => exhausted
  | fuel + 1, least => expressionLayer (expressionWithin fuel) least

/-- Reads an expression that is extended only by continuations that bind tighter than `least`. -/
def expression (least : Precedence) : Parse Expr := do
  expressionWithin (← read).limit least

/-- Reads a whole program: an expression or nothing, and the end of the source. -/
def program : Parse (Option Expr) := do
  if ← nextIs .endOfInput then return none
  else
    let expr ← expression .lowest
    discard (consume .endOfInput "expected the end of the input")
    return some expr

end FrontEnd.Production
