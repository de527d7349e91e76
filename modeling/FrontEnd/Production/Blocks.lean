import FrontEnd.Production.Types

/-!
# Groups, blocks and control flow

Productions that open with a bracket or with a keyword of control flow.
-/

namespace FrontEnd.Production

open Parse

/-- The messages of list literals. -/
def listRules : CommaRules where
  leading := (.listComma, "Leading / double commas are not allowed within list literals.")
  separator := (.listSeparator, "A list literal's elements should be separated by commas")

/-- The messages of map literals. -/
def mapRules : CommaRules where
  leading := (.mapComma, "Leading / double commas are not allowed within map literals.")
  separator := (.mapSeparator, "A map literal's key/value pairs should be separated by commas")

/-- The expression of a literal token. -/
def literal (token : Token) : Parse Expr :=
  match token.value with
  | .number value => return ⟨.literal (.number value), token.span⟩
  | .bool value => return ⟨.literal (.bool value), token.span⟩
  | .char value => return ⟨.literal (.char value), token.span⟩
  | .text value => return ⟨.literal (.string value), token.span⟩
  | .template parts => return ⟨.literal (.template parts), token.span⟩
  | .none => throw (Diagnostic.internal token.span (token.kind.name ++ " carries no value"))

variable (expr : Precedence → Parse Expr)

/-- Reads the operand of a unary operator. -/
def unary (op : UnaryOp) (token : Token) : Parse Expr := do
  let operand ← expr .unary
  return ⟨.unary op operand, ← spanFrom token.span⟩

/-- Reads a type cast, `<Type> value`. -/
def typeCast (token : Token) : Parse Expr := do
  let type ← typeExpr
  discard (consume .rightAngle "expected a '>' after a type cast")
  let value ← expr .unary
  return ⟨.typeCast type value, ← spanFrom token.span⟩

/-- Reads what stands in a block, which may be nothing. -/
def blockContent : Parse (Option Expr) := do
  if ← nextIs .rightBrace then return none else return some (← expr .lowest)

/-- Reads the rest of a block after its opening brace. -/
def blockBody (opened : Token) : Parse (Block Expr) := do
  let body ← blockContent expr
  discard (consume .rightBrace "a '\x7d' was expected at the end of a block")
  return ⟨body, none, ← spanFrom opened.span⟩

/-- Reads a block with its opening brace. -/
def expectBlock (context : String) : Parse (Block Expr) := do
  let opened ← consume .leftBrace context
  blockBody expr opened

/-- The expression of a block. -/
def blockExpr (block : Block Expr) : Expr :=
  ⟨.block block, block.span⟩

/-- Reads a block after its opening brace, as an expression. -/
def block (token : Token) : Parse Expr :=
  return blockExpr (← blockBody expr token)

/-- Reads an expression in parentheses. -/
def group (token : Token) : Parse Expr := do
  let inside ← expr .lowest
  discard (consume .rightParen "parenthesized expressions need to be closed")
  return ⟨.group inside, ← spanFrom token.span⟩

/-- Reads a list literal. -/
def list (token : Token) : Parse Expr := do
  let elements ← commaSeparated .rightBracket listRules (expr .lowest)
  return ⟨.list elements, ← spanFrom token.span⟩

/-- Reads a key and its value. -/
def entry : Parse (Expr × Expr) := do
  let key ← expr .lowest
  discard (consume .colon "expected a colon after a key")
  let value ← expr .lowest
  return (key, value)

/-- Reads a map literal, `map!{key: value}`. -/
def mapping (token : Token) : Parse Expr := do
  discard (consume .leftBrace "expected a '\x7b' after 'map!'")
  let entries ← commaSeparated .rightBrace mapRules (entry expr)
  return ⟨.mapping (entries.map (·.1)) (entries.map (·.2)), ← spanFrom token.span⟩

/-- Reads what stands after `else`: a block, or another condition, which `nested` reads after its
`if`. -/
def afterElse (nested : Token → Parse Expr) : Parse Expr := do
  match ← take? .kwIf with
  | some token => nested token
  | none => return blockExpr (← expectBlock expr "a '\x7b' was expected after an 'else'")

/-- Reads an `else` and what stands after it, if it is there. -/
def otherwise (nested : Token → Parse Expr) : Parse (Option Expr) := do
  if ← eat .kwElse then return some (← afterElse expr nested) else return none

/-- Reads a condition and its blocks after `if`, with at most `fuel` conditions in a chain. -/
def conditional : Nat → Token → Parse Expr
  | 0, _ => exhausted
  | fuel + 1, token => do
    let condition ← expr .lowest
    let consequence ← expectBlock expr "a '\x7b' was expected after an if's condition"
    let alternative ← otherwise expr (conditional fuel)
    return ⟨.conditional condition consequence alternative, ← spanFrom token.span⟩

/-- Reads a `while` loop. -/
def whileLoop (token : Token) : Parse Expr := do
  let condition ← expr .lowest
  let body ← expectBlock expr "a '\x7b' was expected after a while's condition"
  return ⟨.whileLoop condition body, ← spanFrom token.span⟩

/-- Reads an endless loop. -/
def endlessLoop (token : Token) : Parse Expr := do
  let body ← expectBlock expr "a '\x7b' was expected after a 'loop'"
  return ⟨.endlessLoop body none, ← spanFrom token.span⟩

/-- The pattern of one layer of an expression whose sub-expressions are already read as patterns.
Names, bindings and lists are patterns too. -/
def patternOfForm (form : Form (Except Span Pattern)) (span : Span) : Except Span Pattern := do
  match form with
  | .identifier ident => return ⟨.name ident, span⟩
  | .binding name value => return ⟨.named name (← value), span⟩
  | .list elements => return ⟨.list (← elements.mapM id), span⟩
  | _ => throw span

/-- The pattern that an expression spells, or the place of the first part that spells none. -/
def patternOfExpr : Expr → Except Span Pattern :=
  Expr.fold patternOfForm

/-- Reads an expression, for which the literal `true` at `span` stands if a token of the given kind
comes first. -/
def orTrue (kind : TokenKind) (span : Span) : Parse Expr := do
  if ← nextIs kind then return ⟨.literal (.bool true), span⟩
  else expr .lowest

/-- Reads the rest of a `for` loop's head after `in`, where `init` stands before it. -/
def iteratingHead (init : Expr) : Parse (ForHead Expr) := do
  match patternOfExpr init with
  | .error span =>
    refuse .expectedPattern span "Could not parse the expression before 'in' (expected a pattern)"
  | .ok binding => return .iterating binding (← expr .lowest)

/-- Reads the rest of a `for` loop's head after its first part. -/
def countingHead (token : Token) (init : Expr) : Parse (ForHead Expr) := do
  discard (consume .comma "expected a comma after a for loop's initialization expression")
  let condition ← orTrue expr .comma token.span
  discard (consume .comma "expected a comma after a for loop's condition")
  let step ← orTrue expr .leftBrace token.span
  return .counting init condition step

/-- Reads the head of a `for` loop. -/
def forHead (token : Token) : Parse (ForHead Expr) := do
  let init ← orTrue expr .comma token.span
  if ← eat .kwIn then iteratingHead expr init
  else countingHead expr token init

/-- What is said of a `for` loop whose head no block follows. -/
def ForHead.blockContext : ForHead Expr → String
  | .iterating .. => "expected a block start after a for loop's iterator expression"
  | .counting .. => "expected a block start after a for loop's repeating expression"

/-- Reads a `for` loop. -/
def forLoop (token : Token) : Parse Expr := do
  let head ← forHead expr token
  let body ← expectBlock expr (ForHead.blockContext head)
  return ⟨.forLoop head body none, ← spanFrom token.span⟩

/-- Reads a value if one follows. -/
def optionalValue : Parse (Option Expr) := do
  if ← canReadExpression then return some (← expr .lowest) else return none

/-- Reads a label if one follows. -/
def optionalLabel : Parse (Option String) := do
  return (← take? .label).map (·.text)

/-- Reads the value of a `return`. -/
def returning (token : Token) : Parse Expr := do
  let value ← optionalValue expr
  return ⟨.returning value, ← spanFrom token.span⟩

/-- Reads the label and the value of a `break`. -/
def breaking (token : Token) : Parse Expr := do
  let label ← optionalLabel
  let value ← optionalValue expr
  return ⟨.breaking value label, ← spanFrom token.span⟩

/-- Reads the label of a `continue`. -/
def continuing (token : Token) : Parse Expr := do
  let label ← optionalLabel
  return ⟨.continuing label, ← spanFrom token.span⟩

/-- Reads what a label is attached to: a `for` loop, an endless loop or a block. -/
def label (token : Token) : Parse Expr := do
  discard (consume .colon "expected a colon after a label")
  let target ← expr .tightest
  match target.withLabel? token.text with
  | none =>
    refuse .unlabelableExpression token.span
      "Cannot label anything that is not a for loop, a 'loop' loop, or a block."
  | some labelled => return ⟨labelled.form, ← spanFrom token.span⟩

/-- Reads a binding, `@name value`. -/
def binding (token : Token) : Parse Expr := do
  let name ← identifier "expected an identifier"
  let value ← expr .lowest
  return ⟨.binding name value, ← spanFrom token.span⟩

end FrontEnd.Production
