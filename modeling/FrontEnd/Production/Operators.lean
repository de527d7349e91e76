import FrontEnd.Production.Comma

/-!
# Continuations of an expression

Productions that extend an expression already read: operators, accesses, calls, assignments and
chains of statements. Sub-expressions are read by `expr`, which takes the minimum level of what may
extend them.
-/

namespace FrontEnd.Production

open Parse

/-- The messages of arguments. -/
def argumentRules : CommaRules where
  leading := (.leadingOrDoubleComma,
    "Only commas to separate function arguments and an optional trailing comma are allowed.")
  separator := (.missingComma, "Arguments should be separated by commas")

/-- The messages of indices. -/
def indexRules : CommaRules where
  leading := (.leadingOrDoubleComma,
    "Only commas to separate indices and an optional trailing comma are allowed.")
  separator := (.missingComma, "Indices should be separated by commas")

variable (expr : Precedence → Parse Expr)

/-- Reads the right operand of a binary operator, at the level of sums whatever the operator. -/
def binary (op : BinaryOp) (left : Expr) : Parse Expr := do
  let right ← expr .sum
  return ⟨.binary op left right, ← spanFrom left.span⟩

/-- An expression with an operator after it, `x++`. -/
def post (op : PostOp) (operand : Expr) : Parse Expr :=
  return ⟨.post op operand, ← spanFrom operand.span⟩

/-- Reads the name after a dot. -/
def property (object : Expr) : Parse Expr := do
  let name ← identifier "expected a property name after a dot"
  return ⟨.property object name, ← spanFrom object.span⟩

/-- Reads the name of an argument, if it has one: an identifier with a colon after it. -/
def argumentName : Parse (Option Ident) := do
  if ← nextIs .identifier then
    if (← peekAhead 1).kind = .colon then
      let token ← next
      discard next
      return some token.ident
    else return none
  else return none

/-- Reads an argument of a call, `value` or `name: value`. -/
def argument : Parse (Argument Expr) := do
  let name ← argumentName
  return ⟨name, ← expr .lowest⟩

/-- Reads the arguments of a call. -/
def call (callee : Expr) : Parse Expr := do
  let args ← commaSeparated .rightParen argumentRules (argument expr)
  return ⟨.call callee args, ← spanFrom callee.span⟩

/-- Reads the indices of an element access. -/
def element (object : Expr) : Parse Expr := do
  let indices ← commaSeparated .rightBracket indexRules (expr .post)
  return ⟨.element object indices, ← spanFrom object.span⟩

/-- Whether a kind of token ends what a chain of statements stands in. -/
def endsStatements : TokenKind → Bool
  | .rightBrace | .rightParen | .rightBracket | .endOfInput => true
  | _ => false

/-- Reads what follows a semicolon, which is nothing at the end of what the chain stands in. -/
def moreStatements : Parse (Option Expr) := do
  if endsStatements (← peekKind) then return none else return some (← expr .lowest)

/-- Reads the rest of a chain of statements after a semicolon. -/
def statement (first : Expr) : Parse Expr := do
  let rest ← moreStatements expr
  return ⟨.statement first rest, ← spanFrom first.span⟩

/-- Reads the value of an assignment, and only then looks at what it is assigned to. -/
def assignment (target : Expr) (token : Token) : Parse Expr := do
  let value ← expr .lowest
  if target.isAssignable then return ⟨.assignment target value, ← spanFrom target.span⟩
  else refuse .invalidAssignmentTarget token.span Code.invalidAssignmentTarget.title

/-- Reads the rest of a continuation of `left` that `token` starts. -/
def continued (continuation : Continuation) (left : Expr) (token : Token) : Parse Expr :=
  match continuation with
  | .binary op _ => binary expr op left
  | .post op => post op left
  | .property => property left
  | .call => call expr left
  | .element => element expr left
  | .statement => statement expr left
  | .assignment => assignment expr left token

end FrontEnd.Production
