import FrontEnd.Production.Blocks
import FrontEnd.Production.Patterns

/-!
# Declarations, functions and lambdas
-/

namespace FrontEnd.Production

open Parse

/-- The messages of the parameters of a function. -/
def parameterRules : CommaRules where
  leading := (.leadingOrDoubleComma,
    "Only commas to separate arguments and an optional trailing comma are allowed.")
  separator := (.missingComma, "Arguments should be separated by commas")

/-- The messages of the parameters of a lambda. -/
def lambdaRules : CommaRules where
  leading := (.leadingOrDoubleComma,
    "Only commas to separate function arguments and an optional trailing comma are allowed.")
  separator := (.missingComma, "Arguments should be separated by commas")

variable (expr : Precedence → Parse Expr)

/-- Reads a value if `=` announces it. -/
def optionalInit (least : Precedence) : Parse (Option Expr) := do
  if ← eat .equals then return some (← expr least) else return none

/-- Why a declaration is refused for its lack of a value, if it is. -/
def missingValue? (kind : DeclKind) (type : Option TypeExpr) (value : Option Expr) :
    Option String :=
  match value, type, kind with
  | none, none, _ =>
    some ("A type-inferred let / const declaration must have a value. Either specify a type or " ++
      "add a value.")
  | none, some _, .constant => some "A const declaration must have a value"
  | none, some _, .variable => none
  | some _, _, _ => none

/-- Reads a declaration after its keyword, or a property of a class or trait. -/
def declarationBody (kind : DeclKind) : Parse (Declaration Expr) := do
  let pattern ← pattern
  let type ← optionalType
  let value ← optionalInit expr .lowest
  match missingValue? kind type value with
  | some message => refuseNext .missingInitializer message
  | none => return ⟨kind, pattern, type, value⟩

/-- Reads a declaration after `let` or `const`. -/
def declaration (token : Token) : Parse Expr := do
  let kind := if token.kind = .kwConst then DeclKind.constant else DeclKind.variable
  let declared ← declarationBody expr kind
  return ⟨.declaration declared, ← spanFrom token.span⟩

/-- Reads a parameter of a lambda. Its default value stops before a `|`, which ends the list. -/
def lambdaParam : Parse (Param Expr) := do
  let pattern ← pattern
  let type ← optionalType
  let value ← optionalInit expr .conditional
  return ⟨pattern, type, value, ← spanFrom pattern.span⟩

/-- Reads the parameters of a lambda, if `token` opens a list of them. -/
def lambdaParams (token : Token) : Parse (List (Param Expr)) := do
  if token.kind = .pipe then commaSeparated .pipe lambdaRules (lambdaParam expr) else return []

/-- Reads a lambda, `|a, b: int = 1| body`. Without parameters it opens with `||`. -/
def lambda (token : Token) : Parse Expr := do
  let params ← lambdaParams expr token
  let body ← expr .lowest
  return ⟨.lambda params body, ← spanFrom token.span⟩

/-- Reads a parameter of a function, which has to be typed. -/
def parameter : Parse (Param Expr) := do
  let pattern ← pattern
  if ← eat .colon then
    let type ← typeExpr
    let value ← optionalInit expr .lowest
    return ⟨pattern, some type, value, ← spanFrom pattern.span⟩
  else refuseNext .untypedArgument "Function arguments must be typed"

/-- The failure to find the parameters of a function at a token. -/
def noParameters (token : Token) : Diagnostic :=
  Diagnostic.grammatical .missingArgumentList token.span
    "A left parenthesis is required to start a function's argument list"

/-- Reads the parameters of a function with their opening parenthesis. -/
def parameters : Parse (List (Param Expr)) := do
  discard (accept (Token.ofKind? .leftParen) noParameters)
  commaSeparated .rightParen parameterRules (parameter expr)

/-- Reads the type that a function returns, if it is there: before the brace of the body. -/
def returnType : Parse (Option TypeExpr) := do
  if ← nextIs .leftBrace then return none else return some (← typeExpr)

/-- Consumes a closing brace where a signature without a body is allowed, and says whether there
was one. -/
def signatureEnd (allowSignature : Bool) : Parse Bool :=
  if allowSignature then eat .rightBrace else return false

/-- Reads the body of a function after its opening brace. Where signatures are allowed, empty
braces are no body. -/
def functionBody (allowSignature : Bool) (opened : Token) : Parse (Option (Block Expr)) := do
  if ← signatureEnd allowSignature then return none
  else return some (← blockBody expr opened)

/-- Reads a function after its name. -/
def functionRest (name : Ident) (allowSignature : Bool) : Parse (FunctionDef Expr) := do
  let typeParams ← optionalTypeParams
  let params ← parameters expr
  let returned ← returnType
  let opened ← consume .leftBrace "expected a block start"
  let body ← functionBody expr allowSignature opened
  return ⟨name, typeParams, params, returned, body⟩

/-- Reads a named function with its name. -/
def namedFunction (allowSignature : Bool) : Parse (FunctionDef Expr) := do
  let name ← identifier "a function name is required"
  functionRest expr name allowSignature

/-- Reads a function after `fn`. -/
def function (token : Token) : Parse Expr := do
  let definition ← namedFunction expr false
  return ⟨.function definition, ← spanFrom token.span⟩

end FrontEnd.Production
