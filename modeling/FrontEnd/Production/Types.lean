import FrontEnd.Production.Comma

/-!
# Reading types and type parameters
-/

namespace FrontEnd.Production

open Parse

/-- The messages of lists of types. -/
def typeRules : CommaRules where
  leading := (.leadingOrDoubleComma,
    "Only commas to separate type parameters and an optional trailing comma are allowed.")
  separator := (.missingComma, "Type parameters should be separated by commas")

/-- Reads the parameters of a type in brackets, which have to hold something. -/
def typeArguments (param : Parse TypeExpr) : Parse (List TypeExpr) := do
  if ← eat .leftBracket then
    if ← nextIs .rightBracket then
      refuseNext .emptyTypeParameters "Unexpected empty type parameters"
    else commaSeparated .rightBracket typeRules param
  else return []

/-- Reads a type whose parameters are read by `param`. -/
def typeLayer (param : Parse TypeExpr) : Parse TypeExpr := do
  let name ← identifier "expected a type name"
  let params ← typeArguments param
  return .mk name params (← spanFrom name.span)

/-- Reads a type that nests at most `fuel` deep. -/
def typeWithin : Nat → Parse TypeExpr
  | 0 => exhausted
  | fuel + 1 => typeLayer (typeWithin fuel)

/-- Reads a type, `Name` or `Name[T, U]`. -/
def typeExpr : Parse TypeExpr := do
  typeWithin (← read).limit

/-- Reads the bounds after `:`, one or several in parentheses. -/
def implementedBounds : Parse (List TypeExpr) := do
  if ← eat .leftParen then
    if ← nextIs .rightParen then
      refuseNext .emptyConstraintList "Parentheses in ':' type constraints must contain something"
    else commaSeparated .rightParen typeRules typeExpr
  else return [← typeExpr]

/-- Reads the bounds of a type parameter that ask for a supertype: one or none. -/
def extendingBounds : Parse (List (BoundKind × TypeExpr)) := do
  if ← eat .lessEqual then return [(.extending, ← typeExpr)] else return []

/-- Reads the bounds of a type parameter that ask for traits. -/
def implementingBounds : Parse (List (BoundKind × TypeExpr)) := do
  if ← eat .colon then return (← implementedBounds).map (.implementing, ·) else return []

/-- Reads a type parameter, such as `T`, `T <= Base` or `T: (Eq, Hash)`. -/
def typeParam : Parse TypeParam := do
  let name ← identifier "a type parameter name was expected"
  let extending ← extendingBounds
  let implementing ← implementingBounds
  return ⟨.mk name [] name.span, Constraint.chain (extending ++ implementing)⟩

/-- Reads type parameters in brackets. -/
def typeParams : Parse (List TypeParam) := do
  discard (consume .leftBracket "expected a '[' to start type parameters")
  commaSeparated .rightBracket typeRules typeParam

/-- Reads type parameters if a bracket opens them. -/
def optionalTypeParams : Parse (List TypeParam) := do
  if ← nextIs .leftBracket then typeParams else return []

/-- Reads a type if a colon announces it. -/
def optionalType : Parse (Option TypeExpr) := do
  if ← eat .colon then return some (← typeExpr) else return none

end FrontEnd.Production
