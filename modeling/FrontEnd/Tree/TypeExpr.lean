import FrontEnd.Tree.Ident

/-!
# Types

A type is a name, possibly applied to types: `Map[string, List[int]]`. A type parameter is a name
with a chain of bounds, each of which asks for a supertype (`<=`) or for a trait (`:`).
-/

namespace FrontEnd

/-- A type as it is written. A plain type has no parameters. -/
inductive TypeExpr where
  | mk (name : Ident) (params : List TypeExpr) (span : Span)

namespace TypeExpr

/-- The name a type starts with. -/
def name : TypeExpr → Ident
  | mk name _ _ => name

/-- The types a type is applied to. -/
def params : TypeExpr → List TypeExpr
  | mk _ params _ => params

/-- Where a type is written. -/
def span : TypeExpr → Span
  | mk _ _ span => span

/-- Whether a type is a name alone. -/
def isPlain (t : TypeExpr) : Bool :=
  t.params.isEmpty

mutual

/-- The text of a type: its name, and its parameters in brackets. -/
def text : TypeExpr → String
  | mk name [] _ => name.name
  | mk name (param :: params) _ => name.name ++ "[" ++ param.text ++ textMore params ++ "]"

/-- The text of the parameters after the first. -/
def textMore : List TypeExpr → String
  | [] => ""
  | param :: params => ", " ++ param.text ++ textMore params

end

end TypeExpr

/-- What a bound asks of a type. -/
inductive BoundKind where
  /-- Written `<= T`. -/
  | extending
  /-- Written `: T`. -/
  | implementing
  deriving DecidableEq, Repr

/-- A chain of bounds, all of which have to hold. -/
inductive Constraint where
  | unconstrained
  | bound (kind : BoundKind) (type : TypeExpr) (more : Constraint)

namespace Constraint

/-- The chain of the given bounds, in their order. -/
def chain (bounds : List (BoundKind × TypeExpr)) : Constraint :=
  bounds.foldr (fun (kind, type) more => .bound kind type more) .unconstrained

/-- The bounds of a chain, in order. -/
def links : Constraint → List (BoundKind × TypeExpr)
  | unconstrained => []
  | bound kind type more => (kind, type) :: more.links

@[simp] theorem links_chain (bounds : List (BoundKind × TypeExpr)) :
    (chain bounds).links = bounds := by
  induction bounds with
  | nil => rfl
  | cons b bs ih => exact congrArg (b :: ·) ih

end Constraint

/-- A type parameter: its name, as a plain type, and its bounds. -/
structure TypeParam where
  type : TypeExpr
  constraint : Constraint

end FrontEnd
