import FrontEnd.Tree.Ident

/-!
# Patterns

A pattern binds names to a value or to parts of it.
-/

namespace FrontEnd

/-- A field of an object pattern. Without a pattern of its own it binds its name. -/
structure Field (π : Type) where
  name : Ident
  pattern : Option π

/-- The shapes of a pattern over sub-patterns `π`. -/
inductive PatternForm (π : Type) where
  /-- A name. -/
  | name (ident : Ident)
  /-- A name for the whole value and a pattern for it, `@whole [a, b]`. -/
  | named (name : Ident) (pattern : π)
  /-- The elements of a list, `[a, b, c]`. -/
  | list (elements : List π)
  /-- Properties of an object, `{x, y: [a, b]}`. -/
  | object (fields : List (Field π))

/-- A pattern and where it is written. -/
structure Pattern where
  form : PatternForm Pattern
  span : Span

namespace Pattern

/-- The name that a pattern binds, if it is nothing but a name. -/
def simpleName? (p : Pattern) : Option Ident :=
  match p.form with
  | .name ident => some ident
  | _ => none

/-- Whether a pattern is nothing but a name. -/
def isName (p : Pattern) : Bool :=
  p.simpleName?.isSome

end Pattern

end FrontEnd
