import FrontEnd.Tree.Ident

/-!
# Imports
-/

namespace FrontEnd

/-- A section of an import path. -/
inductive ImportSection where
  /-- The end of a path, `name` or `name as localName`. -/
  | terminal (name : Ident) (localName : Option Ident)
  /-- A step of a path, `name.rest`. -/
  | element (name : Ident) (rest : ImportSection)
  /-- Several paths from the same place, `{a, b.c, d as e}`. -/
  | list (sections : List ImportSection)

end FrontEnd
