import FrontEnd.Span

/-!
# Identifiers
-/

namespace FrontEnd

/-- A name and where it is written. -/
structure Ident where
  name : String
  span : Span
  deriving DecidableEq, Repr

end FrontEnd
