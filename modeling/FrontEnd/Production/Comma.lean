import FrontEnd.Stream

/-!
# Lists with commas

Many productions hold a list of elements with commas between them, an optional comma at the end,
and a closing token. They differ in the messages they give for a misplaced or a missing comma.
-/

namespace FrontEnd.Production

open Parse

/-- The messages of a list with commas. -/
structure CommaRules where
  /-- For a comma where an element should start. -/
  leading : Code × String
  /-- For an element that neither a comma nor the closing token follows. -/
  separator : Code × String

/-- Reads the comma after an element, and says whether there was one or the closing token is
next. -/
def separated (close : TokenKind) : Parse Bool := do
  if ← eat .comma then return true
  else nextIs close

/-- Reads elements through the closing token, at most `fuel` of them. -/
def elements {α : Type} (close : TokenKind) (rules : CommaRules) (element : Parse α) :
    Nat → Parse (List α)
  | 0 => exhausted
  | fuel + 1 => do
    if ← eat close then return []
    else if ← nextIs .comma then
      refuseNext rules.leading.1 rules.leading.2
    else
      let first ← element
      if ← separated close then
        return first :: (← elements close rules element fuel)
      else
        refuseNext rules.separator.1 rules.separator.2

/-- Reads elements with commas between them through the closing token. -/
def commaSeparated {α : Type} (close : TokenKind) (rules : CommaRules) (element : Parse α) :
    Parse (List α) := do
  elements close rules element (← read).limit

end FrontEnd.Production
