import FrontEnd.Production.Types

/-!
# Enumerations
-/

namespace FrontEnd.Production

open Parse

/-- Refuses a comma where a variant or a field should start. -/
def checkEnumComma : Parse Unit := do
  if ← nextIs .comma then
    refuseNext .enumComma "Double / leading commas are not allowed in enums"
  else return ()

/-- Reads the comma after an item, which may be left out before the closing token. -/
def enumItemEnd (close : TokenKind) (context : String) : Parse Unit := do
  if ← nextIs close then return ()
  else discard (consume .comma context)

/-- Reads items through the closing token, at most `fuel` of them. -/
def enumItems {α : Type} (close : TokenKind) (context : String) (item : Parse α) :
    Nat → Parse (List α)
  | 0 => exhausted
  | fuel + 1 => do
    if ← eat close then return []
    else
      checkEnumComma
      let first ← item
      enumItemEnd close context
      return first :: (← enumItems close context item fuel)

/-- Reads the types of the fields of a variant after the opening parenthesis. -/
def variantFields : Parse (List TypeExpr) := do
  enumItems .rightParen "a comma is required after enum variant types" typeExpr (← read).limit

/-- Reads the fields of a variant, if a parenthesis opens them. -/
def optionalFields : Parse (List TypeExpr) := do
  if ← eat .leftParen then variantFields else return []

/-- Reads a variant. -/
def variant : Parse Variant := do
  let name ← identifier "a name is required for an enum variant"
  let fields ← optionalFields
  return ⟨name, fields⟩

/-- Reads the variants of an enumeration after the opening brace. -/
def enumVariants : Parse (List Variant) := do
  enumItems .rightBrace "a comma is required after enum variants" variant (← read).limit

/-- Reads an enumeration after `enum`. -/
def enumDef (token : Token) : Parse Expr := do
  let name ← identifier "a name is required for an enum"
  let params ← optionalTypeParams
  discard (consume .leftBrace "expected '\x7b' after 'enum <Identifier>'")
  let variants ← enumVariants
  return ⟨.enumDef ⟨name, params, variants⟩, ← spanFrom token.span⟩

end FrontEnd.Production
