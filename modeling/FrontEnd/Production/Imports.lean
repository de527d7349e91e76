import FrontEnd.Production.Comma

/-!
# Imports
-/

namespace FrontEnd.Production

open Parse

/-- The messages of lists in imports. -/
def importRules : CommaRules where
  leading := (.importComma, "Leading / double commas are not allowed within import lists.")
  separator := (.importSeparator, "Imported elements should be separated by commas")

/-- Reads a list of import paths after its opening brace. It has to name something. -/
def importList (inner : Parse ImportSection) : Parse ImportSection := do
  if ← nextIs .rightBrace then
    refuseNext .emptyImport "Import lists must contain at least one element"
  else return .list (← commaSeparated .rightBrace importRules inner)

/-- Reads what follows a name in an import path. -/
def importName (inner : Parse ImportSection) (name : Ident) : Parse ImportSection := do
  if ← eat .dot then return .element name (← inner)
  else if ← eat .kwAs then
    return .terminal name (some (← identifier "expected an alias after 'as'"))
  else return .terminal name none

/-- What a section of an import path opens with: a list, or a name. -/
inductive ImportOpening where
  | list
  | name (ident : Ident)

/-- What a token opens a section of an import path with, if it opens one. -/
def importOpening? (token : Token) : Option ImportOpening :=
  match token.kind with
  | .leftBrace => some .list
  | .identifier => some (.name token.ident)
  | _ => none

/-- Reads a section of an import path, whose inner sections are read by `inner`. -/
def importLayer (inner : Parse ImportSection) : Parse ImportSection := do
  match ← accept importOpening?
      (unexpected .identifier · "expected a module name in an import") with
  | .list => importList inner
  | .name ident => importName inner ident

/-- Reads a section of an import path that nests at most `fuel` deep. -/
def importWithin : Nat → Parse ImportSection
  | 0 => exhausted
  | fuel + 1 => importLayer (importWithin fuel)

/-- Reads an import after its keyword. -/
def importing (token : Token) : Parse Expr := do
  let path ← importWithin (← read).limit
  return ⟨.importing path, ← spanFrom token.span⟩

end FrontEnd.Production
