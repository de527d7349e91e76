import FrontEnd.Decimal.Text

/-!
# Documents

The structured text in which syntax trees are written: nested lists, records whose fields keep
their order, texts and numbers.
-/

namespace FrontEnd

/-- A structured text. -/
inductive Document where
  | null
  | bool (value : Bool)
  | natural (value : Nat)
  | number (value : Float)
  | text (value : String)
  | list (items : List Document)
  | record (fields : List (String × Document))

namespace Document

/-- A value, or nothing. -/
def optional : Option Document → Document
  | none => null
  | some d => d

/-- A text, or nothing. -/
def optionalText (value : Option String) : Document :=
  optional (value.map text)

/-- A value under the name of its sort. -/
def tagged (tag : String) (payload : Document) : Document :=
  record [(tag, payload)]

/-- A record under the name of its sort. -/
def taggedRecord (tag : String) (fields : List (String × Document)) : Document :=
  tagged tag (record fields)

end Document

end FrontEnd
