import FrontEnd.Token.Kind
import FrontEnd.Tree.Expr

/-!
# Tokens

A token is a piece of the source with its kind and, for literals and names, the value it stands
for. Two tokens are compared like their texts and places; expressions inside a template count as
equal when they lie at the same place.
-/

namespace FrontEnd

/-- What a literal or a name stands for. -/
inductive TokenValue where
  | none
  | number (value : Float)
  | bool (value : Bool)
  | char (value : Char)
  | text (value : String)
  | template (parts : List (TemplatePart Expr))

/-- A token: its kind and value, where it is written and how. -/
structure Token where
  kind : TokenKind
  value : TokenValue
  span : Span
  lexeme : String

namespace Token

/-- The text that a name or a string stands for; other tokens stand for their own text. -/
def text (t : Token) : String :=
  match t.value with
  | .text value => value
  | _ => t.lexeme

/-- Whether a token marks the end of the source. -/
def isEnd (t : Token) : Bool :=
  t.kind == .endOfInput

/-- The token, if it is of a kind. -/
def ofKind? (kind : TokenKind) (t : Token) : Option Token :=
  if t.kind = kind then some t else none

/-- The identifier that a name token carries. -/
def ident (t : Token) : Ident :=
  ⟨t.text, t.span⟩

end Token

/-- Whether two parts of templates agree, embedded expressions by their place alone. -/
def TemplatePart.agrees : TemplatePart Expr → TemplatePart Expr → Bool
  | .text a, .text b => a == b
  | .embedded a, .embedded b => a.span == b.span
  | _, _ => false

/-- Whether two lists of parts agree, part by part. -/
def TemplatePart.allAgree : List (TemplatePart Expr) → List (TemplatePart Expr) → Bool
  | [], [] => true
  | a :: as, b :: bs => a.agrees b && allAgree as bs
  | _, _ => false

/-- Whether two values agree. -/
def TokenValue.agrees : TokenValue → TokenValue → Bool
  | .none, .none => true
  | .number a, .number b => a == b
  | .bool a, .bool b => a == b
  | .char a, .char b => a == b
  | .text a, .text b => a == b
  | .template a, .template b => TemplatePart.allAgree a b
  | _, _ => false

/-- Whether two tokens agree in kind, value, place and text. -/
def Token.agrees (a b : Token) : Bool :=
  a.kind == b.kind && a.value.agrees b.value && a.span == b.span && a.lexeme == b.lexeme

end FrontEnd
