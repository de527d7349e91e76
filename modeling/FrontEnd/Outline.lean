import FrontEnd.Decimal.Text
import FrontEnd.Tree.Expr

/-!
# Outlines

A short text that shows how an expression is bracketed: an operator stands before its operands, all
in parentheses. Forms that are not made of operators are shown by their name alone.
-/

namespace FrontEnd

/-- Texts with a blank before each. -/
def Outline.spaced (texts : List String) : String :=
  String.join (texts.map (" " ++ ·))

/-- The outline of a part of a template string. -/
def TemplatePart.outline : TemplatePart String → String
  | .text content => "\"" ++ content ++ "\""
  | .embedded expr => expr

/-- The outline of a literal. Numbers are shown by their bits. -/
def Literal.outline : Literal String → String
  | .number value => Decimal.bits value
  | .string value => "\"" ++ value ++ "\""
  | .char value => "'" ++ value.toString ++ "'"
  | .bool value => if value then "true" else "false"
  | .template parts => "(template" ++ Outline.spaced (parts.map TemplatePart.outline) ++ ")"

/-- The outline of an argument. -/
def Argument.outline (a : Argument String) : String :=
  match a.name with
  | none => a.value
  | some name => name.name ++ ":" ++ a.value

/-- The outline of a form, with the outlines of its sub-expressions in place. -/
def Form.outline (form : Form String) (_ : Span) : String :=
  match form with
  | .identifier ident => ident.name
  | .literal value => value.outline
  | .group inside => "(group " ++ inside ++ ")"
  | .unary op operand => "(" ++ op.symbol ++ " " ++ operand ++ ")"
  | .post op operand => "(" ++ operand ++ " " ++ op.symbol ++ ")"
  | .binary op left right => "(" ++ op.symbol ++ " " ++ left ++ " " ++ right ++ ")"
  | .assignment target value => "(= " ++ target ++ " " ++ value ++ ")"
  | .property object name => "(. " ++ object ++ " " ++ name.name ++ ")"
  | .element object indices => "([] " ++ object ++ Outline.spaced indices ++ ")"
  | .call callee args => "(call " ++ callee ++ Outline.spaced (args.map Argument.outline) ++ ")"
  | .list elements => "(list" ++ Outline.spaced elements ++ ")"
  | .statement first none => "(; " ++ first ++ ")"
  | .statement first (some rest) => "(; " ++ first ++ " " ++ rest ++ ")"
  | .typeCast type value => "(cast " ++ type.text ++ " " ++ value ++ ")"
  | other => "<" ++ other.name ++ ">"

/-- The outline of an expression. -/
def Expr.outline : Expr → String :=
  Expr.fold Form.outline

end FrontEnd
