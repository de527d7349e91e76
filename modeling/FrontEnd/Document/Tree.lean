import FrontEnd.Document.Basic
import FrontEnd.Tree.Expr

/-!
# Documents of syntax trees

A tree is written as a record for each node, with its parts in a fixed order. The document of an
expression is put together from the documents of its sub-expressions, one layer at a time.
-/

namespace FrontEnd

open Document (optional optionalText tagged taggedRecord)

/-- A span as a record of its four numbers. -/
def Span.document (s : Span) : Document :=
  .record [("offset", .natural s.offset), ("len", .natural s.len), ("line", .natural s.line),
    ("column", .natural s.column)]

/-- An identifier with its place. -/
def Ident.document (i : Ident) : Document :=
  .record [("name", .text i.name), ("span", i.span.document)]

mutual

/-- A type with its parameters. -/
def TypeExpr.document : TypeExpr → Document
  | .mk name params span =>
    .record [("name", name.document), ("params", .list (TypeExpr.documents params)),
      ("span", span.document)]

/-- The types of a list, one by one. -/
def TypeExpr.documents : List TypeExpr → List Document
  | [] => []
  | t :: ts => t.document :: TypeExpr.documents ts

end

/-- What a kind of bound is called. -/
def BoundKind.name : BoundKind → String
  | .extending => "Extends"
  | .implementing => "Implements"

/-- A chain of bounds as a record that holds the rest of the chain. -/
def Constraint.linkDocument : Constraint → Document
  | .unconstrained => .null
  | .bound kind type more =>
    .record [("kind", .text kind.name), ("ty", type.document), ("and", more.linkDocument)]

/-- The bounds of a type parameter. -/
def Constraint.document : Constraint → Document
  | .unconstrained => .text "Unconstrained"
  | c => tagged "Bound" c.linkDocument

/-- A type parameter with its bounds. -/
def TypeParam.document (p : TypeParam) : Document :=
  .record [("ty", p.type.document), ("constraint", p.constraint.document)]

/-- A list of type parameters. -/
def TypeParam.documents (ps : List TypeParam) : Document :=
  .list (ps.map TypeParam.document)

mutual

/-- A pattern with its place. -/
def Pattern.document : Pattern → Document
  | ⟨form, span⟩ => .record [("kind", PatternForm.document form), ("span", span.document)]

/-- A pattern without its place. -/
def PatternForm.document : PatternForm Pattern → Document
  | .name ident => tagged "Name" ident.document
  | .named name pattern =>
    taggedRecord "Named" [("name", name.document), ("pattern", pattern.document)]
  | .list elements => tagged "List" (.list (Pattern.documents elements))
  | .object fields => tagged "Object" (.list (Field.documents fields))

/-- The patterns of a list, one by one. -/
def Pattern.documents : List Pattern → List Document
  | [] => []
  | p :: ps => p.document :: Pattern.documents ps

/-- A field of an object pattern. -/
def Field.document : Field Pattern → Document
  | ⟨name, pattern⟩ =>
    .record [("name", name.document), ("pattern", Pattern.optionalDocument pattern)]

/-- The fields of an object pattern, one by one. -/
def Field.documents : List (Field Pattern) → List Document
  | [] => []
  | f :: fs => Field.document f :: Field.documents fs

/-- A pattern that may be missing. -/
def Pattern.optionalDocument : Option Pattern → Document
  | none => .null
  | some p => p.document

end

mutual

/-- A section of an import path. -/
def ImportSection.document : ImportSection → Document
  | .terminal name localName =>
    taggedRecord "Terminal"
      [("name", name.document), ("alias", optional (localName.map Ident.document))]
  | .element name rest =>
    taggedRecord "Element" [("name", name.document), ("rest", rest.document)]
  | .list sections => tagged "List" (.list (ImportSection.documents sections))

/-- The sections of a list, one by one. -/
def ImportSection.documents : List ImportSection → List Document
  | [] => []
  | s :: rest => s.document :: ImportSection.documents rest

end

/-- What an operator before its operand is called. -/
def UnaryOp.name : UnaryOp → String
  | .plus => "Plus"
  | .neg => "Neg"
  | .bitNot => "BitNot"
  | .not => "Not"

/-- What an operator between two operands is called. -/
def BinaryOp.name : BinaryOp → String
  | .add => "Add"
  | .sub => "Sub"
  | .mul => "Mul"
  | .div => "Div"
  | .pow => "Pow"
  | .bitAnd => "BitAnd"
  | .bitOr => "BitOr"
  | .xor => "Xor"
  | .shl => "Shl"
  | .shr => "Shr"
  | .eq => "Eq"
  | .ne => "Ne"
  | .lt => "Lt"
  | .le => "Le"
  | .gt => "Gt"
  | .ge => "Ge"
  | .and => "And"
  | .or => "Or"

/-- What an operator after its operand is called. -/
def PostOp.name : PostOp → String
  | .increment => "Increment"
  | .decrement => "Decrement"

/-- What a kind of declaration is called. -/
def DeclKind.name : DeclKind → String
  | .variable => "Let"
  | .constant => "Const"

/-- What a scope is called. -/
def Scope.name : Scope → String
  | .ofInstance => "Instance"
  | .ofType => "Static"

/-- What a visibility is called. -/
def Visibility.name : Visibility → String
  | .personal => "Private"
  | .family => "Protected"
  | .everyone => "Public"

/-! ## One layer of an expression

In what follows the documents of sub-expressions stand where the sub-expressions did. -/

/-- A part of a template string. -/
def TemplatePart.document : TemplatePart Document → Document
  | .text content => tagged "Text" (.text content)
  | .embedded expr => tagged "Expr" expr

/-- A literal under the name of its sort. -/
def Literal.document : Literal Document → Document
  | .number value => tagged "Number" (.number value)
  | .string value => tagged "String" (.text value)
  | .char value => tagged "Char" (.text value.toString)
  | .bool value => tagged "Bool" (.bool value)
  | .template parts => tagged "Template" (.list (parts.map TemplatePart.document))

/-- A block with its label and place. -/
def Block.document (b : Block Document) : Document :=
  .record [("body", optional b.body), ("label", optionalText b.label), ("span", b.span.document)]

/-- An argument with the name it may have. -/
def Argument.document (a : Argument Document) : Document :=
  .record [("name", optional (a.name.map Ident.document)), ("value", a.value)]

/-- The head of a `for` loop. -/
def ForHead.document : ForHead Document → Document
  | .counting init condition step =>
    taggedRecord "Counting" [("init", init), ("condition", condition), ("step", step)]
  | .iterating binding iterable =>
    taggedRecord "Iterator" [("binding", binding.document), ("iterable", iterable)]

/-- A type that may be missing. -/
def TypeExpr.optionalDocument (t : Option TypeExpr) : Document :=
  optional (t.map TypeExpr.document)

/-- A declaration of a variable, a constant or a property. -/
def Declaration.document (d : Declaration Document) : Document :=
  .record [("kind", .text d.kind.name), ("pattern", d.pattern.document),
    ("ty", TypeExpr.optionalDocument d.type), ("value", optional d.value)]

/-- A parameter of a function or lambda. -/
def Param.document (p : Param Document) : Document :=
  .record [("pattern", p.pattern.document), ("ty", TypeExpr.optionalDocument p.type),
    ("default", optional p.default), ("span", p.span.document)]

/-- A function with its signature and body. -/
def FunctionDef.document (d : FunctionDef Document) : Document :=
  .record [("name", d.name.document), ("type_params", TypeParam.documents d.typeParams),
    ("params", .list (d.params.map Param.document)),
    ("return_type", TypeExpr.optionalDocument d.returnType),
    ("body", optional (d.body.map Block.document))]

/-- A member with its scope and visibility. -/
def Member.document (m : Member Document) : Document :=
  .record [("item", m.item), ("scope", .text m.scope.name), ("visibility", .text m.visibility.name)]

/-- The members of a class or trait, operators under their texts. -/
def MemberList.document (m : MemberList Document) : Document :=
  .record [
    ("methods", .list (m.methods.map fun x => (x.map FunctionDef.document).document)),
    ("properties", .list (m.properties.map fun x => (x.map Declaration.document).document)),
    ("operators", .record (m.operators.map fun o => (o.symbol, o.function.document)))]

/-- A class or struct. -/
def ClassDef.document (d : ClassDef Document) : Document :=
  .record [("name", d.name.document), ("is_struct", .bool d.isStruct),
    ("type_params", TypeParam.documents d.typeParams), ("members", d.members.document)]

/-- A trait. -/
def TraitDef.document (d : TraitDef Document) : Document :=
  .record [("name", d.name.document), ("structural", .bool d.isStructural),
    ("type_params", TypeParam.documents d.typeParams), ("members", d.members.document)]

/-- A variant of an enumeration. -/
def Variant.document (v : Variant) : Document :=
  .record [("name", v.name.document), ("fields", .list (v.fields.map TypeExpr.document))]

/-- An enumeration. -/
def EnumDef.document (d : EnumDef) : Document :=
  .record [("name", d.name.document), ("type_params", TypeParam.documents d.typeParams),
    ("variants", .list (d.variants.map Variant.document))]

/-- The payload of a form, without its name. -/
def Form.payload : Form Document → Document
  | .identifier ident => ident.document
  | .literal value => value.document
  | .group inside => inside
  | .unary op operand => .record [("op", .text op.name), ("operand", operand)]
  | .binary op left right => .record [("op", .text op.name), ("left", left), ("right", right)]
  | .post op operand => .record [("op", .text op.name), ("operand", operand)]
  | .assignment target value => .record [("target", target), ("value", value)]
  | .property object name => .record [("object", object), ("property", name.document)]
  | .element object indices => .record [("object", object), ("indices", .list indices)]
  | .call callee args =>
    .record [("callee", callee), ("args", .list (args.map Argument.document))]
  | .list elements => .list elements
  | .mapping keys values => .record [("keys", .list keys), ("values", .list values)]
  | .block b => b.document
  | .statement first rest => .record [("first", first), ("rest", optional rest)]
  | .conditional condition consequence alternative =>
    .record [("condition", condition), ("then_branch", consequence.document),
      ("else_branch", optional alternative)]
  | .whileLoop condition body => .record [("condition", condition), ("body", body.document)]
  | .endlessLoop body label => .record [("body", body.document), ("label", optionalText label)]
  | .forLoop head body label =>
    .record [("head", head.document), ("body", body.document), ("label", optionalText label)]
  | .typeCast type value => .record [("ty", type.document), ("value", value)]
  | .lambda params body =>
    .record [("params", .list (params.map Param.document)), ("body", body)]
  | .function definition => definition.document
  | .classDef definition => definition.document
  | .traitDef definition => definition.document
  | .enumDef definition => definition.document
  | .returning value => optional value
  | .breaking value label => .record [("value", optional value), ("label", optionalText label)]
  | .continuing label => .record [("label", optionalText label)]
  | .declaration d => d.document
  | .binding name value => .record [("name", name.document), ("value", value)]
  | .importing path => path.document

/-- The document of a form at its place. -/
def Form.document (form : Form Document) (span : Span) : Document :=
  .record [("kind", tagged form.name form.payload), ("span", span.document)]

/-- The document of an expression. -/
def Expr.document : Expr → Document :=
  Expr.fold Form.document

/-- The document of a part of a template string. -/
def TemplatePart.treeDocument (p : TemplatePart Expr) : Document :=
  (p.map Expr.document).document

/-- The document of a program. -/
def Expr.programDocument (program : Option Expr) : Document :=
  optional (program.map Expr.document)

end FrontEnd
