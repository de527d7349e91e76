import FrontEnd.Tree.Import
import FrontEnd.Tree.Operator
import FrontEnd.Tree.Pattern
import FrontEnd.Tree.TypeExpr

/-!
# Forms of expressions

`Form ε` is one layer of a syntax tree: a production of the language with values of type `ε` where
its sub-expressions stand. Trees close the layers up (`Expr`), and whatever is computed over trees
is a rule for one layer, with the results for the sub-expressions already in place. `Form.map`
changes what stands for sub-expressions.
-/

namespace FrontEnd

/-- A part of a template string. -/
inductive TemplatePart (ε : Type) where
  | text (content : String)
  | embedded (expr : ε)

/-- Literal values. -/
inductive Literal (ε : Type) where
  | number (value : Float)
  | string (value : String)
  | char (value : Char)
  | bool (value : Bool)
  | template (parts : List (TemplatePart ε))

/-- A block in braces. An empty block has no body. -/
structure Block (ε : Type) where
  body : Option ε
  label : Option String
  span : Span

/-- An argument of a call, possibly named. -/
structure Argument (ε : Type) where
  name : Option Ident
  value : ε

/-- The two heads of a `for` loop. -/
inductive ForHead (ε : Type) where
  /-- Written `for init, condition, step`. -/
  | counting (init condition step : ε)
  /-- Written `for binding in iterable`. -/
  | iterating (binding : Pattern) (iterable : ε)

/-- Whether a declared name may change. -/
inductive DeclKind where
  | variable
  | constant
  deriving DecidableEq, Repr

/-- A declaration of a variable or constant, or of a property of a class or trait. -/
structure Declaration (ε : Type) where
  kind : DeclKind
  pattern : Pattern
  type : Option TypeExpr
  value : Option ε

/-- A parameter of a function or lambda. -/
structure Param (ε : Type) where
  pattern : Pattern
  type : Option TypeExpr
  default : Option ε
  span : Span

/-- A named function. Only a signature in a trait has no body. -/
structure FunctionDef (ε : Type) where
  name : Ident
  typeParams : List TypeParam
  params : List (Param ε)
  returnType : Option TypeExpr
  body : Option (Block ε)

/-- Who may use a member. -/
inductive Visibility where
  | personal
  | family
  | everyone
  deriving DecidableEq, Repr

/-- Whether a member belongs to instances or to the type itself. -/
inductive Scope where
  | ofInstance
  | ofType
  deriving DecidableEq, Repr

/-- A member of a class or trait with its modifiers. -/
structure Member (α : Type) where
  item : α
  scope : Scope
  visibility : Visibility

/-- An overloaded operator, under the text it is written with. -/
structure Overload (ε : Type) where
  symbol : String
  function : FunctionDef ε

/-- The members of a class or trait. There is at most one overload for each operator, and they are
sorted by the operator's text. -/
structure MemberList (ε : Type) where
  methods : List (Member (FunctionDef ε))
  properties : List (Member (Declaration ε))
  operators : List (Overload ε)

/-- A class or struct. -/
structure ClassDef (ε : Type) where
  name : Ident
  isStruct : Bool
  typeParams : List TypeParam
  members : MemberList ε

/-- A trait. -/
structure TraitDef (ε : Type) where
  name : Ident
  isStructural : Bool
  typeParams : List TypeParam
  members : MemberList ε

/-- A variant of an enumeration and the types of its fields. -/
structure Variant where
  name : Ident
  fields : List TypeExpr

/-- An enumeration. -/
structure EnumDef where
  name : Ident
  typeParams : List TypeParam
  variants : List Variant

/-- One layer of a syntax tree. -/
inductive Form (ε : Type) where
  | identifier (ident : Ident)
  | literal (value : Literal ε)
  | group (inside : ε)
  | unary (op : UnaryOp) (operand : ε)
  | binary (op : BinaryOp) (left right : ε)
  | post (op : PostOp) (operand : ε)
  | assignment (target value : ε)
  | property (object : ε) (name : Ident)
  | element (object : ε) (indices : List ε)
  | call (callee : ε) (args : List (Argument ε))
  | list (elements : List ε)
  | mapping (keys values : List ε)
  | block (block : Block ε)
  | statement (first : ε) (rest : Option ε)
  | conditional (condition : ε) (consequence : Block ε) (alternative : Option ε)
  | whileLoop (condition : ε) (body : Block ε)
  | endlessLoop (body : Block ε) (label : Option String)
  | forLoop (head : ForHead ε) (body : Block ε) (label : Option String)
  | typeCast (type : TypeExpr) (value : ε)
  | lambda (params : List (Param ε)) (body : ε)
  | function (definition : FunctionDef ε)
  | classDef (definition : ClassDef ε)
  | traitDef (definition : TraitDef ε)
  | enumDef (definition : EnumDef)
  | returning (value : Option ε)
  | breaking (value : Option ε) (label : Option String)
  | continuing (label : Option String)
  | declaration (declaration : Declaration ε)
  | binding (name : Ident) (value : ε)
  | importing (path : ImportSection)

/-! ## Mapping over sub-expressions

Each function of this section applies `f` to the sub-expressions that its data holds and leaves
everything else as it is. -/

section Map

variable {α β : Type} (f : α → β)

def TemplatePart.map : TemplatePart α → TemplatePart β
  | text content => text content
  | embedded expr => embedded (f expr)

def Literal.map : Literal α → Literal β
  | number value => number value
  | string value => string value
  | char value => char value
  | bool value => bool value
  | template parts => template (parts.map (·.map f))

def Block.map (b : Block α) : Block β :=
  ⟨b.body.map f, b.label, b.span⟩

def Argument.map (a : Argument α) : Argument β :=
  ⟨a.name, f a.value⟩

def ForHead.map : ForHead α → ForHead β
  | counting init condition step => counting (f init) (f condition) (f step)
  | iterating binding iterable => iterating binding (f iterable)

def Declaration.map (d : Declaration α) : Declaration β :=
  ⟨d.kind, d.pattern, d.type, d.value.map f⟩

def Param.map (p : Param α) : Param β :=
  ⟨p.pattern, p.type, p.default.map f, p.span⟩

def FunctionDef.map (d : FunctionDef α) : FunctionDef β :=
  ⟨d.name, d.typeParams, d.params.map (·.map f), d.returnType, d.body.map (·.map f)⟩

def Member.map (m : Member α) : Member β :=
  ⟨f m.item, m.scope, m.visibility⟩

def Overload.map (o : Overload α) : Overload β :=
  ⟨o.symbol, o.function.map f⟩

def MemberList.map (m : MemberList α) : MemberList β :=
  ⟨m.methods.map (Member.map (FunctionDef.map f)),
    m.properties.map (Member.map (Declaration.map f)), m.operators.map (·.map f)⟩

def ClassDef.map (d : ClassDef α) : ClassDef β :=
  ⟨d.name, d.isStruct, d.typeParams, d.members.map f⟩

def TraitDef.map (d : TraitDef α) : TraitDef β :=
  ⟨d.name, d.isStructural, d.typeParams, d.members.map f⟩

def Form.map : Form α → Form β
  | identifier ident => identifier ident
  | literal value => literal (value.map f)
  | group inside => group (f inside)
  | unary op operand => unary op (f operand)
  | binary op left right => binary op (f left) (f right)
  | post op operand => post op (f operand)
  | assignment target value => assignment (f target) (f value)
  | property object name => property (f object) name
  | element object indices => element (f object) (indices.map f)
  | call callee args => call (f callee) (args.map (·.map f))
  | list elements => list (elements.map f)
  | mapping keys values => mapping (keys.map f) (values.map f)
  | block b => block (b.map f)
  | statement first rest => statement (f first) (rest.map f)
  | conditional condition consequence alternative =>
    conditional (f condition) (consequence.map f) (alternative.map f)
  | whileLoop condition body => whileLoop (f condition) (body.map f)
  | endlessLoop body label => endlessLoop (body.map f) label
  | forLoop head body label => forLoop (head.map f) (body.map f) label
  | typeCast type value => typeCast type (f value)
  | lambda params body => lambda (params.map (·.map f)) (f body)
  | function definition => function (definition.map f)
  | classDef definition => classDef (definition.map f)
  | traitDef definition => traitDef (definition.map f)
  | enumDef definition => enumDef definition
  | returning value => returning (value.map f)
  | breaking value label => breaking (value.map f) label
  | continuing label => continuing label
  | declaration d => declaration (d.map f)
  | binding name value => binding name (f value)
  | importing path => importing path

end Map

/-! ## Names of forms -/

/-- What a form is called. -/
def Form.name {ε : Type} : Form ε → String
  | identifier .. => "Identifier"
  | literal .. => "Literal"
  | group .. => "Group"
  | unary .. => "Prefix"
  | binary .. => "Infix"
  | post .. => "Postfix"
  | assignment .. => "Assignment"
  | property .. => "PropertyAccess"
  | element .. => "ElementAccess"
  | call .. => "Call"
  | list .. => "List"
  | mapping .. => "Map"
  | block .. => "Block"
  | statement .. => "Statement"
  | conditional .. => "If"
  | whileLoop .. => "While"
  | endlessLoop .. => "Loop"
  | forLoop .. => "For"
  | typeCast .. => "TypeCast"
  | lambda .. => "Lambda"
  | function .. => "Function"
  | classDef .. => "Class"
  | traitDef .. => "Trait"
  | enumDef .. => "Enum"
  | returning .. => "Return"
  | breaking .. => "Break"
  | continuing .. => "Continue"
  | declaration .. => "Declaration"
  | binding .. => "At"
  | importing .. => "Import"

end FrontEnd
