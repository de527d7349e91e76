import FrontEnd.Tree.Form

/-!
# Expressions

An expression is a form whose sub-expressions are expressions, and the place it is written at.
`Expr.fold` computes a value of an expression from a rule for one layer; `Expr.fold_mk` is the
equation by which it does.
-/

namespace FrontEnd

/-- A syntax tree: a form over expressions, and where it is written. -/
structure Expr where
  form : Form Expr
  span : Span

namespace Expr

/-! ## Folding

The functions of this block go down through the layers of data between an expression and its
sub-expressions. Each is the map of its data type, as the lemmas after the block say. -/

section Fold

variable {α : Type} (rule : Form α → Span → α)

mutual

/-- The value of an expression under a rule for one layer. -/
def fold : Expr → α
  | ⟨form, span⟩ => rule (foldForm form) span

/-- The fold of every sub-expression of a form. -/
def foldForm : Form Expr → Form α
  | .identifier ident => .identifier ident
  | .literal value => .literal (foldLiteral value)
  | .group inside => .group (fold inside)
  | .unary op operand => .unary op (fold operand)
  | .binary op left right => .binary op (fold left) (fold right)
  | .post op operand => .post op (fold operand)
  | .assignment target value => .assignment (fold target) (fold value)
  | .property object name => .property (fold object) name
  | .element object indices => .element (fold object) (foldList indices)
  | .call callee args => .call (fold callee) (foldArguments args)
  | .list elements => .list (foldList elements)
  | .mapping keys values => .mapping (foldList keys) (foldList values)
  | .block b => .block (foldBlock b)
  | .statement first rest => .statement (fold first) (foldOption rest)
  | .conditional condition consequence alternative =>
    .conditional (fold condition) (foldBlock consequence) (foldOption alternative)
  | .whileLoop condition body => .whileLoop (fold condition) (foldBlock body)
  | .endlessLoop body label => .endlessLoop (foldBlock body) label
  | .forLoop head body label => .forLoop (foldForHead head) (foldBlock body) label
  | .typeCast type value => .typeCast type (fold value)
  | .lambda params body => .lambda (foldParams params) (fold body)
  | .function definition => .function (foldFunctionDef definition)
  | .classDef definition => .classDef (foldClassDef definition)
  | .traitDef definition => .traitDef (foldTraitDef definition)
  | .enumDef definition => .enumDef definition
  | .returning value => .returning (foldOption value)
  | .breaking value label => .breaking (foldOption value) label
  | .continuing label => .continuing label
  | .declaration d => .declaration (foldDeclaration d)
  | .binding name value => .binding name (fold value)
  | .importing path => .importing path

def foldOption : Option Expr → Option α
  | none => none
  | some e => some (fold e)

def foldList : List Expr → List α
  | [] => []
  | e :: es => fold e :: foldList es

def foldPart : TemplatePart Expr → TemplatePart α
  | .text content => .text content
  | .embedded e => .embedded (fold e)

def foldParts : List (TemplatePart Expr) → List (TemplatePart α)
  | [] => []
  | p :: ps => foldPart p :: foldParts ps

def foldLiteral : Literal Expr → Literal α
  | .number value => .number value
  | .string value => .string value
  | .char value => .char value
  | .bool value => .bool value
  | .template parts => .template (foldParts parts)

def foldBlock : Block Expr → Block α
  | ⟨body, label, span⟩ => ⟨foldOption body, label, span⟩

def foldOptionBlock : Option (Block Expr) → Option (Block α)
  | none => none
  | some b => some (foldBlock b)

def foldArgument : Argument Expr → Argument α
  | ⟨name, value⟩ => ⟨name, fold value⟩

def foldArguments : List (Argument Expr) → List (Argument α)
  | [] => []
  | a :: rest => foldArgument a :: foldArguments rest

def foldForHead : ForHead Expr → ForHead α
  | .counting init condition step => .counting (fold init) (fold condition) (fold step)
  | .iterating pattern iterable => .iterating pattern (fold iterable)

def foldDeclaration : Declaration Expr → Declaration α
  | ⟨kind, pattern, type, value⟩ => ⟨kind, pattern, type, foldOption value⟩

def foldParam : Param Expr → Param α
  | ⟨pattern, type, value, span⟩ => ⟨pattern, type, foldOption value, span⟩

def foldParams : List (Param Expr) → List (Param α)
  | [] => []
  | p :: ps => foldParam p :: foldParams ps

def foldFunctionDef : FunctionDef Expr → FunctionDef α
  | ⟨name, typeParams, params, returnType, body⟩ =>
    ⟨name, typeParams, foldParams params, returnType, foldOptionBlock body⟩

def foldMethod : Member (FunctionDef Expr) → Member (FunctionDef α)
  | ⟨item, scope, visibility⟩ => ⟨foldFunctionDef item, scope, visibility⟩

def foldMethods : List (Member (FunctionDef Expr)) → List (Member (FunctionDef α))
  | [] => []
  | m :: ms => foldMethod m :: foldMethods ms

def foldProperty : Member (Declaration Expr) → Member (Declaration α)
  | ⟨item, scope, visibility⟩ => ⟨foldDeclaration item, scope, visibility⟩

def foldProperties : List (Member (Declaration Expr)) → List (Member (Declaration α))
  | [] => []
  | m :: ms => foldProperty m :: foldProperties ms

def foldOverload : Overload Expr → Overload α
  | ⟨symbol, function⟩ => ⟨symbol, foldFunctionDef function⟩

def foldOverloads : List (Overload Expr) → List (Overload α)
  | [] => []
  | o :: os => foldOverload o :: foldOverloads os

def foldMemberList : MemberList Expr → MemberList α
  | ⟨methods, properties, operators⟩ =>
    ⟨foldMethods methods, foldProperties properties, foldOverloads operators⟩

def foldClassDef : ClassDef Expr → ClassDef α
  | ⟨name, isStruct, typeParams, members⟩ =>
    ⟨name, isStruct, typeParams, foldMemberList members⟩

def foldTraitDef : TraitDef Expr → TraitDef α
  | ⟨name, isStructural, typeParams, members⟩ =>
    ⟨name, isStructural, typeParams, foldMemberList members⟩

end

@[simp] theorem foldOption_eq_map (o : Option Expr) : foldOption rule o = o.map (fold rule) := by
  cases o <;> simp [foldOption]

@[simp] theorem foldList_eq_map (es : List Expr) : foldList rule es = es.map (fold rule) := by
  induction es <;> simp_all [foldList]

@[simp] theorem foldPart_eq_map (p : TemplatePart Expr) :
    foldPart rule p = p.map (fold rule) := by
  cases p <;> simp [foldPart, TemplatePart.map]

@[simp] theorem foldParts_eq_map (ps : List (TemplatePart Expr)) :
    foldParts rule ps = ps.map (·.map (fold rule)) := by
  induction ps <;> simp_all [foldParts]

@[simp] theorem foldLiteral_eq_map (l : Literal Expr) :
    foldLiteral rule l = l.map (fold rule) := by
  cases l <;> simp [foldLiteral, Literal.map]

@[simp] theorem foldBlock_eq_map (b : Block Expr) : foldBlock rule b = b.map (fold rule) := by
  cases b
  simp [foldBlock, Block.map]

@[simp] theorem foldOptionBlock_eq_map (o : Option (Block Expr)) :
    foldOptionBlock rule o = o.map (·.map (fold rule)) := by
  cases o <;> simp [foldOptionBlock]

@[simp] theorem foldArgument_eq_map (a : Argument Expr) :
    foldArgument rule a = a.map (fold rule) := by
  cases a
  simp [foldArgument, Argument.map]

@[simp] theorem foldArguments_eq_map (as : List (Argument Expr)) :
    foldArguments rule as = as.map (·.map (fold rule)) := by
  induction as <;> simp_all [foldArguments]

@[simp] theorem foldForHead_eq_map (h : ForHead Expr) :
    foldForHead rule h = h.map (fold rule) := by
  cases h <;> simp [foldForHead, ForHead.map]

@[simp] theorem foldDeclaration_eq_map (d : Declaration Expr) :
    foldDeclaration rule d = d.map (fold rule) := by
  cases d
  simp [foldDeclaration, Declaration.map]

@[simp] theorem foldParam_eq_map (p : Param Expr) : foldParam rule p = p.map (fold rule) := by
  cases p
  simp [foldParam, Param.map]

@[simp] theorem foldParams_eq_map (ps : List (Param Expr)) :
    foldParams rule ps = ps.map (·.map (fold rule)) := by
  induction ps <;> simp_all [foldParams]

@[simp] theorem foldFunctionDef_eq_map (d : FunctionDef Expr) :
    foldFunctionDef rule d = d.map (fold rule) := by
  cases d
  simp [foldFunctionDef, FunctionDef.map]

@[simp] theorem foldMethod_eq_map (m : Member (FunctionDef Expr)) :
    foldMethod rule m = m.map (FunctionDef.map (fold rule)) := by
  cases m
  simp [foldMethod, Member.map]

@[simp] theorem foldMethods_eq_map (ms : List (Member (FunctionDef Expr))) :
    foldMethods rule ms = ms.map (Member.map (FunctionDef.map (fold rule))) := by
  induction ms <;> simp_all [foldMethods]

@[simp] theorem foldProperty_eq_map (m : Member (Declaration Expr)) :
    foldProperty rule m = m.map (Declaration.map (fold rule)) := by
  cases m
  simp [foldProperty, Member.map]

@[simp] theorem foldProperties_eq_map (ms : List (Member (Declaration Expr))) :
    foldProperties rule ms = ms.map (Member.map (Declaration.map (fold rule))) := by
  induction ms <;> simp_all [foldProperties]

@[simp] theorem foldOverload_eq_map (o : Overload Expr) :
    foldOverload rule o = o.map (fold rule) := by
  cases o
  simp [foldOverload, Overload.map]

@[simp] theorem foldOverloads_eq_map (os : List (Overload Expr)) :
    foldOverloads rule os = os.map (·.map (fold rule)) := by
  induction os <;> simp_all [foldOverloads]

@[simp] theorem foldMemberList_eq_map (m : MemberList Expr) :
    foldMemberList rule m = m.map (fold rule) := by
  cases m
  simp [foldMemberList, MemberList.map]

@[simp] theorem foldClassDef_eq_map (d : ClassDef Expr) :
    foldClassDef rule d = d.map (fold rule) := by
  cases d
  simp [foldClassDef, ClassDef.map]

@[simp] theorem foldTraitDef_eq_map (d : TraitDef Expr) :
    foldTraitDef rule d = d.map (fold rule) := by
  cases d
  simp [foldTraitDef, TraitDef.map]

@[simp] theorem foldForm_eq_map (form : Form Expr) :
    foldForm rule form = form.map (fold rule) := by
  cases form <;> simp [foldForm, Form.map]

/-- The value of an expression is the rule's value for its form with the values of its
sub-expressions in place. -/
theorem fold_mk (form : Form Expr) (span : Span) :
    fold rule ⟨form, span⟩ = rule (form.map (fold rule)) span := by
  simp [fold]

end Fold

/-! ## Assignment targets and labels -/

/-- Whether an expression may stand on the left of `=`. -/
def isAssignable (e : Expr) : Bool :=
  match e.form with
  | .identifier .. | .property .. | .element .. => true
  | _ => false

/-- The expression with a label, if it is a `for` loop, an endless loop or a block. A label it
already has is replaced. -/
def withLabel? (e : Expr) (label : String) : Option Expr :=
  match e.form with
  | .block b => some ⟨.block { b with label := some label }, e.span⟩
  | .endlessLoop body _ => some ⟨.endlessLoop body (some label), e.span⟩
  | .forLoop head body _ => some ⟨.forLoop head body (some label), e.span⟩
  | _ => none

/-- The label of a `for` loop, an endless loop or a block. -/
def label? (e : Expr) : Option String :=
  match e.form with
  | .block b => b.label
  | .endlessLoop _ label => label
  | .forLoop _ _ label => label
  | _ => none

end Expr

/-! ## Members -/

/-- The declared name, if the pattern of a declaration is nothing but a name. -/
def Declaration.simpleName? {ε : Type} (d : Declaration ε) : Option String :=
  d.pattern.simpleName?.map (·.name)

namespace MemberList

variable {ε : Type}

/-- No members. -/
def empty : MemberList ε :=
  ⟨[], [], []⟩

/-- The first property with a name. -/
def property? (m : MemberList ε) (name : String) : Option (Member (Declaration ε)) :=
  m.properties.find? (·.item.simpleName? == some name)

/-- The first method with a name. -/
def method? (m : MemberList ε) (name : String) : Option (Member (FunctionDef ε)) :=
  m.methods.find? (·.item.name.name == name)

/-- Adds a method at the end. -/
def addMethod (m : MemberList ε) (method : Member (FunctionDef ε)) : MemberList ε :=
  { m with methods := m.methods ++ [method] }

/-- Adds a property at the end. -/
def addProperty (m : MemberList ε) (property : Member (Declaration ε)) : MemberList ε :=
  { m with properties := m.properties ++ [property] }

/-- Puts an overload in its place by the operator's text, where it replaces an earlier one. -/
def insertOverload (new : Overload ε) : List (Overload ε) → List (Overload ε)
  | [] => [new]
  | o :: os =>
    if new.symbol < o.symbol then new :: o :: os
    else if new.symbol = o.symbol then new :: os
    else o :: insertOverload new os

/-- Adds an operator overload, which replaces an earlier one of the same operator. -/
def addOperator (m : MemberList ε) (new : Overload ε) : MemberList ε :=
  { m with operators := insertOverload new m.operators }

end MemberList

end FrontEnd
