import FrontEnd.Proofs.Spanned
import FrontEnd.Proofs.TreeInduction

/-!
# Spans of trees, tokens and diagnostics

The layers of a tree take their sub-expressions as a parameter, so each layer lists and replaces
the spans that are its own and passes on what is done to the sub-expressions. Trees follow by
folding.
-/

namespace FrontEnd

instance : Spanned Variant where
  spans v := spans v.name ++ spans v.fields
  respan φ v := ⟨respan φ v.name, respan φ v.fields⟩
  spans_respan φ v := by simp

@[simp] lemma respan_variant (φ : Span → Span) (name : Ident) (fields : List TypeExpr) :
    respan φ (⟨name, fields⟩ : Variant) = ⟨respan φ name, respan φ fields⟩ := rfl

/-! ## One layer of a tree

For each type of data, `gather` lists its spans, where `g` lists those of a sub-expression;
`relabel` replaces its spans by their images under `φ` and each sub-expression by its image under
`f`. -/

section Layer

variable {α β : Type} (φ : Span → Span) (f : α → β) (g : α → List Span)

def TemplatePart.gather : TemplatePart α → List Span
  | text _ => []
  | embedded e => g e

def Literal.gather : Literal α → List Span
  | template parts => parts.flatMap (·.gather g)
  | _ => []

def Block.gather (b : Block α) : List Span :=
  b.span :: b.body.toList.flatMap g

def Block.relabel (b : Block α) : Block β :=
  ⟨b.body.map f, b.label, φ b.span⟩

def Argument.gather (a : Argument α) : List Span :=
  spans a.name ++ g a.value

def Argument.relabel (a : Argument α) : Argument β :=
  ⟨respan φ a.name, f a.value⟩

def ForHead.gather : ForHead α → List Span
  | counting init condition step => g init ++ g condition ++ g step
  | iterating binding iterable => spans binding ++ g iterable

def ForHead.relabel : ForHead α → ForHead β
  | counting init condition step => counting (f init) (f condition) (f step)
  | iterating binding iterable => iterating (respan φ binding) (f iterable)

def Declaration.gather (d : Declaration α) : List Span :=
  spans d.pattern ++ spans d.type ++ d.value.toList.flatMap g

def Declaration.relabel (d : Declaration α) : Declaration β :=
  ⟨d.kind, respan φ d.pattern, respan φ d.type, d.value.map f⟩

def Param.gather (p : Param α) : List Span :=
  p.span :: (spans p.pattern ++ spans p.type ++ p.default.toList.flatMap g)

def Param.relabel (p : Param α) : Param β :=
  ⟨respan φ p.pattern, respan φ p.type, p.default.map f, φ p.span⟩

def FunctionDef.gather (d : FunctionDef α) : List Span :=
  spans d.name ++ spans d.typeParams ++ d.params.flatMap (·.gather g) ++ spans d.returnType ++
    d.body.toList.flatMap (·.gather g)

def FunctionDef.relabel (d : FunctionDef α) : FunctionDef β :=
  ⟨respan φ d.name, respan φ d.typeParams, d.params.map (·.relabel φ f), respan φ d.returnType,
    d.body.map (·.relabel φ f)⟩

def MemberList.gather (m : MemberList α) : List Span :=
  m.methods.flatMap (·.item.gather g) ++ m.properties.flatMap (·.item.gather g) ++
    m.operators.flatMap (·.function.gather g)

def Overload.relabel (o : Overload α) : Overload β :=
  ⟨o.symbol, o.function.relabel φ f⟩

def MemberList.relabel (m : MemberList α) : MemberList β :=
  ⟨m.methods.map (Member.map (FunctionDef.relabel φ f)),
    m.properties.map (Member.map (Declaration.relabel φ f)), m.operators.map (·.relabel φ f)⟩

def ClassDef.gather (d : ClassDef α) : List Span :=
  spans d.name ++ spans d.typeParams ++ d.members.gather g

def ClassDef.relabel (d : ClassDef α) : ClassDef β :=
  ⟨respan φ d.name, d.isStruct, respan φ d.typeParams, d.members.relabel φ f⟩

def TraitDef.gather (d : TraitDef α) : List Span :=
  spans d.name ++ spans d.typeParams ++ d.members.gather g

def TraitDef.relabel (d : TraitDef α) : TraitDef β :=
  ⟨respan φ d.name, d.isStructural, respan φ d.typeParams, d.members.relabel φ f⟩

def EnumDef.gather (d : EnumDef) : List Span :=
  spans d.name ++ spans d.typeParams ++ spans d.variants

def EnumDef.relabel (d : EnumDef) : EnumDef :=
  ⟨respan φ d.name, respan φ d.typeParams, respan φ d.variants⟩

def Form.gather : Form α → List Span
  | identifier ident => spans ident
  | literal value => value.gather g
  | group inside => g inside
  | unary _ operand => g operand
  | binary _ left right => g left ++ g right
  | post _ operand => g operand
  | assignment target value => g target ++ g value
  | property object name => g object ++ spans name
  | element object indices => g object ++ indices.flatMap g
  | call callee args => g callee ++ args.flatMap (·.gather g)
  | list elements => elements.flatMap g
  | mapping keys values => keys.flatMap g ++ values.flatMap g
  | block b => b.gather g
  | statement first rest => g first ++ rest.toList.flatMap g
  | conditional condition consequence alternative =>
    g condition ++ consequence.gather g ++ alternative.toList.flatMap g
  | whileLoop condition body => g condition ++ body.gather g
  | endlessLoop body _ => body.gather g
  | forLoop head body _ => head.gather g ++ body.gather g
  | typeCast type value => spans type ++ g value
  | lambda params body => params.flatMap (·.gather g) ++ g body
  | function definition => definition.gather g
  | classDef definition => definition.gather g
  | traitDef definition => definition.gather g
  | enumDef definition => definition.gather
  | returning value => value.toList.flatMap g
  | breaking value _ => value.toList.flatMap g
  | continuing _ => []
  | declaration d => d.gather g
  | binding name value => spans name ++ g value
  | importing path => spans path

def Form.relabel : Form α → Form β
  | identifier ident => identifier (respan φ ident)
  | literal value => literal (value.map f)
  | group inside => group (f inside)
  | unary op operand => unary op (f operand)
  | binary op left right => binary op (f left) (f right)
  | post op operand => post op (f operand)
  | assignment target value => assignment (f target) (f value)
  | property object field => property (f object) (respan φ field)
  | element object indices => element (f object) (indices.map f)
  | call callee args => call (f callee) (args.map (·.relabel φ f))
  | list elements => list (elements.map f)
  | mapping keys values => mapping (keys.map f) (values.map f)
  | block b => block (b.relabel φ f)
  | statement first rest => statement (f first) (rest.map f)
  | conditional condition consequence alternative =>
    conditional (f condition) (consequence.relabel φ f) (alternative.map f)
  | whileLoop condition body => whileLoop (f condition) (body.relabel φ f)
  | endlessLoop body label => endlessLoop (body.relabel φ f) label
  | forLoop head body label => forLoop (head.relabel φ f) (body.relabel φ f) label
  | typeCast type value => typeCast (respan φ type) (f value)
  | lambda params body => lambda (params.map (·.relabel φ f)) (f body)
  | function definition => function (definition.relabel φ f)
  | classDef definition => classDef (definition.relabel φ f)
  | traitDef definition => traitDef (definition.relabel φ f)
  | enumDef definition => enumDef (definition.relabel φ)
  | returning value => returning (value.map f)
  | breaking value label => breaking (value.map f) label
  | continuing label => continuing label
  | declaration d => declaration (d.relabel φ f)
  | binding bound value => binding (respan φ bound) (f value)
  | importing path => importing (respan φ path)

end Layer

section Map

variable {α β γ : Type} (φ : Span → Span) (f : α → β) (h : β → γ) (g : β → List Span)

@[simp] lemma TemplatePart.gather_map (p : TemplatePart α) :
    (p.map f).gather g = p.gather (fun a => g (f a)) := by
  cases p <;> rfl

@[simp] lemma TemplatePart.map_map (p : TemplatePart α) :
    (p.map f).map h = p.map (fun a => h (f a)) := by
  cases p <;> rfl

@[simp] lemma Literal.gather_map (l : Literal α) :
    (l.map f).gather g = l.gather (fun a => g (f a)) := by
  cases l <;> simp [Literal.map, Literal.gather, List.flatMap_map]

@[simp] lemma Literal.map_map (l : Literal α) :
    (l.map f).map h = l.map (fun a => h (f a)) := by
  cases l <;> simp [Literal.map]

@[simp] lemma Block.gather_map (b : Block α) :
    (b.map f).gather g = b.gather (fun a => g (f a)) := by
  simp [Block.map, Block.gather, List.flatMap_map, Option.toList_map]

@[simp] lemma Block.relabel_map (b : Block α) :
    (b.map f).relabel φ h = b.relabel φ (fun a => h (f a)) := by
  simp [Block.map, Block.relabel, Function.comp_def]

@[simp] lemma Argument.gather_map (a : Argument α) :
    (a.map f).gather g = a.gather (fun a => g (f a)) := rfl

@[simp] lemma Argument.relabel_map (a : Argument α) :
    (a.map f).relabel φ h = a.relabel φ (fun a => h (f a)) := rfl

@[simp] lemma ForHead.gather_map (head : ForHead α) :
    (head.map f).gather g = head.gather (fun a => g (f a)) := by
  cases head <;> rfl

@[simp] lemma ForHead.relabel_map (head : ForHead α) :
    (head.map f).relabel φ h = head.relabel φ (fun a => h (f a)) := by
  cases head <;> rfl

@[simp] lemma Declaration.gather_map (d : Declaration α) :
    (d.map f).gather g = d.gather (fun a => g (f a)) := by
  simp [Declaration.map, Declaration.gather, List.flatMap_map, Option.toList_map]

@[simp] lemma Declaration.relabel_map (d : Declaration α) :
    (d.map f).relabel φ h = d.relabel φ (fun a => h (f a)) := by
  simp [Declaration.map, Declaration.relabel, Function.comp_def]

@[simp] lemma Param.gather_map (p : Param α) :
    (p.map f).gather g = p.gather (fun a => g (f a)) := by
  simp [Param.map, Param.gather, List.flatMap_map, Option.toList_map]

@[simp] lemma Param.relabel_map (p : Param α) :
    (p.map f).relabel φ h = p.relabel φ (fun a => h (f a)) := by
  simp [Param.map, Param.relabel, Function.comp_def]

@[simp] lemma FunctionDef.gather_map (d : FunctionDef α) :
    (d.map f).gather g = d.gather (fun a => g (f a)) := by
  simp [FunctionDef.map, FunctionDef.gather, List.flatMap_map, Option.toList_map]

@[simp] lemma FunctionDef.relabel_map (d : FunctionDef α) :
    (d.map f).relabel φ h = d.relabel φ (fun a => h (f a)) := by
  simp [FunctionDef.map, FunctionDef.relabel, Function.comp_def]

@[simp] lemma MemberList.gather_map (m : MemberList α) :
    (m.map f).gather g = m.gather (fun a => g (f a)) := by
  simp [MemberList.map, MemberList.gather, Member.map, Overload.map, List.flatMap_map]

@[simp] lemma MemberList.relabel_map (m : MemberList α) :
    (m.map f).relabel φ h = m.relabel φ (fun a => h (f a)) := by
  simp [MemberList.map, MemberList.relabel, Member.map, Overload.map, Overload.relabel,
    Function.comp_def]

@[simp] lemma ClassDef.gather_map (d : ClassDef α) :
    (d.map f).gather g = d.gather (fun a => g (f a)) := by
  simp [ClassDef.map, ClassDef.gather]

@[simp] lemma ClassDef.relabel_map (d : ClassDef α) :
    (d.map f).relabel φ h = d.relabel φ (fun a => h (f a)) := by
  simp [ClassDef.map, ClassDef.relabel]

@[simp] lemma TraitDef.gather_map (d : TraitDef α) :
    (d.map f).gather g = d.gather (fun a => g (f a)) := by
  simp [TraitDef.map, TraitDef.gather]

@[simp] lemma TraitDef.relabel_map (d : TraitDef α) :
    (d.map f).relabel φ h = d.relabel φ (fun a => h (f a)) := by
  simp [TraitDef.map, TraitDef.relabel]

lemma Form.gather_map (form : Form α) :
    (form.map f).gather g = form.gather (fun a => g (f a)) := by
  cases form <;> simp [Form.map, Form.gather, List.flatMap_map, Option.toList_map]

lemma Form.relabel_map (form : Form α) :
    (form.map f).relabel φ h = form.relabel φ (fun a => h (f a)) := by
  cases form <;> simp [Form.map, Form.relabel, Function.comp_def]

end Map

section Relabel

variable {α β : Type} {φ : Span → Span} {f : α → β} {g : β → List Span} {k : α → List Span}
  (hf : ∀ a, g (f a) = (k a).map φ)

include hf

lemma TemplatePart.gather_relabel (p : TemplatePart α) :
    (p.map f).gather g = (p.gather k).map φ := by
  cases p <;> simp [TemplatePart.map, TemplatePart.gather, hf]

lemma Literal.gather_relabel (l : Literal α) : (l.map f).gather g = (l.gather k).map φ := by
  cases l with
  | template parts =>
    simp only [Literal.map, Literal.gather, List.flatMap_map, List.map_flatMap,
      TemplatePart.gather_relabel hf]
  | _ => rfl

lemma Block.gather_relabel (b : Block α) :
    (b.relabel φ f).gather g = (b.gather k).map φ := by
  simp [Block.relabel, Block.gather, Option.toList_map, List.flatMap_map, List.map_flatMap, hf]

lemma Argument.gather_relabel (a : Argument α) :
    (a.relabel φ f).gather g = (a.gather k).map φ := by
  simp [Argument.relabel, Argument.gather, hf]

lemma ForHead.gather_relabel (head : ForHead α) :
    (head.relabel φ f).gather g = (head.gather k).map φ := by
  cases head <;> simp [ForHead.relabel, ForHead.gather, hf]

lemma Declaration.gather_relabel (d : Declaration α) :
    (d.relabel φ f).gather g = (d.gather k).map φ := by
  simp [Declaration.relabel, Declaration.gather, Option.toList_map, List.flatMap_map,
    List.map_flatMap, hf]

lemma Param.gather_relabel (p : Param α) :
    (p.relabel φ f).gather g = (p.gather k).map φ := by
  simp [Param.relabel, Param.gather, Option.toList_map, List.flatMap_map, List.map_flatMap, hf]

lemma FunctionDef.gather_relabel (d : FunctionDef α) :
    (d.relabel φ f).gather g = (d.gather k).map φ := by
  simp [FunctionDef.relabel, FunctionDef.gather, Option.toList_map, List.flatMap_map,
    List.map_flatMap, Param.gather_relabel hf, Block.gather_relabel hf]

lemma MemberList.gather_relabel (m : MemberList α) :
    (m.relabel φ f).gather g = (m.gather k).map φ := by
  simp [MemberList.relabel, MemberList.gather, Member.map, Overload.relabel, List.flatMap_map,
    List.map_flatMap, FunctionDef.gather_relabel hf, Declaration.gather_relabel hf]

lemma ClassDef.gather_relabel (d : ClassDef α) :
    (d.relabel φ f).gather g = (d.gather k).map φ := by
  simp [ClassDef.relabel, ClassDef.gather, MemberList.gather_relabel hf]

lemma TraitDef.gather_relabel (d : TraitDef α) :
    (d.relabel φ f).gather g = (d.gather k).map φ := by
  simp [TraitDef.relabel, TraitDef.gather, MemberList.gather_relabel hf]

omit hf in
lemma EnumDef.gather_relabel (d : EnumDef) :
    (d.relabel φ).gather = d.gather.map φ := by
  simp [EnumDef.relabel, EnumDef.gather]

lemma Form.gather_relabel (form : Form α) :
    (form.relabel φ f).gather g = (form.gather k).map φ := by
  cases form with
  | literal value => exact Literal.gather_relabel hf value
  | block b => exact Block.gather_relabel hf b
  | function definition => exact FunctionDef.gather_relabel hf definition
  | classDef definition => exact ClassDef.gather_relabel hf definition
  | traitDef definition => exact TraitDef.gather_relabel hf definition
  | enumDef definition => exact EnumDef.gather_relabel definition
  | declaration d => exact Declaration.gather_relabel hf d
  | _ =>
    simp [Form.relabel, Form.gather, Option.toList_map, List.flatMap_map, List.map_flatMap, hf,
      Argument.gather_relabel hf, Block.gather_relabel hf, ForHead.gather_relabel hf,
      Param.gather_relabel hf]

end Relabel

section Instances

variable {ε : Type} [Spanned ε] (φ : Span → Span)

instance : Spanned (TemplatePart ε) :=
  ⟨TemplatePart.gather spans, fun φ => TemplatePart.map (respan φ),
    fun φ => TemplatePart.gather_relabel (spans_respan φ)⟩

instance : Spanned (Literal ε) :=
  ⟨Literal.gather spans, fun φ => Literal.map (respan φ),
    fun φ => Literal.gather_relabel (spans_respan φ)⟩

instance : Spanned (Block ε) :=
  ⟨Block.gather spans, fun φ => Block.relabel φ (respan φ),
    fun φ => Block.gather_relabel (spans_respan φ)⟩

instance : Spanned (Argument ε) :=
  ⟨Argument.gather spans, fun φ => Argument.relabel φ (respan φ),
    fun φ => Argument.gather_relabel (spans_respan φ)⟩

instance : Spanned (ForHead ε) :=
  ⟨ForHead.gather spans, fun φ => ForHead.relabel φ (respan φ),
    fun φ => ForHead.gather_relabel (spans_respan φ)⟩

instance : Spanned (Declaration ε) :=
  ⟨Declaration.gather spans, fun φ => Declaration.relabel φ (respan φ),
    fun φ => Declaration.gather_relabel (spans_respan φ)⟩

instance : Spanned (Param ε) :=
  ⟨Param.gather spans, fun φ => Param.relabel φ (respan φ),
    fun φ => Param.gather_relabel (spans_respan φ)⟩

instance : Spanned (FunctionDef ε) :=
  ⟨FunctionDef.gather spans, fun φ => FunctionDef.relabel φ (respan φ),
    fun φ => FunctionDef.gather_relabel (spans_respan φ)⟩

instance : Spanned (MemberList ε) :=
  ⟨MemberList.gather spans, fun φ => MemberList.relabel φ (respan φ),
    fun φ => MemberList.gather_relabel (spans_respan φ)⟩

instance : Spanned EnumDef :=
  ⟨EnumDef.gather, EnumDef.relabel, fun _ => EnumDef.gather_relabel⟩

instance : Spanned (Form ε) :=
  ⟨Form.gather spans, fun φ => Form.relabel φ (respan φ),
    fun φ => Form.gather_relabel (spans_respan φ)⟩

end Instances

/-! ## Trees -/

namespace Expr

/-- The spans of a tree: of every expression, block, pattern, type, parameter and name in it. -/
def gather : Expr → List Span :=
  fold fun form span => span :: form.gather id

/-- A tree with its spans replaced. -/
def relabel (φ : Span → Span) : Expr → Expr :=
  fold fun form span => ⟨form.relabel φ id, φ span⟩

lemma gather_mk (form : Form Expr) (span : Span) :
    gather ⟨form, span⟩ = span :: form.gather gather := by
  rw [gather, fold_mk, Form.gather_map]
  rfl

lemma relabel_mk (φ : Span → Span) (form : Form Expr) (span : Span) :
    relabel φ ⟨form, span⟩ = ⟨form.relabel φ (relabel φ), φ span⟩ := by
  rw [relabel, fold_mk, Form.relabel_map]
  rfl

lemma gather_relabel (φ : Span → Span) (e : Expr) :
    (e.relabel φ).gather = e.gather.map φ := by
  induction e using layered_induction with
  | step form span =>
    have hsub : ∀ e : {e : Expr // (e.relabel φ).gather = e.gather.map φ},
        (e.val.relabel φ).gather = e.val.gather.map φ := fun e => e.property
    rw [relabel_mk, gather_mk, gather_mk, Form.relabel_map, Form.gather_map,
      Form.gather_relabel hsub, List.map_cons]

end Expr

instance : Spanned Expr := ⟨Expr.gather, Expr.relabel, Expr.gather_relabel⟩

@[simp] lemma respan_expr (φ : Span → Span) (form : Form Expr) (span : Span) :
    respan φ (⟨form, span⟩ : Expr) = ⟨respan φ form, φ span⟩ :=
  Expr.relabel_mk φ form span

@[simp] lemma span_respan_expr (φ : Span → Span) (e : Expr) : (respan φ e).span = φ e.span := by
  cases e
  rw [respan_expr]

/-! ### The equations of relabelling -/

section Equations

variable {ε : Type} [Spanned ε] (φ : Span → Span)

@[simp] lemma respan_templateText (content : String) :
    respan φ (.text content : TemplatePart ε) = .text content := rfl

@[simp] lemma respan_templateEmbedded (e : ε) :
    respan φ (TemplatePart.embedded e) = .embedded (respan φ e) := rfl

namespace Literal

@[simp] lemma respan_number (value : Float) :
    respan φ (number value : Literal ε) = number value := rfl

@[simp] lemma respan_string (value : String) :
    respan φ (string value : Literal ε) = string value := rfl

@[simp] lemma respan_char (value : Char) : respan φ (char value : Literal ε) = char value := rfl

@[simp] lemma respan_bool (value : Bool) : respan φ (bool value : Literal ε) = bool value := rfl

@[simp] lemma respan_template (parts : List (TemplatePart ε)) :
    respan φ (template parts) = template (respan φ parts) := rfl

end Literal

@[simp] lemma respan_block (body : Option ε) (label : Option String) (span : Span) :
    respan φ (⟨body, label, span⟩ : Block ε) = ⟨respan φ body, label, φ span⟩ := rfl

@[simp] lemma span_respan_block (b : Block ε) : (respan φ b).span = φ b.span := rfl

@[simp] lemma respan_argument (name : Option Ident) (value : ε) :
    respan φ (⟨name, value⟩ : Argument ε) = ⟨respan φ name, respan φ value⟩ := rfl

@[simp] lemma respan_counting (init condition step : ε) :
    respan φ (ForHead.counting init condition step) =
      .counting (respan φ init) (respan φ condition) (respan φ step) := rfl

@[simp] lemma respan_iterating (binding : Pattern) (iterable : ε) :
    respan φ (ForHead.iterating binding iterable) =
      .iterating (respan φ binding) (respan φ iterable) := rfl

@[simp] lemma respan_declarationData (kind : DeclKind) (pattern : Pattern)
    (type : Option TypeExpr) (value : Option ε) :
    respan φ (⟨kind, pattern, type, value⟩ : Declaration ε) =
      ⟨kind, respan φ pattern, respan φ type, respan φ value⟩ := rfl

@[simp] lemma respan_param (pattern : Pattern) (type : Option TypeExpr) (value : Option ε)
    (span : Span) :
    respan φ (⟨pattern, type, value, span⟩ : Param ε) =
      ⟨respan φ pattern, respan φ type, respan φ value, φ span⟩ := rfl

@[simp] lemma respan_functionDef (name : Ident) (typeParams : List TypeParam)
    (params : List (Param ε)) (returnType : Option TypeExpr) (body : Option (Block ε)) :
    respan φ (⟨name, typeParams, params, returnType, body⟩ : FunctionDef ε) =
      ⟨respan φ name, respan φ typeParams, respan φ params, respan φ returnType,
        respan φ body⟩ := rfl

@[simp] lemma respan_classData (name : Ident) (isStruct : Bool) (typeParams : List TypeParam)
    (members : MemberList ε) :
    ClassDef.relabel φ (respan φ) (⟨name, isStruct, typeParams, members⟩ : ClassDef ε) =
      ⟨respan φ name, isStruct, respan φ typeParams, respan φ members⟩ := rfl

@[simp] lemma respan_traitData (name : Ident) (isStructural : Bool)
    (typeParams : List TypeParam) (members : MemberList ε) :
    TraitDef.relabel φ (respan φ) (⟨name, isStructural, typeParams, members⟩ : TraitDef ε) =
      ⟨respan φ name, isStructural, respan φ typeParams, respan φ members⟩ := rfl

@[simp] lemma respan_enumData (name : Ident) (typeParams : List TypeParam)
    (variants : List Variant) :
    EnumDef.relabel φ ⟨name, typeParams, variants⟩ =
      ⟨respan φ name, respan φ typeParams, respan φ variants⟩ := rfl

namespace Form

@[simp] lemma respan_identifier (ident : Ident) :
    respan φ (identifier ident : Form ε) = identifier (respan φ ident) := rfl

@[simp] lemma respan_literal (value : Literal ε) :
    respan φ (literal value) = literal (respan φ value) := rfl

@[simp] lemma respan_group (inside : ε) : respan φ (group inside) = group (respan φ inside) := rfl

@[simp] lemma respan_unary (op : UnaryOp) (operand : ε) :
    respan φ (unary op operand) = unary op (respan φ operand) := rfl

@[simp] lemma respan_binary (op : BinaryOp) (left right : ε) :
    respan φ (binary op left right) = binary op (respan φ left) (respan φ right) := rfl

@[simp] lemma respan_post (op : PostOp) (operand : ε) :
    respan φ (post op operand) = post op (respan φ operand) := rfl

@[simp] lemma respan_assignment (target value : ε) :
    respan φ (assignment target value) = assignment (respan φ target) (respan φ value) := rfl

@[simp] lemma respan_property (object : ε) (field : Ident) :
    respan φ (property object field) = property (respan φ object) (respan φ field) := rfl

@[simp] lemma respan_element (object : ε) (indices : List ε) :
    respan φ (element object indices) = element (respan φ object) (respan φ indices) := rfl

@[simp] lemma respan_call (callee : ε) (args : List (Argument ε)) :
    respan φ (call callee args) = call (respan φ callee) (respan φ args) := rfl

@[simp] lemma respan_listForm (elements : List ε) :
    respan φ (list elements) = list (respan φ elements) := rfl

@[simp] lemma respan_mapping (keys values : List ε) :
    respan φ (mapping keys values) = mapping (respan φ keys) (respan φ values) := rfl

@[simp] lemma respan_blockForm (b : Block ε) : respan φ (block b) = block (respan φ b) := rfl

@[simp] lemma respan_statement (first : ε) (rest : Option ε) :
    respan φ (statement first rest) = statement (respan φ first) (respan φ rest) := rfl

@[simp] lemma respan_conditional (condition : ε) (consequence : Block ε)
    (alternative : Option ε) :
    respan φ (conditional condition consequence alternative) =
      conditional (respan φ condition) (respan φ consequence) (respan φ alternative) := rfl

@[simp] lemma respan_whileLoop (condition : ε) (body : Block ε) :
    respan φ (whileLoop condition body) = whileLoop (respan φ condition) (respan φ body) := rfl

@[simp] lemma respan_endlessLoop (body : Block ε) (label : Option String) :
    respan φ (endlessLoop body label) = endlessLoop (respan φ body) label := rfl

@[simp] lemma respan_forLoop (head : ForHead ε) (body : Block ε) (label : Option String) :
    respan φ (forLoop head body label) = forLoop (respan φ head) (respan φ body) label := rfl

@[simp] lemma respan_typeCast (type : TypeExpr) (value : ε) :
    respan φ (typeCast type value) = typeCast (respan φ type) (respan φ value) := rfl

@[simp] lemma respan_lambda (params : List (Param ε)) (body : ε) :
    respan φ (lambda params body) = lambda (respan φ params) (respan φ body) := rfl

@[simp] lemma respan_function (definition : FunctionDef ε) :
    respan φ (function definition) = function (respan φ definition) := rfl

@[simp] lemma respan_classDef (definition : ClassDef ε) :
    respan φ (classDef definition) = classDef (definition.relabel φ (respan φ)) := rfl

@[simp] lemma respan_traitDef (definition : TraitDef ε) :
    respan φ (traitDef definition) = traitDef (definition.relabel φ (respan φ)) := rfl

@[simp] lemma respan_enumDef (definition : EnumDef) :
    respan φ (enumDef definition : Form ε) = enumDef (definition.relabel φ) := rfl

@[simp] lemma respan_returning (value : Option ε) :
    respan φ (returning value) = returning (respan φ value) := rfl

@[simp] lemma respan_breaking (value : Option ε) (label : Option String) :
    respan φ (breaking value label) = breaking (respan φ value) label := rfl

@[simp] lemma respan_continuing (label : Option String) :
    respan φ (continuing label : Form ε) = continuing label := rfl

@[simp] lemma respan_declaration (d : Declaration ε) :
    respan φ (declaration d) = declaration (respan φ d) := rfl

@[simp] lemma respan_binding (bound : Ident) (value : ε) :
    respan φ (binding bound value) = binding (respan φ bound) (respan φ value) := rfl

@[simp] lemma respan_importing (path : ImportSection) :
    respan φ (importing path : Form ε) = importing (respan φ path) := rfl

end Form

end Equations

/-! ## Members -/

section Members

variable {ε : Type} [Spanned ε] (φ : Span → Span)

@[simp] lemma respan_noMembers : respan φ (MemberList.empty : MemberList ε) = .empty := rfl

@[simp] lemma respan_addMethod (m : MemberList ε) (function : FunctionDef ε) (scope : Scope)
    (visibility : Visibility) :
    respan φ (m.addMethod ⟨function, scope, visibility⟩) =
      (respan φ m).addMethod ⟨respan φ function, scope, visibility⟩ := by
  simp [respan, MemberList.relabel, MemberList.addMethod, Member.map]

@[simp] lemma respan_addProperty (m : MemberList ε) (declared : Declaration ε) (scope : Scope)
    (visibility : Visibility) :
    respan φ (m.addProperty ⟨declared, scope, visibility⟩) =
      (respan φ m).addProperty ⟨respan φ declared, scope, visibility⟩ := by
  simp [respan, MemberList.relabel, MemberList.addProperty, Member.map]

instance : Spanned (Overload ε) where
  spans o := spans o.function
  respan φ o := ⟨o.symbol, respan φ o.function⟩
  spans_respan φ o := by simp

@[simp] lemma respan_overload (symbol : String) (function : FunctionDef ε) :
    respan φ (⟨symbol, function⟩ : Overload ε) = ⟨symbol, respan φ function⟩ := rfl

@[simp] lemma respan_insertOverload (new : Overload ε) (os : List (Overload ε)) :
    respan φ (MemberList.insertOverload new os) =
      MemberList.insertOverload (respan φ new) (respan φ os) := by
  induction os with
  | nil => rfl
  | cons o os ih =>
    have hsymbol : ∀ o : Overload ε, (respan φ o).symbol = o.symbol := fun _ => rfl
    simp only [MemberList.insertOverload, respan_cons, hsymbol]
    split
    · rfl
    · split
      · rfl
      · rw [respan_cons, ih]

@[simp] lemma respan_addOperator (m : MemberList ε) (new : Overload ε) :
    respan φ (m.addOperator new) = (respan φ m).addOperator (respan φ new) :=
  congrArg (MemberList.mk _ _) (respan_insertOverload φ new m.operators)

@[simp] lemma declaredName_respan (d : Declaration ε) :
    (respan φ d).simpleName? = d.simpleName? := by
  change (respan φ d.pattern).simpleName?.map (·.name) = d.pattern.simpleName?.map (·.name)
  rw [simpleName?_respan]
  cases d.pattern.simpleName? <;> rfl

lemma isSome_property?_respan (m : MemberList ε) (name : String) :
    ((respan φ m).property? name).isSome = (m.property? name).isSome := by
  have hitem : ∀ p : Member (Declaration ε),
      (Member.map (respan φ) p).item.simpleName? = p.item.simpleName? :=
    fun p => declaredName_respan φ p.item
  change ((m.properties.map (Member.map (respan φ))).find? _).isSome = _
  rw [List.find?_map, Option.isSome_map]
  simp only [Function.comp_def, hitem]
  rfl

end Members

/-! ## Labels and targets -/

section Labels

variable (φ : Span → Span)

@[simp] lemma isAssignable_respan (e : Expr) : (respan φ e).isAssignable = e.isAssignable := by
  obtain ⟨form, span⟩ := e
  rw [respan_expr]
  cases form <;> rfl

@[simp] lemma withLabel?_respan (e : Expr) (label : String) :
    (respan φ e).withLabel? label = respan φ (e.withLabel? label) := by
  obtain ⟨form, span⟩ := e
  rw [respan_expr]
  cases form with
  | block b =>
    obtain ⟨body, former, place⟩ := b
    simp [Expr.withLabel?]
  | endlessLoop body former => simp [Expr.withLabel?]
  | forLoop head body former => simp [Expr.withLabel?]
  | _ => rfl

end Labels

/-! ## Tokens and diagnostics -/

section Tokens

variable (φ : Span → Span)

instance : Spanned TokenValue where
  spans
    | .template parts => spans parts
    | _ => []
  respan φ
    | .template parts => .template (respan φ parts)
    | value => value
  spans_respan φ value := by cases value <;> simp

namespace TokenValue

@[simp] lemma respan_absent : respan φ none = none := rfl

@[simp] lemma respan_numberValue (value : Float) : respan φ (number value) = number value := rfl

@[simp] lemma respan_boolValue (value : Bool) : respan φ (bool value) = bool value := rfl

@[simp] lemma respan_charValue (value : Char) : respan φ (char value) = char value := rfl

@[simp] lemma respan_textValue (value : String) : respan φ (text value) = text value := rfl

@[simp] lemma respan_templateValue (parts : List (TemplatePart Expr)) :
    respan φ (template parts) = template (respan φ parts) := rfl

end TokenValue

instance : Spanned Token where
  spans t := t.span :: spans t.value
  respan φ t := ⟨t.kind, respan φ t.value, φ t.span, t.lexeme⟩
  spans_respan φ t := by simp

instance : Spanned Diagnostic where
  spans d := [d.span]
  respan φ d := { d with span := φ d.span }
  spans_respan _ _ := rfl

instance {α : Type} [Spanned α] : Spanned (Production.Modified α) where
  spans
    | .opened _ => []
    | .member value => spans value
  respan φ
    | .opened blocks => .opened blocks
    | .member value => .member (respan φ value)
  spans_respan φ m := by cases m <;> simp

end Tokens

/-! ## Pieces of template strings -/

section Pieces

variable (φ : Span → Span)

instance : Spanned Scan.Piece where
  spans
    | .text _ => []
    | .embedded expr => spans expr
  respan φ
    | .text content => .text content
    | .embedded expr => .embedded (respan φ expr)
  spans_respan φ piece := by cases piece <;> simp

@[simp] lemma respan_textPiece (content : List Char) :
    respan φ (Scan.Piece.text content) = .text content := rfl

@[simp] lemma respan_embeddedPiece (expr : Expr) :
    respan φ (Scan.Piece.embedded expr) = .embedded (respan φ expr) := rfl

lemma flush_respan (text : List Char) (parts : List (TemplatePart Expr)) :
    Scan.Piece.flush (text, respan φ parts) = respan φ (Scan.Piece.flush (text, parts)) := by
  cases text with
  | nil => rfl
  | cons c cs => rfl

lemma join_respan (piece : Scan.Piece) (text : List Char) (parts : List (TemplatePart Expr)) :
    Scan.Piece.join (respan φ piece) (text, respan φ parts) =
      ((piece.join (text, parts)).1, respan φ (piece.join (text, parts)).2) := by
  cases piece with
  | text content => rfl
  | embedded expr => simp [Scan.Piece.join, flush_respan]

lemma foldr_join_respan (pieces : List Scan.Piece) :
    (respan φ pieces).foldr Scan.Piece.join ([], []) =
      ((pieces.foldr Scan.Piece.join ([], [])).1,
        respan φ (pieces.foldr Scan.Piece.join ([], [])).2) := by
  induction pieces with
  | nil => rfl
  | cons piece pieces ih => rw [respan_cons, List.foldr_cons, ih, join_respan, List.foldr_cons]

lemma parts_respan (pieces : List Scan.Piece) :
    Scan.Piece.parts (respan φ pieces) = respan φ (Scan.Piece.parts pieces) := by
  rw [Scan.Piece.parts, foldr_join_respan, flush_respan, Scan.Piece.parts]

end Pieces

end FrontEnd
