import FrontEnd.Proofs.SpannedTree
import FrontEnd.Proofs.TreeInduction

/-!
# The nodes and the leaves of a tree

A tree seen as nested ranges of the source: `Nest` keeps of it the places of its expressions,
blocks, patterns, types, parameters and names, how they lie in one another, and the leaves, in the
order in which they are written. `Nest.leaves` lists the leaves, and `Nest.Within` says that every
node lies in the node around it.
-/

namespace FrontEnd

/-- What stands at the leaves of a tree: names, labels, and literals. -/
inductive Leaf where
  | name (text : String)
  | label (text : String)
  | number (value : Float)
  | string (value : String)
  | char (value : Char)
  | template (parts : List (TemplatePart Expr))

/-- Nested nodes and leaves. A leaf has no place of its own, but it may hold nodes. -/
inductive Nest where
  | leaf (value : Leaf) (inside : List Nest)
  | node (span : Span) (inside : List Nest)

namespace Nest

mutual

/-- The leaves, in order. What a leaf holds is part of it. -/
def leaves : Nest → List Leaf
  | leaf value _ => [value]
  | node _ inside => allLeaves inside

def allLeaves : List Nest → List Leaf
  | [] => []
  | n :: ns => n.leaves ++ allLeaves ns

end

lemma allLeaves_eq (ns : List Nest) : allLeaves ns = ns.flatMap leaves := by
  induction ns with
  | nil => rfl
  | cons n ns ih => rw [allLeaves, ih, List.flatMap_cons]

@[simp] lemma leaves_leaf (value : Leaf) (inside : List Nest) :
    (leaf value inside).leaves = [value] := by
  rw [leaves]

@[simp] lemma leaves_node (span : Span) (inside : List Nest) :
    (node span inside).leaves = inside.flatMap leaves := by
  rw [leaves, allLeaves_eq]

end Nest

/-- A range lies in another. -/
def Span.Inside (s t : Span) : Prop :=
  t.offset ≤ s.offset ∧ s.stop ≤ t.stop

lemma Span.Inside.refl (s : Span) : s.Inside s :=
  ⟨Nat.le_refl _, Nat.le_refl _⟩

lemma Span.Inside.trans {s t u : Span} (h : s.Inside t) (h' : t.Inside u) : s.Inside u :=
  ⟨Nat.le_trans h'.1 h.1, Nat.le_trans h.2 h'.2⟩

/-- A node lies in the range around it, and each node in it lies in the node next around. -/
inductive Nest.Within : Span → Nest → Prop where
  | leaf {outer value inside} (h : ∀ n ∈ inside, Within outer n) :
    Within outer (.leaf value inside)
  | node {outer span inside} (hspan : span.Inside outer) (h : ∀ n ∈ inside, Within span n) :
    Within outer (.node span inside)

lemma Nest.Within.mono {s t : Span} {n : Nest} (h : n.Within s) (hst : s.Inside t) :
    n.Within t := by
  induction h generalizing t with
  | leaf h ih => exact .leaf fun n hn => ih n hn hst
  | node hspan h ih => exact .node (hspan.trans hst) h

/-! ## Names, types, patterns and imports -/

/-- A name is a node with one leaf. -/
def Ident.nest (i : Ident) : Nest :=
  .node i.span [.leaf (.name i.name) []]

mutual

def TypeExpr.nest : TypeExpr → Nest
  | .mk name params span => .node span (name.nest :: TypeExpr.nestAll params)

def TypeExpr.nestAll : List TypeExpr → List Nest
  | [] => []
  | t :: ts => t.nest :: TypeExpr.nestAll ts

end

@[simp] lemma TypeExpr.nest_mk (name : Ident) (params : List TypeExpr) (span : Span) :
    (TypeExpr.mk name params span).nest = .node span (name.nest :: params.map TypeExpr.nest) := by
  have hall : ∀ ts, TypeExpr.nestAll ts = ts.map TypeExpr.nest := by
    intro ts
    induction ts with
    | nil => rfl
    | cons t ts ih => rw [TypeExpr.nestAll, ih, List.map_cons]
  rw [TypeExpr.nest, hall]

/-- A type parameter is its name and the types of its bounds. -/
def TypeParam.nests (p : TypeParam) : List Nest :=
  p.type.nest :: p.constraint.links.map (·.2.nest)

/-- A field of an object pattern. -/
def Field.nests {π : Type} (nest : π → Nest) (f : Field π) : List Nest :=
  f.name.nest :: f.pattern.toList.map nest

mutual

def Pattern.nest : Pattern → Nest
  | ⟨.name ident, span⟩ => .node span [ident.nest]
  | ⟨.named name pattern, span⟩ => .node span [name.nest, pattern.nest]
  | ⟨.list elements, span⟩ => .node span (Pattern.nestAll elements)
  | ⟨.object fields, span⟩ => .node span (Pattern.nestFields fields)

def Pattern.nestAll : List Pattern → List Nest
  | [] => []
  | p :: ps => p.nest :: Pattern.nestAll ps

def Pattern.nestFields : List (Field Pattern) → List Nest
  | [] => []
  | ⟨name, none⟩ :: fs => name.nest :: Pattern.nestFields fs
  | ⟨name, some p⟩ :: fs => name.nest :: p.nest :: Pattern.nestFields fs

end

namespace Pattern

@[simp] lemma nest_name (ident : Ident) (span : Span) :
    nest ⟨.name ident, span⟩ = .node span [ident.nest] := by
  rw [nest]

@[simp] lemma nest_named (name : Ident) (p : Pattern) (span : Span) :
    nest ⟨.named name p, span⟩ = .node span [name.nest, p.nest] := by
  rw [nest]

@[simp] lemma nest_list (ps : List Pattern) (span : Span) :
    nest ⟨.list ps, span⟩ = .node span (ps.map nest) := by
  have hall : nestAll ps = ps.map nest := by
    induction ps with
    | nil => rfl
    | cons p ps ih => rw [nestAll, ih, List.map_cons]
  rw [nest, hall]

@[simp] lemma nest_object (fs : List (Field Pattern)) (span : Span) :
    nest ⟨.object fs, span⟩ = .node span (fs.flatMap (Field.nests nest)) := by
  have hall : nestFields fs = fs.flatMap (Field.nests nest) := by
    induction fs with
    | nil => rfl
    | cons f fs ih =>
      obtain ⟨name, _ | p⟩ := f <;> rw [nestFields, ih, List.flatMap_cons] <;> rfl
  rw [nest, hall]

end Pattern

mutual

def ImportSection.nests : ImportSection → List Nest
  | .terminal name localName => name.nest :: localName.toList.map Ident.nest
  | .element name rest => name.nest :: rest.nests
  | .list sections => ImportSection.nestsAll sections

def ImportSection.nestsAll : List ImportSection → List Nest
  | [] => []
  | s :: ss => s.nests ++ ImportSection.nestsAll ss

end

namespace ImportSection

@[simp] lemma nests_terminal (name : Ident) (localName : Option Ident) :
    nests (.terminal name localName) = name.nest :: localName.toList.map Ident.nest := by
  rw [nests]

@[simp] lemma nests_element (name : Ident) (rest : ImportSection) :
    nests (.element name rest) = name.nest :: rest.nests := by
  rw [nests]

@[simp] lemma nests_list (sections : List ImportSection) :
    nests (.list sections) = sections.flatMap nests := by
  have hall : nestsAll sections = sections.flatMap nests := by
    induction sections with
    | nil => rfl
    | cons s ss ih => rw [nestsAll, ih, List.flatMap_cons]
  rw [nests, hall]

end ImportSection

/-- A label is a leaf. -/
def labelNests (label : Option String) : List Nest :=
  label.toList.map fun text => .leaf (.label text) []

/-! ## One layer of a tree

For each type of data, `nests` lists the nodes and leaves that it is made of, in the order in which
they are written, where `f` gives the node of a sub-expression. Methods, properties and operators
are listed apart, as a class or trait keeps them. -/

section Layer

variable {α : Type} (e : α → Expr) (f : α → Nest)

def TemplatePart.nests : TemplatePart α → List Nest
  | text _ => []
  | embedded a => [f a]

/-- A literal is a leaf, unless it is `true` or `false`; `e` gives the expressions of a template. -/
def Literal.nests : Literal α → List Nest
  | number value => [.leaf (.number value) []]
  | string value => [.leaf (.string value) []]
  | char value => [.leaf (.char value) []]
  | bool _ => []
  | template parts =>
    [.leaf (.template (parts.map (·.map e))) (parts.flatMap (·.nests f))]

/-- A block is a node, behind its label. -/
def Block.nests (b : Block α) : List Nest :=
  labelNests b.label ++ [.node b.span (b.body.toList.map f)]

def Argument.nests (a : Argument α) : List Nest :=
  a.name.toList.map Ident.nest ++ [f a.value]

def ForHead.nests : ForHead α → List Nest
  | counting init condition step => [f init, f condition, f step]
  | iterating binding iterable => [binding.nest, f iterable]

def Declaration.nests (d : Declaration α) : List Nest :=
  d.pattern.nest :: (d.type.toList.map TypeExpr.nest ++ d.value.toList.map f)

def Param.nest (p : Param α) : Nest :=
  .node p.span
    (p.pattern.nest :: (p.type.toList.map TypeExpr.nest ++ p.default.toList.map f))

/-- What follows the name of a function. -/
def FunctionDef.nestsBehind (d : FunctionDef α) : List Nest :=
  d.typeParams.flatMap TypeParam.nests ++ d.params.map (·.nest f) ++
    d.returnType.toList.map TypeExpr.nest ++ d.body.toList.flatMap (·.nests f)

def FunctionDef.nests (d : FunctionDef α) : List Nest :=
  d.name.nest :: d.nestsBehind f

/-- The name of an overload is the operator, which is no leaf. -/
def Overload.nests (o : Overload α) : List Nest :=
  .node o.function.name.span [] :: o.function.nestsBehind f

def MemberList.nests (m : MemberList α) : List Nest :=
  m.methods.flatMap (·.item.nests f) ++ m.properties.flatMap (·.item.nests f) ++
    m.operators.flatMap (·.nests f)

def ClassDef.nests (d : ClassDef α) : List Nest :=
  d.name.nest :: (d.typeParams.flatMap TypeParam.nests ++ d.members.nests f)

def TraitDef.nests (d : TraitDef α) : List Nest :=
  d.name.nest :: (d.typeParams.flatMap TypeParam.nests ++ d.members.nests f)

def Variant.nests (v : Variant) : List Nest :=
  v.name.nest :: v.fields.map TypeExpr.nest

def EnumDef.nests (d : EnumDef) : List Nest :=
  d.name.nest :: (d.typeParams.flatMap TypeParam.nests ++ d.variants.flatMap Variant.nests)

def Form.nests : Form α → List Nest
  | identifier ident => [ident.nest]
  | literal value => value.nests e f
  | group inside => [f inside]
  | unary _ operand => [f operand]
  | binary _ left right => [f left, f right]
  | post _ operand => [f operand]
  | assignment target value => [f target, f value]
  | property object name => [f object, name.nest]
  | element object indices => f object :: indices.map f
  | call callee args => f callee :: args.flatMap (·.nests f)
  | list elements => elements.map f
  | mapping keys values => (keys.zip values).flatMap fun entry => [f entry.1, f entry.2]
  | block b => b.nests f
  | statement first rest => f first :: rest.toList.map f
  | conditional condition consequence alternative =>
    f condition :: (consequence.nests f ++ alternative.toList.map f)
  | whileLoop condition body => f condition :: body.nests f
  | endlessLoop body label => labelNests label ++ body.nests f
  | forLoop head body label => labelNests label ++ head.nests f ++ body.nests f
  | typeCast type value => [type.nest, f value]
  | lambda params body => params.map (·.nest f) ++ [f body]
  | function definition => definition.nests f
  | classDef definition => definition.nests f
  | traitDef definition => definition.nests f
  | enumDef definition => definition.nests
  | returning value => value.toList.map f
  | breaking value label => labelNests label ++ value.toList.map f
  | continuing label => labelNests label
  | declaration d => d.nests f
  | binding name value => [name.nest, f value]
  | importing path => path.nests

end Layer

section Map

variable {α β : Type} (h : α → β) (e : β → Expr) (f : β → Nest)

@[simp] lemma TemplatePart.nests_map (p : TemplatePart α) :
    (p.map h).nests f = p.nests fun a => f (h a) := by
  cases p <;> rfl

@[simp] lemma Literal.nests_map (l : Literal α) :
    (l.map h).nests e f = l.nests (fun a => e (h a)) fun a => f (h a) := by
  cases l <;> simp [Literal.map, Literal.nests, List.flatMap_map]

@[simp] lemma Block.nests_map (b : Block α) : (b.map h).nests f = b.nests fun a => f (h a) := by
  simp [Block.map, Block.nests, Option.toList_map]

@[simp] lemma Argument.nests_map (a : Argument α) :
    (a.map h).nests f = a.nests fun a => f (h a) := rfl

@[simp] lemma ForHead.nests_map (head : ForHead α) :
    (head.map h).nests f = head.nests fun a => f (h a) := by
  cases head <;> rfl

@[simp] lemma Declaration.nests_map (d : Declaration α) :
    (d.map h).nests f = d.nests fun a => f (h a) := by
  simp [Declaration.map, Declaration.nests, Option.toList_map]

@[simp] lemma Param.nest_map (p : Param α) : (p.map h).nest f = p.nest fun a => f (h a) := by
  simp [Param.map, Param.nest, Option.toList_map]

@[simp] lemma FunctionDef.nestsBehind_map (d : FunctionDef α) :
    (d.map h).nestsBehind f = d.nestsBehind fun a => f (h a) := by
  simp [FunctionDef.map, FunctionDef.nestsBehind, List.flatMap_map, Option.toList_map]

@[simp] lemma FunctionDef.nests_map (d : FunctionDef α) :
    (d.map h).nests f = d.nests fun a => f (h a) :=
  congrArg (d.name.nest :: ·) (d.nestsBehind_map h f)

@[simp] lemma Overload.nests_map (o : Overload α) :
    (o.map h).nests f = o.nests fun a => f (h a) :=
  congrArg (Nest.node o.function.name.span [] :: ·) (o.function.nestsBehind_map h f)

@[simp] lemma MemberList.nests_map (m : MemberList α) :
    (m.map h).nests f = m.nests fun a => f (h a) := by
  simp [MemberList.map, MemberList.nests, Member.map, List.flatMap_map]

@[simp] lemma ClassDef.nests_map (d : ClassDef α) :
    (d.map h).nests f = d.nests fun a => f (h a) := by
  simp [ClassDef.map, ClassDef.nests]

@[simp] lemma TraitDef.nests_map (d : TraitDef α) :
    (d.map h).nests f = d.nests fun a => f (h a) := by
  simp [TraitDef.map, TraitDef.nests]

lemma Form.nests_map (form : Form α) :
    (form.map h).nests e f = form.nests (fun a => e (h a)) fun a => f (h a) := by
  cases form <;>
    simp [Form.map, Form.nests, List.flatMap_map, Option.toList_map, List.zip_map, Prod.map]

end Map

/-! ## Trees -/

lemma Form.map_map {α β γ : Type} (h : α → β) (k : β → γ) (form : Form α) :
    (form.map h).map k = form.map fun a => k (h a) := by
  cases form with
  | forLoop head body label =>
    cases head <;> simp [Form.map, ForHead.map, Block.map, Function.comp_def]
  | _ =>
    simp [Form.map, Block.map, Argument.map, Declaration.map, Param.map, FunctionDef.map,
      ClassDef.map, TraitDef.map, MemberList.map, Member.map, Overload.map, Function.comp_def]

namespace Expr

/-- The rule for the node of a tree, which comes with the tree itself. -/
def nestRule (form : Form (Expr × Nest)) (span : Span) : Expr × Nest :=
  (⟨form.map Prod.fst, span⟩, .node span (form.nests Prod.fst Prod.snd))

/-- A tree is the node of its form. -/
def nest (e : Expr) : Nest :=
  (e.fold nestRule).2

lemma fold_nestRule_fst (e : Expr) : (e.fold nestRule).1 = e := by
  induction e using layered_induction with
  | step form span =>
    have hsame : (fun a : {e : Expr // (e.fold nestRule).1 = e} => (a.val.fold nestRule).1) =
        Subtype.val :=
      funext fun a => a.property
    rw [fold_mk, nestRule, Form.map_map, Form.map_map, hsame]

lemma nest_mk (form : Form Expr) (span : Span) :
    nest ⟨form, span⟩ = .node span (form.nests id nest) := by
  have hsame : (fun e : Expr => (e.fold nestRule).1) = id := funext fold_nestRule_fst
  rw [nest, fold_mk, nestRule, Form.nests_map, hsame]
  rfl

/-- What an expression is made of. -/
def nests (e : Expr) : List Nest :=
  e.form.nests id nest

lemma nest_eq (e : Expr) : e.nest = .node e.span e.nests := by
  obtain ⟨form, span⟩ := e
  exact nest_mk form span

end Expr

end FrontEnd
