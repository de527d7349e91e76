import FrontEnd.Program
import Mathlib.Tactic.Lemma

/-!
# Data with spans

A tree, a token or a diagnostic holds spans. `spans` lists them, and `respan` replaces each by its
image under a function: a tree moved to another place of a source, for instance. Both are defined
together, with the law that ties them, for every type of data that the front end hands out.
-/

namespace FrontEnd

/-- Data that holds spans: the list of them, and how they are replaced. -/
class Spanned (α : Type) where
  spans : α → List Span
  respan : (Span → Span) → α → α
  spans_respan : ∀ φ a, spans (respan φ a) = (spans a).map φ

export Spanned (spans respan spans_respan)

attribute [simp] Spanned.spans_respan

/-- Data without spans. -/
class Spanless (α : Type) [Spanned α] : Prop where
  respan_eq : ∀ (φ : Span → Span) (a : α), respan φ a = a

@[simp] lemma respan_spanless {α : Type} [Spanned α] [Spanless α] (φ : Span → Span) (a : α) :
    respan φ a = a :=
  Spanless.respan_eq φ a

/-- Plain data, which holds no spans. -/
@[reducible]
def Spanned.bare (α : Type) : Spanned α :=
  ⟨fun _ => [], fun _ a => a, fun _ _ => rfl⟩

instance : Spanned Unit := .bare Unit
instance : Spanless Unit := ⟨fun _ _ => rfl⟩
instance : Spanned Bool := .bare Bool
instance : Spanless Bool := ⟨fun _ _ => rfl⟩
instance : Spanned String := .bare String
instance : Spanless String := ⟨fun _ _ => rfl⟩
instance : Spanned Opening := .bare Opening
instance : Spanless Opening := ⟨fun _ _ => rfl⟩
instance : Spanned Continuation := .bare Continuation
instance : Spanless Continuation := ⟨fun _ _ => rfl⟩
instance : Spanned PatternOpening := .bare PatternOpening
instance : Spanless PatternOpening := ⟨fun _ _ => rfl⟩
instance : Spanned BoundKind := .bare BoundKind
instance : Spanless BoundKind := ⟨fun _ _ => rfl⟩
instance : Spanned DeclKind := .bare DeclKind
instance : Spanless DeclKind := ⟨fun _ _ => rfl⟩
instance : Spanned Visibility := .bare Visibility
instance : Spanless Visibility := ⟨fun _ _ => rfl⟩
instance : Spanned Scope := .bare Scope
instance : Spanless Scope := ⟨fun _ _ => rfl⟩
instance : Spanned Production.ModifierBlock := .bare Production.ModifierBlock
instance : Spanless Production.ModifierBlock := ⟨fun _ _ => rfl⟩

/-! ## Containers -/

section Containers

variable {α β : Type} [Spanned α] [Spanned β] (φ : Span → Span)

instance : Spanned (List α) where
  spans as := as.flatMap spans
  respan φ as := as.map (respan φ)
  spans_respan φ as := by simp [List.flatMap_map, List.map_flatMap]

instance : Spanned (Option α) where
  spans a := spans a.toList
  respan φ a := a.map (respan φ)
  spans_respan φ a := by cases a <;> simp [spans]

instance : Spanned (Array α) where
  spans as := spans as.toList
  respan φ as := as.map (respan φ)
  spans_respan φ as := by
    rw [Array.toList_map]
    exact spans_respan φ as.toList

instance : Spanned (α × β) where
  spans p := spans p.1 ++ spans p.2
  respan φ p := (respan φ p.1, respan φ p.2)
  spans_respan φ p := by simp

@[simp] lemma respan_nil : respan φ ([] : List α) = [] := rfl

@[simp] lemma respan_cons (a : α) (as : List α) :
    respan φ (a :: as) = respan φ a :: respan φ as := rfl

lemma respan_list (as : List α) : respan φ as = as.map (respan φ) := rfl

@[simp] lemma respan_append (as bs : List α) :
    respan φ (as ++ bs) = respan φ as ++ respan φ bs :=
  List.map_append

@[simp] lemma respan_reverse (as : List α) : respan φ as.reverse = (respan φ as).reverse :=
  List.map_reverse

@[simp] lemma respan_none : respan φ (none : Option α) = none := rfl

@[simp] lemma respan_some (a : α) : respan φ (some a) = some (respan φ a) := rfl

@[simp] lemma respan_pair (a : α) (b : β) : respan φ (a, b) = (respan φ a, respan φ b) := rfl

@[simp] lemma spans_nil : spans ([] : List α) = [] := rfl

@[simp] lemma spans_cons (a : α) (as : List α) : spans (a :: as) = spans a ++ spans as := rfl

@[simp] lemma spans_append (as bs : List α) : spans (as ++ bs) = spans as ++ spans bs :=
  List.flatMap_append

@[simp] lemma spans_none : spans (none : Option α) = [] := rfl

@[simp] lemma spans_some (a : α) : spans (some a) = spans a := by
  simp [spans]

instance [Spanless α] : Spanless (List α) :=
  ⟨fun φ _ => (List.map_congr_left fun a _ => respan_spanless φ a).trans (List.map_id _)⟩

instance [Spanless α] : Spanless (Option α) :=
  ⟨fun φ a => by cases a <;> simp⟩

end Containers

/-! ## Names, types, patterns and imports -/

section Leaves

variable (φ : Span → Span)

instance : Spanned Span where
  spans s := [s]
  respan φ s := φ s
  spans_respan _ _ := rfl

@[simp] lemma respan_span (s : Span) : respan φ s = φ s := rfl

@[simp] lemma spans_span (s : Span) : spans s = [s] := rfl

instance : Spanned Ident where
  spans i := [i.span]
  respan φ i := ⟨i.name, φ i.span⟩
  spans_respan _ _ := rfl

@[simp] lemma respan_ident (name : String) (span : Span) :
    respan φ (⟨name, span⟩ : Ident) = ⟨name, φ span⟩ := rfl

end Leaves

mutual

/-- The spans of a type. -/
def TypeExpr.gather : TypeExpr → List Span
  | .mk name params span => span :: spans name ++ TypeExpr.gatherAll params

def TypeExpr.gatherAll : List TypeExpr → List Span
  | [] => []
  | t :: ts => t.gather ++ TypeExpr.gatherAll ts

end

mutual

/-- A type with its spans replaced. -/
def TypeExpr.relabel (φ : Span → Span) : TypeExpr → TypeExpr
  | .mk name params span => .mk (respan φ name) (TypeExpr.relabelAll φ params) (φ span)

def TypeExpr.relabelAll (φ : Span → Span) : List TypeExpr → List TypeExpr
  | [] => []
  | t :: ts => t.relabel φ :: TypeExpr.relabelAll φ ts

end

mutual

lemma TypeExpr.gather_relabel (φ : Span → Span) :
    ∀ t : TypeExpr, (t.relabel φ).gather = t.gather.map φ
  | .mk name params span => by
    simp [TypeExpr.relabel, TypeExpr.gather, TypeExpr.gatherAll_relabelAll φ params]

lemma TypeExpr.gatherAll_relabelAll (φ : Span → Span) :
    ∀ ts : List TypeExpr,
      TypeExpr.gatherAll (TypeExpr.relabelAll φ ts) = (TypeExpr.gatherAll ts).map φ
  | [] => rfl
  | t :: ts => by
    simp [TypeExpr.relabelAll, TypeExpr.gatherAll, TypeExpr.gather_relabel φ t,
      TypeExpr.gatherAll_relabelAll φ ts]

end

instance : Spanned TypeExpr := ⟨TypeExpr.gather, TypeExpr.relabel, TypeExpr.gather_relabel⟩

section Types

variable (φ : Span → Span)

@[simp] lemma respan_typeExpr (name : Ident) (params : List TypeExpr) (span : Span) :
    respan φ (TypeExpr.mk name params span) = .mk (respan φ name) (respan φ params) (φ span) := by
  have hall : ∀ ts, TypeExpr.relabelAll φ ts = respan φ ts := by
    intro ts
    induction ts with
    | nil => rfl
    | cons t ts ih => rw [TypeExpr.relabelAll, ih]; rfl
  change TypeExpr.relabel φ _ = _
  rw [TypeExpr.relabel, hall]

/-- The spans of a chain of bounds. -/
def Constraint.gather : Constraint → List Span
  | .unconstrained => []
  | .bound _ type more => spans type ++ more.gather

/-- A chain of bounds with its spans replaced. -/
def Constraint.relabel : Constraint → Constraint
  | .unconstrained => .unconstrained
  | .bound kind type more => .bound kind (respan φ type) more.relabel

instance : Spanned Constraint where
  spans := Constraint.gather
  respan := Constraint.relabel
  spans_respan φ c := by
    induction c with
    | unconstrained => rfl
    | bound kind type more ih => simp [Constraint.relabel, Constraint.gather, ih]

@[simp] lemma respan_chain (bounds : List (BoundKind × TypeExpr)) :
    respan φ (Constraint.chain bounds) = Constraint.chain (respan φ bounds) := by
  induction bounds with
  | nil => rfl
  | cons b bs ih => exact congrArg (Constraint.bound b.1 (respan φ b.2)) ih

instance : Spanned TypeParam where
  spans p := spans p.type ++ spans p.constraint
  respan φ p := ⟨respan φ p.type, respan φ p.constraint⟩
  spans_respan φ p := by simp

@[simp] lemma respan_typeParam (type : TypeExpr) (constraint : Constraint) :
    respan φ (⟨type, constraint⟩ : TypeParam) = ⟨respan φ type, respan φ constraint⟩ := rfl

end Types

/-! ## Patterns -/

section PatternForm

variable {π : Type} [Spanned π] (φ : Span → Span)

instance : Spanned (Field π) where
  spans f := spans f.name ++ spans f.pattern
  respan φ f := ⟨respan φ f.name, respan φ f.pattern⟩
  spans_respan φ f := by simp

@[simp] lemma respan_field (name : Ident) (pattern : Option π) :
    respan φ (⟨name, pattern⟩ : Field π) = ⟨respan φ name, respan φ pattern⟩ := rfl

/-- The spans of the shape of a pattern. -/
def PatternForm.gather : PatternForm π → List Span
  | .name ident => spans ident
  | .named whole pattern => spans whole ++ spans pattern
  | .list elements => spans elements
  | .object fields => spans fields

/-- The shape of a pattern with its spans replaced. -/
def PatternForm.relabel : PatternForm π → PatternForm π
  | .name ident => .name (respan φ ident)
  | .named whole pattern => .named (respan φ whole) (respan φ pattern)
  | .list elements => .list (respan φ elements)
  | .object fields => .object (respan φ fields)

instance : Spanned (PatternForm π) where
  spans := PatternForm.gather
  respan φ := PatternForm.relabel φ
  spans_respan φ form := by
    cases form <;> simp [PatternForm.relabel, PatternForm.gather]

@[simp] lemma respan_patternName (ident : Ident) :
    respan φ (PatternForm.name ident : PatternForm π) = .name (respan φ ident) := rfl

@[simp] lemma respan_patternNamed (name : Ident) (pattern : π) :
    respan φ (PatternForm.named name pattern) = .named (respan φ name) (respan φ pattern) := rfl

@[simp] lemma respan_patternList (elements : List π) :
    respan φ (PatternForm.list elements) = .list (respan φ elements) := rfl

@[simp] lemma respan_patternObject (fields : List (Field π)) :
    respan φ (PatternForm.object fields) = .object (respan φ fields) := rfl

end PatternForm

mutual

/-- The spans of a pattern. -/
def Pattern.gather : Pattern → List Span
  | ⟨.name ident, span⟩ => span :: spans ident
  | ⟨.named name pattern, span⟩ => span :: (spans name ++ pattern.gather)
  | ⟨.list elements, span⟩ => span :: Pattern.gatherAll elements
  | ⟨.object fields, span⟩ => span :: Pattern.gatherFields fields

def Pattern.gatherAll : List Pattern → List Span
  | [] => []
  | p :: ps => p.gather ++ Pattern.gatherAll ps

def Pattern.gatherFields : List (Field Pattern) → List Span
  | [] => []
  | ⟨name, none⟩ :: fs => spans name ++ Pattern.gatherFields fs
  | ⟨name, some p⟩ :: fs => spans name ++ p.gather ++ Pattern.gatherFields fs

end

mutual

/-- A pattern with its spans replaced. -/
def Pattern.relabel (φ : Span → Span) : Pattern → Pattern
  | ⟨.name ident, span⟩ => ⟨.name (respan φ ident), φ span⟩
  | ⟨.named name pattern, span⟩ => ⟨.named (respan φ name) (pattern.relabel φ), φ span⟩
  | ⟨.list elements, span⟩ => ⟨.list (Pattern.relabelAll φ elements), φ span⟩
  | ⟨.object fields, span⟩ => ⟨.object (Pattern.relabelFields φ fields), φ span⟩

def Pattern.relabelAll (φ : Span → Span) : List Pattern → List Pattern
  | [] => []
  | p :: ps => p.relabel φ :: Pattern.relabelAll φ ps

def Pattern.relabelFields (φ : Span → Span) : List (Field Pattern) → List (Field Pattern)
  | [] => []
  | ⟨name, none⟩ :: fs => ⟨respan φ name, none⟩ :: Pattern.relabelFields φ fs
  | ⟨name, some p⟩ :: fs => ⟨respan φ name, some (p.relabel φ)⟩ :: Pattern.relabelFields φ fs

end

mutual

lemma Pattern.gather_relabel (φ : Span → Span) :
    ∀ p : Pattern, (p.relabel φ).gather = p.gather.map φ
  | ⟨.name ident, span⟩ => by simp [Pattern.relabel, Pattern.gather]
  | ⟨.named name pattern, span⟩ => by
    simp [Pattern.relabel, Pattern.gather, Pattern.gather_relabel φ pattern]
  | ⟨.list elements, span⟩ => by
    simp [Pattern.relabel, Pattern.gather, Pattern.gatherAll_relabelAll φ elements]
  | ⟨.object fields, span⟩ => by
    simp [Pattern.relabel, Pattern.gather, Pattern.gatherFields_relabelFields φ fields]

lemma Pattern.gatherAll_relabelAll (φ : Span → Span) :
    ∀ ps : List Pattern,
      Pattern.gatherAll (Pattern.relabelAll φ ps) = (Pattern.gatherAll ps).map φ
  | [] => rfl
  | p :: ps => by
    simp [Pattern.relabelAll, Pattern.gatherAll, Pattern.gather_relabel φ p,
      Pattern.gatherAll_relabelAll φ ps]

lemma Pattern.gatherFields_relabelFields (φ : Span → Span) :
    ∀ fs : List (Field Pattern),
      Pattern.gatherFields (Pattern.relabelFields φ fs) = (Pattern.gatherFields fs).map φ
  | [] => rfl
  | ⟨name, none⟩ :: fs => by
    simp [Pattern.relabelFields, Pattern.gatherFields, Pattern.gatherFields_relabelFields φ fs]
  | ⟨name, some p⟩ :: fs => by
    simp [Pattern.relabelFields, Pattern.gatherFields, Pattern.gather_relabel φ p,
      Pattern.gatherFields_relabelFields φ fs]

end

instance : Spanned Pattern := ⟨Pattern.gather, Pattern.relabel, Pattern.gather_relabel⟩

@[simp] lemma respan_pattern (φ : Span → Span) (form : PatternForm Pattern) (span : Span) :
    respan φ (⟨form, span⟩ : Pattern) = ⟨respan φ form, φ span⟩ := by
  have hall : ∀ ps, Pattern.relabelAll φ ps = respan φ ps := by
    intro ps
    induction ps with
    | nil => rfl
    | cons p ps ih => rw [Pattern.relabelAll, ih]; rfl
  have hfields : ∀ fs, Pattern.relabelFields φ fs = respan φ fs := by
    intro fs
    induction fs with
    | nil => rfl
    | cons f fs ih =>
      obtain ⟨name, _ | p⟩ := f
      · rw [Pattern.relabelFields, ih]; rfl
      · rw [Pattern.relabelFields, ih]; rfl
  change Pattern.relabel φ _ = _
  cases form with
  | name ident => rw [Pattern.relabel]; rfl
  | named name pattern => rw [Pattern.relabel]; rfl
  | list elements => rw [Pattern.relabel, hall]; rfl
  | object fields => rw [Pattern.relabel, hfields]; rfl

@[simp] lemma span_respan_pattern (φ : Span → Span) (p : Pattern) :
    (respan φ p).span = φ p.span := by
  cases p
  simp

@[simp] lemma simpleName?_respan (φ : Span → Span) (p : Pattern) :
    (respan φ p).simpleName? = respan φ p.simpleName? := by
  obtain ⟨form, span⟩ := p
  cases form <;> simp [Pattern.simpleName?]

/-! ## Imports -/

mutual

/-- The spans of a section of an import path. -/
def ImportSection.gather : ImportSection → List Span
  | .terminal name localName => spans name ++ spans localName
  | .element name rest => spans name ++ rest.gather
  | .list sections => ImportSection.gatherAll sections

def ImportSection.gatherAll : List ImportSection → List Span
  | [] => []
  | s :: ss => s.gather ++ ImportSection.gatherAll ss

end

mutual

/-- A section of an import path with its spans replaced. -/
def ImportSection.relabel (φ : Span → Span) : ImportSection → ImportSection
  | .terminal name localName => .terminal (respan φ name) (respan φ localName)
  | .element name rest => .element (respan φ name) (rest.relabel φ)
  | .list sections => .list (ImportSection.relabelAll φ sections)

def ImportSection.relabelAll (φ : Span → Span) : List ImportSection → List ImportSection
  | [] => []
  | s :: ss => s.relabel φ :: ImportSection.relabelAll φ ss

end

mutual

lemma ImportSection.gather_relabel (φ : Span → Span) :
    ∀ s : ImportSection, (s.relabel φ).gather = s.gather.map φ
  | .terminal name localName => by simp [ImportSection.relabel, ImportSection.gather]
  | .element name rest => by
    simp [ImportSection.relabel, ImportSection.gather, ImportSection.gather_relabel φ rest]
  | .list sections => by
    simp [ImportSection.relabel, ImportSection.gather,
      ImportSection.gatherAll_relabelAll φ sections]

lemma ImportSection.gatherAll_relabelAll (φ : Span → Span) :
    ∀ ss : List ImportSection,
      ImportSection.gatherAll (ImportSection.relabelAll φ ss) = (ImportSection.gatherAll ss).map φ
  | [] => rfl
  | s :: ss => by
    simp [ImportSection.relabelAll, ImportSection.gatherAll, ImportSection.gather_relabel φ s,
      ImportSection.gatherAll_relabelAll φ ss]

end

instance : Spanned ImportSection :=
  ⟨ImportSection.gather, ImportSection.relabel, ImportSection.gather_relabel⟩

section Imports

variable (φ : Span → Span)

@[simp] lemma respan_terminal (name : Ident) (localName : Option Ident) :
    respan φ (ImportSection.terminal name localName) =
      .terminal (respan φ name) (respan φ localName) := by
  change ImportSection.relabel φ _ = _
  rw [ImportSection.relabel]

@[simp] lemma respan_importElement (name : Ident) (rest : ImportSection) :
    respan φ (ImportSection.element name rest) = .element (respan φ name) (respan φ rest) := by
  change ImportSection.relabel φ _ = _
  rw [ImportSection.relabel]
  rfl

@[simp] lemma respan_importList (sections : List ImportSection) :
    respan φ (ImportSection.list sections) = .list (respan φ sections) := by
  have hall : ∀ ss, ImportSection.relabelAll φ ss = respan φ ss := by
    intro ss
    induction ss with
    | nil => rfl
    | cons s ss ih => rw [ImportSection.relabelAll, ih]; rfl
  change ImportSection.relabel φ _ = _
  rw [ImportSection.relabel, hall]

instance : Spanned Production.ImportOpening where
  spans
    | .list => []
    | .name ident => spans ident
  respan φ
    | .list => .list
    | .name ident => .name (respan φ ident)
  spans_respan φ o := by cases o <;> simp

@[simp] lemma respan_openingList : respan φ Production.ImportOpening.list = .list := rfl

@[simp] lemma respan_openingName (ident : Ident) :
    respan φ (Production.ImportOpening.name ident) = .name (respan φ ident) := rfl

end Imports

end FrontEnd
