import FrontEnd.Proofs.Collection
import Mathlib.Algebra.BigOperators.Group.List.Basic
import Mathlib.Algebra.Order.Group.Multiset
import Mathlib.Tactic.Abel

/-!
# Labels of trees and of tokens

The marks of a tree are its labels, each with the place where it stands, and its operator overloads.
The marks of some tokens are the label prefixes among them, except those that directly follow
another one, the keywords of operator overloads, and the marks of the expressions in template
strings. `Tags` compares the two: a tree has the marks of its tokens, except those of the overloads
among them that are replaced.
-/

namespace FrontEnd

open Production

/-- A label with its place, or an operator overload. -/
inductive Mark where
  | label (offset : Nat) (name : String)
  | overload
  deriving DecidableEq

/-- The label that a mark is. -/
def Mark.label? : Mark → Option (Nat × String)
  | label offset name => some (offset, name)
  | overload => none

/-- The mark of a label that stands at a place. -/
def labelMarks (offset : Nat) (label : Option String) : Multiset Mark :=
  label.toList.map (Mark.label offset)

/-! ## Trees -/

section Layer

variable {α β : Type}

/-- The label of a `for` loop, an endless loop or a block. -/
def Form.label? : Form α → Option String
  | .block b => b.label
  | .endlessLoop _ label => label
  | .forLoop _ _ label => label
  | _ => none

/-- The number of operator overloads of a class or trait. -/
def Form.overloads (form : Form α) : Nat :=
  match form.body? with
  | some (_, members) => members.operators.length
  | none => 0

/-- The marks of a form without those of its sub-expressions. -/
def Form.ownMarks (form : Form α) (span : Span) : Multiset Mark :=
  labelMarks span.offset form.label? + Multiset.replicate form.overloads .overload

variable (f : α → β)

lemma FunctionDef.children_map (d : FunctionDef α) : (d.map f).children = d.children.map f := by
  simp [FunctionDef.children, FunctionDef.map, Param.children, Param.map, Block.children,
    Block.map, List.map_flatMap, List.flatMap_map, Option.toList_map]

lemma MemberList.children_map (m : MemberList α) : (m.map f).children = m.children.map f := by
  simp [MemberList.children, MemberList.map, Member.map, Overload.map, Declaration.children,
    Declaration.map, FunctionDef.children_map, List.map_flatMap, List.flatMap_map,
    Option.toList_map]

lemma Literal.children_map (value : Literal α) : (value.map f).children = value.children.map f := by
  cases value with
  | template parts =>
    have hchild (part : TemplatePart α) : (part.map f).child? = part.child?.map f := by
      cases part <;> rfl
    simp [Literal.map, Literal.children, List.filterMap_map, List.map_filterMap, hchild]
  | _ => rfl

lemma Form.children_map (form : Form α) : (form.map f).children = form.children.map f := by
  cases form with
  | literal value => exact value.children_map f
  | forLoop head body label =>
    cases head <;> simp [Form.map, Form.children, ForHead.map, ForHead.children, Block.map,
      Block.children, Option.toList_map]
  | _ =>
    simp [Form.map, Form.children, Argument.map, Block.map, Block.children,
      Declaration.map, Declaration.children, Param.map, Param.children, FunctionDef.children_map,
      ClassDef.map, TraitDef.map, MemberList.children_map, List.map_flatMap, List.flatMap_map,
      Option.toList_map, Function.comp_def]

lemma Form.ownMarks_map (form : Form α) (span : Span) :
    (form.map f).ownMarks span = form.ownMarks span := by
  cases form <;> simp [Form.map, Form.ownMarks, Form.label?, Form.overloads, Form.body?, Block.map,
    ClassDef.map, TraitDef.map, MemberList.map]

end Layer

namespace Expr

/-- The marks of a tree. -/
def marks : Expr → Multiset Mark :=
  fold fun form span => form.ownMarks span + form.children.sum

end Expr

/-- The marks of some trees. -/
def marksOfAll (es : List Expr) : Multiset Mark :=
  (es.map Expr.marks).sum

section Sums

variable {α : Type} (e : Expr) (es fs : List Expr)

@[simp] lemma marksOfAll_nil : marksOfAll [] = 0 := rfl

@[simp] lemma marksOfAll_cons : marksOfAll (e :: es) = e.marks + marksOfAll es :=
  List.sum_cons

@[simp] lemma marksOfAll_append : marksOfAll (es ++ fs) = marksOfAll es + marksOfAll fs := by
  rw [marksOfAll, List.map_append, List.sum_append]
  rfl

lemma marksOfAll_flatMap (f : α → List Expr) (as : List α) :
    marksOfAll (as.flatMap f) = (as.map fun a => marksOfAll (f a)).sum := by
  induction as with
  | nil => rfl
  | cons a as ih => rw [List.flatMap_cons, marksOfAll_append, ih, List.map_cons, List.sum_cons]

lemma marksOfAll_eq_zero {es : List Expr} (h : ∀ e ∈ es, e.marks = 0) : marksOfAll es = 0 :=
  List.sum_eq_zero (List.forall_mem_map.mpr h)

end Sums

lemma Expr.marks_mk (form : Form Expr) (span : Span) :
    Expr.marks ⟨form, span⟩ = form.ownMarks span + marksOfAll form.children := by
  rw [marks, fold_mk, Form.ownMarks_map, Form.children_map]
  rfl

lemma Expr.marks_of_plain {form : Form Expr} (span : Span) (hlabel : form.label? = none)
    (hbody : form.body? = none) : Expr.marks ⟨form, span⟩ = marksOfAll form.children := by
  rw [marks_mk, Form.ownMarks, hlabel, Form.overloads, hbody]
  exact zero_add _

lemma Expr.label?_eq (e : Expr) : e.label? = e.form.label? := by
  obtain ⟨form, span⟩ := e
  cases form <;> rfl

/-- The marks of an operator overload. -/
def Overload.marks (o : Overload Expr) : Multiset Mark :=
  {.overload} + marksOfAll o.function.children

/-- The marks of some overloads. -/
def marksOfOverloads (os : List (Overload Expr)) : Multiset Mark :=
  (os.map Overload.marks).sum

@[simp] lemma marksOfOverloads_nil : marksOfOverloads [] = 0 := rfl

@[simp] lemma marksOfOverloads_cons (o : Overload Expr) (os : List (Overload Expr)) :
    marksOfOverloads (o :: os) = o.marks + marksOfOverloads os :=
  List.sum_cons

/-- The marks of members. -/
def MemberList.marks (m : MemberList Expr) : Multiset Mark :=
  (m.methods.map fun method => marksOfAll method.item.children).sum +
    (m.properties.map fun property => marksOfAll property.item.children).sum +
    marksOfOverloads m.operators

lemma Expr.marks_of_body? {form : Form Expr} (span : Span) {body : BodyKind}
    {members : MemberList Expr} (h : form.body? = some (body, members)) :
    Expr.marks ⟨form, span⟩ = members.marks := by
  have hchildren : form.label? = none ∧ form.children = members.children := by
    cases form <;> cases h <;> exact ⟨rfl, rfl⟩
  have hoverloads : marksOfOverloads members.operators =
      Multiset.replicate members.operators.length .overload +
        (members.operators.map fun o => marksOfAll o.function.children).sum := by
    induction members.operators with
    | nil => rfl
    | cons o os ih =>
      rw [marksOfOverloads_cons, ih, List.length_cons, List.map_cons, List.sum_cons,
        Overload.marks, Multiset.replicate_succ, ← Multiset.singleton_add]
      abel
  rw [marks_mk, Form.ownMarks, hchildren.1, Form.overloads, h, hchildren.2, MemberList.children,
    MemberList.marks, hoverloads, marksOfAll_append, marksOfAll_append, marksOfAll_flatMap,
    marksOfAll_flatMap, marksOfAll_flatMap]
  change 0 + Multiset.replicate members.operators.length Mark.overload + _ = _
  abel

/-! ## Tokens -/

/-- A place between tokens. -/
inductive Spot where
  /-- Where a label opens what it names. -/
  | start
  /-- Directly behind `break` or `continue`, where a label is that of the loop or block to leave. -/
  | jump
  /-- Directly behind a label that names what follows. -/
  | name
  /-- Behind such a label and its colon. -/
  | target
  deriving DecidableEq

/-- The place behind a token. -/
def Spot.next (s : Spot) (t : Token) : Spot :=
  match t.kind with
  | .kwBreak | .kwContinue => .jump
  | .label => if s = .jump then .start else .name
  | .colon => if s = .name then .target else .start
  | _ => .start

/-- Tokens with the places in front of them. -/
def spots : Spot → List Token → List (Spot × Token)
  | _, [] => []
  | s, t :: ts => (s, t) :: spots (s.next t) ts

/-- The place behind some tokens. -/
def Spot.after (s : Spot) (ts : List Token) : Spot :=
  ts.foldl Spot.next s

/-- A label that names what follows. It is stacked if another one directly precedes it, so that both
name the same. -/
structure LabelPrefix where
  token : Token
  stacked : Bool

/-- A label is a prefix, unless it belongs to a `break` or `continue`. -/
def Token.labelPrefix? (t : Token) (s : Spot) : Option LabelPrefix :=
  if t.kind = .label ∧ s ≠ .jump then some ⟨t, s == .target⟩ else none

/-- The label prefixes among some tokens, in order. -/
def labelPrefixes (ts : List Token) : List LabelPrefix :=
  (spots .start ts).filterMap fun p => p.2.labelPrefix? p.1

/-- The label of a prefix and its place. -/
def LabelPrefix.label (p : LabelPrefix) : Nat × String :=
  (p.token.span.offset, p.token.text)

/-- The mark that a token stands for. -/
def Token.mark? (t : Token) (s : Spot) : Option Mark :=
  match t.kind with
  | .label => if s = .jump ∨ s = .target then none else some (.label t.span.offset t.text)
  | .kwOperator => some .overload
  | _ => none

/-- The expressions in the template string that a token is. -/
def Token.embedded (t : Token) : List Expr :=
  match t.kind, t.value with
  | .templateStringLiteral, .template parts => parts.filterMap TemplatePart.child?
  | _, _ => []

/-- The marks of a token: the one that it stands for, and those of the expressions in it. -/
def Token.marks (t : Token) (s : Spot) : Multiset Mark :=
  (t.mark? s).toList + marksOfAll t.embedded

/-- The marks of some tokens, of which the first stands behind the given place. -/
def marksFrom (s : Spot) (ts : List Token) : Multiset Mark :=
  ((spots s ts).map fun p => p.2.marks p.1).sum

section Tokens

variable {s : Spot} {t : Token} {ts xs ys : List Token}

lemma spots_append : spots s (xs ++ ys) = spots s xs ++ spots (s.after xs) ys := by
  induction xs generalizing s with
  | nil => rfl
  | cons t xs ih => rw [List.cons_append, spots, spots, ih]; rfl

lemma Spot.after_append : s.after (xs ++ ys) = (s.after xs).after ys :=
  List.foldl_append

@[simp] lemma Spot.after_nil : s.after [] = s := rfl

@[simp] lemma Spot.after_cons : s.after (t :: ts) = (s.next t).after ts := rfl

@[simp] lemma marksFrom_nil : marksFrom s [] = 0 := rfl

lemma marksFrom_append : marksFrom s (xs ++ ys) = marksFrom s xs + marksFrom (s.after xs) ys := by
  rw [marksFrom, spots_append, List.map_append, List.sum_append]
  rfl

lemma marksFrom_cons : marksFrom s (t :: ts) = t.marks s + marksFrom (s.next t) ts :=
  List.sum_cons

lemma Token.embedded_of_ne (h : t.kind ≠ .templateStringLiteral) : t.embedded = [] := by
  unfold embedded
  split
  · next hkind _ => exact absurd hkind h
  · rfl

lemma Token.marks_of_ne (h : t.kind ≠ .templateStringLiteral) : t.marks s = (t.mark? s).toList := by
  rw [marks, embedded_of_ne h]
  exact add_zero _

/-- The kinds of tokens that are no labels or template strings, and that labels and overloads do not
depend on. -/
def TokenKind.isPlain : TokenKind → Bool
  | .label | .kwBreak | .kwContinue | .kwOperator | .templateStringLiteral => false
  | _ => true

lemma Token.marks_of_isPlain (h : t.kind.isPlain = true) : t.marks s = 0 := by
  have hmark : t.mark? s = none := by
    unfold mark?
    split <;> simp_all [TokenKind.isPlain]
  rw [marks_of_ne (by rintro hkind; rw [hkind] at h; cases h), hmark]
  rfl

lemma Token.ne_label_of_isPlain (h : t.kind.isPlain = true) : t.kind ≠ .label := by
  intro hkind
  rw [hkind] at h
  cases h

/-- The places behind an expression. -/
def Spot.Rests (s : Spot) : Prop :=
  s = .start ∨ s = .jump

lemma Spot.next_of_isPlain (hs : s.Rests) (h : t.kind.isPlain = true) : s.next t = .start := by
  unfold next
  rcases hs with rfl | rfl <;> split <;> simp_all [TokenKind.isPlain]

/-- Tokens that begin with no label. -/
def Unlabelled (ts : List Token) : Prop :=
  ∀ t ∈ ts.head?, t.kind ≠ .label

lemma unlabelled_nil : Unlabelled [] := by
  rintro t ⟨⟩

lemma unlabelled_cons (h : t.kind.isPlain = true) : Unlabelled (t :: ts) := by
  rintro _ ⟨⟩
  exact Token.ne_label_of_isPlain h

lemma Unlabelled.from_start (h : Unlabelled (t :: ts)) (hs : s ≠ .name) :
    s.after (t :: ts) = Spot.start.after (t :: ts) ∧
      marksFrom s (t :: ts) = marksFrom .start (t :: ts) := by
  have hkind : t.kind ≠ .label := h t rfl
  have hnext : s.next t = Spot.start.next t := by
    unfold Spot.next
    split <;> simp_all
  have hmark : t.mark? s = t.mark? .start := by
    unfold Token.mark?
    split <;> simp_all
  rw [Spot.after_cons, Spot.after_cons, marksFrom_cons, marksFrom_cons, hnext, Token.marks, hmark]
  exact ⟨rfl, rfl⟩

end Tokens

/-! ## Tokens and trees -/

/-- Among some tokens, others are an operator overload that is replaced: in the body in which it is
written, a later one has its symbol. -/
inductive Replaced (ts : List Token) : List Token → Prop where
  | mk {body definition written us overloaded} (hdefinition : definition <:+: ts)
    (h : DefinitionText .spoken body definition written) (hus : us <:+: definition)
    (hoverload : ItemText .spoken body us (.overload overloaded))
    (hreplaced : ReplacedOverload overloaded (written.filterMap Written.overload?)) :
    Replaced ts us

/-- Some marks are others without those of overloads that are replaced among some tokens. -/
def Remainder (ts : List Token) (ms ns : Multiset Mark) : Prop :=
  ∃ replaced : List (List Token), (∀ us ∈ replaced, Replaced ts us) ∧
    ms + (replaced.map (marksFrom .start)).sum = ns

section Remainder

variable {ts us : List Token} {k l m m' n n' : Multiset Mark}

lemma Replaced.mono {vs : List Token} (h : Replaced us vs) (hus : us <:+: ts) : Replaced ts vs := by
  obtain ⟨hdefinition, h, hvs, hoverload, hreplaced⟩ := h
  exact .mk (hdefinition.trans hus) h hvs hoverload hreplaced

lemma Replaced.count_pos (h : Replaced ts us) : 0 < (marksFrom .start us).count .overload := by
  obtain ⟨-, -, -, hoverload, -⟩ := h
  cases hoverload with
  | @overload keyword us overloaded hkeyword h =>
    have hmark : keyword.mark? .start = some .overload := by rw [Token.mark?, hkeyword]
    rw [marksFrom_cons, Token.marks, hmark, Multiset.count_add, Multiset.count_add]
    exact Nat.add_pos_left (Nat.add_pos_left Nat.one_pos _) _

namespace Remainder

lemma refl (m : Multiset Mark) : Remainder ts m m :=
  ⟨[], List.forall_mem_nil _, add_zero m⟩

lemma mono (h : Remainder us m n) (hus : us <:+: ts) : Remainder ts m n := by
  obtain ⟨replaced, hreplaced, hsum⟩ := h
  exact ⟨replaced, fun vs hvs => (hreplaced vs hvs).mono hus, hsum⟩

lemma add (h : Remainder ts m n) (h' : Remainder ts m' n') :
    Remainder ts (m + m') (n + n') := by
  obtain ⟨replaced, hreplaced, rfl⟩ := h
  obtain ⟨replaced', hreplaced', rfl⟩ := h'
  refine ⟨replaced ++ replaced', List.forall_mem_append.mpr ⟨hreplaced, hreplaced'⟩, ?_⟩
  rw [List.map_append, List.sum_append, add_add_add_comm]

lemma sum {α : Type} {as : List α} {f g : α → Multiset Mark}
    (h : ∀ a ∈ as, Remainder ts (f a) (g a)) : Remainder ts (as.map f).sum (as.map g).sum := by
  induction as with
  | nil => exact refl 0
  | cons a as ih =>
    obtain ⟨ha, has⟩ := List.forall_mem_cons.mp h
    rw [List.map_cons, List.map_cons, List.sum_cons, List.sum_cons]
    exact ha.add (ih has)

lemma trans (h : Remainder ts l m) (h' : Remainder ts m n) : Remainder ts l n := by
  obtain ⟨replaced, hreplaced, rfl⟩ := h
  obtain ⟨replaced', hreplaced', rfl⟩ := h'
  refine ⟨replaced ++ replaced', List.forall_mem_append.mpr ⟨hreplaced, hreplaced'⟩, ?_⟩
  rw [List.map_append, List.sum_append, add_assoc]

lemma leave {replaced : List (List Token)} (h : ∀ us ∈ replaced, Replaced ts us) :
    Remainder ts m (m + (replaced.map (marksFrom .start)).sum) :=
  ⟨replaced, h, rfl⟩

lemma cancel (h : Remainder ts (k + m) (k + n)) : Remainder ts m n := by
  obtain ⟨replaced, hreplaced, hsum⟩ := h
  rw [add_assoc] at hsum
  exact ⟨replaced, hreplaced, add_left_cancel hsum⟩

lemma eq_of_count (h : Remainder ts m n) (hcount : m.count .overload = n.count .overload) :
    m = n := by
  obtain ⟨replaced, hreplaced, rfl⟩ := h
  cases replaced with
  | nil => exact (add_zero m).symm
  | cons us replaced =>
    have hpos := (hreplaced us List.mem_cons_self).count_pos
    rw [List.map_cons, List.sum_cons, Multiset.count_add, Multiset.count_add] at hcount
    omega

end Remainder

end Remainder

/-- Tokens that follow a place have the marks of a tree, except those of overloads that are replaced
among them, and end where an expression may end. -/
structure Tags (s : Spot) (ts : List Token) (ms : Multiset Mark) : Prop where
  rests : (s.after ts).Rests
  remainder : Remainder ts ms (marksFrom s ts)

/-- Tokens that have no marks. -/
def Plain (ts : List Token) : Prop :=
  ∀ t ∈ ts, t.kind.isPlain = true

section Tags

variable {s : Spot} {t : Token} {ts xs ys : List Token} {m n : Multiset Mark} {kind : TokenKind}

lemma Plain.nil : Plain [] :=
  List.forall_mem_nil _

lemma Plain.cons (ht : t.kind = kind) (hkind : kind.isPlain = true) (h : Plain ts) :
    Plain (t :: ts) :=
  List.forall_mem_cons.mpr ⟨ht ▸ hkind, h⟩

lemma Plain.append (hx : Plain xs) (hy : Plain ys) : Plain (xs ++ ys) :=
  List.forall_mem_append.mpr ⟨hx, hy⟩

lemma Plain.unlabelled (h : Plain ts) : Unlabelled ts := by
  intro t ht
  exact Token.ne_label_of_isPlain (h t (List.mem_of_mem_head? ht))

namespace Tags

lemma nil : Tags .start [] 0 :=
  ⟨.inl rfl, .refl 0⟩

lemma shift (h : Tags .start ts m) (hs : s.Rests) (hts : Unlabelled ts) : Tags s ts m := by
  cases ts with
  | nil => exact ⟨hs, h.remainder⟩
  | cons t ts =>
    have hsame := hts.from_start (s := s) (by rintro rfl; rcases hs with h | h <;> cases h)
    exact ⟨hsame.1 ▸ h.rests, hsame.2 ▸ h.remainder⟩

lemma append_from (hx : Tags s xs m) (hy : Tags (s.after xs) ys n) :
    Tags s (xs ++ ys) (m + n) := by
  constructor
  · rw [Spot.after_append]
    exact hy.rests
  · rw [marksFrom_append]
    exact (hx.remainder.mono (List.prefix_append xs ys).isInfix).add
      (hy.remainder.mono (List.suffix_append xs ys).isInfix)

lemma append (hx : Tags s xs m) (hy : Tags .start ys n) (hys : Unlabelled ys) :
    Tags s (xs ++ ys) (m + n) :=
  hx.append_from (hy.shift hx.rests hys)

lemma cons {s' : Spot} (hnext : s.next t = s') (h : Tags s' ts m) :
    Tags s (t :: ts) (t.marks s + m) := by
  constructor
  · rw [Spot.after_cons, hnext]
    exact h.rests
  · rw [marksFrom_cons, hnext]
    exact (Remainder.refl _).add (h.remainder.mono (List.suffix_cons t ts).isInfix)

lemma cons_unmarked {s' : Spot} (hnext : s.next t = s') (hmarks : t.marks s = 0)
    (h : Tags s' ts m) : Tags s (t :: ts) m := by
  have hcons := cons hnext h
  rw [hmarks] at hcons
  exact (zero_add m) ▸ hcons

lemma own (h : (s.after ts).Rests) : Tags s ts (marksFrom s ts) :=
  ⟨h, .refl _⟩

lemma less (h : Tags s ts m) (hn : Remainder ts n m) : Tags s ts n :=
  ⟨h.rests, hn.trans h.remainder⟩

/-! ### Tokens without marks -/

lemma plain_append (hx : Plain xs) (hy : Tags .start ys n) : Tags .start (xs ++ ys) n := by
  induction xs with
  | nil => exact hy
  | cons t xs ih =>
    obtain ⟨ht, hxs⟩ := List.forall_mem_cons.mp hx
    exact cons_unmarked (Spot.next_of_isPlain (.inl rfl) ht) (Token.marks_of_isPlain ht) (ih hxs)

lemma plain (h : Plain ts) : Tags .start ts 0 := by
  have hts := plain_append h .nil
  rwa [List.append_nil] at hts

lemma mark_append (ht : t.kind = kind) (hkind : kind.isPlain = true) (h : Tags .start ts m) :
    Tags .start (t :: ts) m :=
  plain_append (.cons ht hkind .nil) h

lemma mark (ht : t.kind = kind) (hkind : kind.isPlain = true) : Tags .start [t] 0 :=
  mark_append ht hkind .nil

lemma append_mark (hx : Tags s xs m) (ht : t.kind = kind) (hkind : kind.isPlain = true)
    (hy : Tags .start ys n) : Tags s (xs ++ t :: ys) (m + n) :=
  hx.append (.mark_append ht hkind hy) (unlabelled_cons (ht ▸ hkind))

lemma of_plain {form : Form Expr} {span : Span} (ht : t.kind = kind) (hkind : kind.isPlain = true)
    (hlabel : form.label? = none) (hbody : form.body? = none)
    (h : Tags .start ts (marksOfAll form.children)) :
    Tags .start (t :: ts) (Expr.marks ⟨form, span⟩) := by
  rw [Expr.marks_of_plain span hlabel hbody]
  exact mark_append ht hkind h

/-! ### Overloads, labels and jumps -/

lemma operator_append (ht : t.kind = .kwOperator) (h : Tags .start ts m) :
    Tags .start (t :: ts) ({.overload} + m) := by
  have hnext : Spot.start.next t = .start := by rw [Spot.next, ht]
  have hmarks : t.marks .start = {.overload} := by
    rw [Token.marks_of_ne (ht ▸ nofun), Token.mark?, ht]
    rfl
  exact hmarks ▸ cons hnext h

lemma label_append {colon : Token} (ht : t.kind = .label) (hcolon : colon.kind = .colon)
    (h : Tags .target ts m) :
    Tags .start (t :: colon :: ts) (labelMarks t.span.offset (some t.text) + m) := by
  have hnext : Spot.start.next t = .name := by rw [Spot.next, ht]; rfl
  have hmarks : t.marks .start = labelMarks t.span.offset (some t.text) := by
    rw [Token.marks_of_ne (ht ▸ nofun), Token.mark?, ht]
    rfl
  have hnext' : Spot.name.next colon = .target := by rw [Spot.next, hcolon]; rfl
  have hmarks' : colon.marks .name = 0 := Token.marks_of_isPlain (hcolon ▸ rfl)
  exact hmarks ▸ cons hnext (cons_unmarked hnext' hmarks' h)

lemma stacked (ht : t.kind = .label)
    (h : Tags .start (t :: ts) (labelMarks t.span.offset (some t.text) + m)) :
    Tags .target (t :: ts) m := by
  have hnext : Spot.start.next t = .name := by rw [Spot.next, ht]; rfl
  have hmarks : t.marks .start = labelMarks t.span.offset (some t.text) := by
    rw [Token.marks_of_ne (ht ▸ nofun), Token.mark?, ht]
    rfl
  have hnext' : Spot.target.next t = .name := by rw [Spot.next, ht]; rfl
  have hmarks' : t.marks .target = 0 := by
    rw [Token.marks_of_ne (ht ▸ nofun), Token.mark?, ht]
    rfl
  obtain ⟨hrests, hremainder⟩ := h
  rw [Spot.after_cons, hnext] at hrests
  rw [marksFrom_cons, hnext, hmarks] at hremainder
  constructor
  · rw [Spot.after_cons, hnext']
    exact hrests
  · rw [marksFrom_cons, hnext', hmarks', zero_add]
    exact hremainder.cancel

lemma jump_append (ht : t.kind = .kwBreak ∨ t.kind = .kwContinue) (h : Tags .jump ts m) :
    Tags .start (t :: ts) m := by
  have hnext : Spot.start.next t = .jump := by rcases ht with ht | ht <;> rw [Spot.next, ht]
  have hmarks : t.marks .start = 0 := by
    rcases ht with ht | ht <;> rw [Token.marks_of_ne (ht ▸ nofun), Token.mark?, ht] <;> rfl
  exact cons_unmarked hnext hmarks h

lemma jump_label_append (ht : t.kind = .label) (h : Tags .start ts m) :
    Tags .jump (t :: ts) m := by
  have hnext : Spot.jump.next t = .start := by rw [Spot.next, ht]; rfl
  have hmarks : t.marks .jump = 0 := by
    rw [Token.marks_of_ne (ht ▸ nofun), Token.mark?, ht]
    rfl
  exact cons_unmarked hnext hmarks h

/-! ### Literals -/

lemma literal (ht : Grammar.standard.opening? t.kind = some .literal) :
    Tags .start [t] (marksOfAll t.embedded) := by
  have hnext : Spot.start.next t = .start := by
    unfold Spot.next
    split <;> first | rfl | (next hkind => rw [hkind] at ht; cases ht)
  have hmarks : t.marks .start = marksOfAll t.embedded := by
    unfold Token.marks Token.mark?
    split
    · next hkind => rw [hkind] at ht; cases ht
    · next hkind => rw [hkind] at ht; cases ht
    · exact zero_add _
  have hcons := cons hnext nil
  rwa [hmarks, add_zero] at hcons

end Tags

end Tags

end FrontEnd
