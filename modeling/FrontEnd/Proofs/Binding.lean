import FrontEnd.Proofs.Subtrees

/-!
# How operators bind

Right operands are all read at the level of sums, so how tightly an operator binds does not say what
its right operand may be. What does is the level at which an operand is read: its root is an opening
or a continuation above that level. And what an expression ends with keeps continuations of a
higher level to itself, so the left operand of a continuation ends with nothing that it could
continue.
-/

namespace FrontEnd

open Production

/-! ## Forms of operands -/

namespace Form

variable {ε : Type}

def isBinary : Form ε → Bool
  | binary .. => true
  | _ => false

def isPrefixed : Form ε → Bool
  | unary .. | typeCast .. => true
  | _ => false

def isPostfixed : Form ε → Bool
  | post .. | element .. => true
  | _ => false

/-- Assignments and chains of statements. -/
def isSequence : Form ε → Bool
  | assignment .. | statement .. => true
  | _ => false

/-- Forms that go on as far as an expression can. -/
def isGreedy : Form ε → Bool
  | assignment .. | statement .. | lambda .. | binding .. => true
  | returning value | breaking value _ => value.isSome
  | declaration d => d.value.isSome
  | _ => false

end Form

/-- The grammar gives a level to a binary operator. -/
def BinaryOp.RegisteredAt (op : BinaryOp) (level : Precedence) : Prop :=
  ∃ kind, Grammar.standard.continuation? kind = some (.binary op level)

/-- What may stand as the object, the callee or the operand of a postfix form. -/
structure Form.Head {ε : Type} (form : Form ε) : Prop where
  notBinary : form.isBinary = false
  notSequence : form.isSequence = false
  notPrefixed : form.isPrefixed = false
  notGreedy : form.isGreedy = false

/-- What the operands of a form are not. -/
def Form.Bound : Form Expr → Prop
  | .binary op left right =>
    (left.form.isGreedy = false ∧
      (op ∈ [.mul, .div, .pow] → left.form.isBinary = false ∧ left.form.isSequence = false)) ∧
    right.form.isSequence = false ∧
      ∀ op' l r, right.form = .binary op' l r →
        ¬ op'.RegisteredAt .conditional ∧ ¬ op'.RegisteredAt .sum
  | .unary _ operand | .typeCast _ operand =>
    operand.form.isBinary = false ∧ operand.form.isSequence = false
  | .element object indices =>
    object.form.Head ∧ ∀ index ∈ indices, index.form.isBinary = false ∧
      index.form.isSequence = false ∧ index.form.isPostfixed = false
  | .property object _ | .post _ object | .call object _ => object.form.Head
  | .statement left _ | .assignment left _ => left.form.isGreedy = false
  | _ => True

/-! ## Levels -/

/-- The level of a binary operator. -/
def BinaryOp.level : BinaryOp → Precedence
  | mul | div => .product
  | pow => .exponent
  | add | sub | shl | shr | xor | and | or => .sum
  | bitAnd | bitOr | eq | ne | lt | le | gt | ge => .conditional

lemma BinaryOp.RegisteredAt.eq {op : BinaryOp} {level : Precedence} (h : op.RegisteredAt level) :
    level = op.level := by
  obtain ⟨kind, h⟩ := h
  change Grammar.standardContinuation? kind = _ at h
  unfold Grammar.standardContinuation? at h
  split at h <;> cases h <;> rfl

/-- The level at which a form continues an expression, if it does. -/
def Form.level? {ε : Type} : Form ε → Option Precedence
  | .binary op .. => some op.level
  | .post .. | .element .. => some .post
  | .property .. => some .property
  | .call .. => some .call
  | .statement .. => some .statement
  | .assignment .. => some .assignment
  | _ => none

/-- What can be read where only continuations above a level are taken. -/
def Form.Within {ε : Type} (least : Precedence) (form : Form ε) : Prop :=
  ∀ level, form.level? = some level → level.exceeds least = true

namespace Form.Within

variable {ε : Type} {least : Precedence} {form : Form ε}

lemma notSequence (h : form.Within least) (hleast : Precedence.exceeds .assignment least = false) :
    form.isSequence = false := by
  cases form with
  | assignment => exact absurd (h _ rfl) (Bool.eq_false_iff.mp hleast)
  | statement =>
    have hlevel := h _ rfl
    cases least <;> cases hleast <;> cases hlevel
  | _ => rfl

lemma notBinary (h : form.Within least) (hleast : Precedence.exceeds .exponent least = false) :
    form.isBinary = false := by
  cases form with
  | binary op =>
    have hlevel := h _ rfl
    cases op <;> cases least <;> cases hleast <;> cases hlevel
  | _ => rfl

lemma notPostfixed (h : form.Within .post) : form.isPostfixed = false := by
  cases form with
  | post => cases h _ rfl
  | element => cases h _ rfl
  | _ => rfl

lemma notRegistered {op : BinaryOp} {left right : ε} (h : (binary op left right).Within least)
    {level : Precedence} (hleast : level.exceeds least = false) : ¬ op.RegisteredAt level := by
  intro hregistered
  rw [hregistered.eq] at hleast
  exact absurd (h _ rfl) (Bool.eq_false_iff.mp hleast)

end Form.Within

section Left

variable {ε : Type} {form : Form ε} {level least : Precedence}

lemma Precedence.exceeds_lowest (h : level.exceeds least = true) :
    level.exceeds .lowest = true :=
  decide_eq_true (Nat.zero_lt_of_lt (of_decide_eq_true h))

lemma Form.grip_of_isGreedy (h : form.isGreedy = true) : form.grip = .lowest := by
  cases form with
  | returning value => exact if_pos h
  | breaking value label => exact if_pos h
  | declaration d => exact if_pos h
  | assignment | statement | lambda | binding => rfl
  | _ => cases h

lemma Form.notGreedy (hlevel : level.exceeds least = true)
    (hgrip : level.exceeds form.grip = false) : form.isGreedy = false := by
  by_contra hgreedy
  rw [grip_of_isGreedy (Bool.not_eq_false _ ▸ hgreedy), Precedence.exceeds_lowest hlevel] at hgrip
  cases hgrip

lemma Form.notSequence (h : form.isGreedy = false) : form.isSequence = false := by
  cases form with
  | assignment | statement => cases h
  | _ => rfl

lemma Form.notBinary (hlevel : level.exceeds .sum = true)
    (hgrip : level.exceeds form.grip = false) : form.isBinary = false := by
  cases form with
  | binary => exact absurd hlevel (Bool.eq_false_iff.mp hgrip)
  | _ => rfl

lemma Form.notPrefixed (hlevel : level.exceeds .unary = true)
    (hgrip : level.exceeds form.grip = false) : form.isPrefixed = false := by
  cases form with
  | unary | typeCast => exact absurd hlevel (Bool.eq_false_iff.mp hgrip)
  | _ => rfl

lemma Form.head (hlevel : level.exceeds .unary = true)
    (hgrip : level.exceeds form.grip = false) : form.Head where
  notBinary := notBinary (by cases level <;> cases hlevel <;> rfl) hgrip
  notSequence := notSequence (notGreedy hlevel hgrip)
  notPrefixed := notPrefixed hlevel hgrip
  notGreedy := notGreedy hlevel hgrip

end Left

/-! ## Phrases -/

/-- The language of expressions in which all operands are bound, and whose root is read at the
level. -/
def Language.bound : Language where
  token t := ∀ {parts e}, t.value = .template parts → .embedded e ∈ parts →
    e.Everywhere Form.Bound
  expr least _ e := e.Everywhere Form.Bound ∧ e.form.Within least
  type _ _ := True
  pattern _ _ := True
  path _ _ := True

lemma Language.keeps_bound : Language.bound.Keeps Form.Bound where
  expr h := h.1
  literal ht h child hchild := by
    obtain ⟨parts, htemplate, hpart⟩ := Token.mem_template h hchild
    exact ht htemplate hpart
  block _ := trivial
  conditional h := by cases h <;> trivial
  omitted := trivial

section Phrases

variable {ts : List Token}

lemma form_of_withLabel? {e labelled : Expr} {label : String}
    (h : e.withLabel? label = some labelled) :
    labelled.form.Bound ∧ labelled.form.level? = none := by
  obtain ⟨form, span⟩ := e
  cases form <;> cases h <;> exact ⟨trivial, rfl⟩

lemma Opened.bound {opening : Opening} {form : Form Expr} (h : Opened .bound opening ts form) :
    form.Bound := by
  cases h with
  | unary h => exact ⟨h.2.notBinary rfl, h.2.notSequence rfl⟩
  | typeCast htype hright hvalue => exact ⟨hvalue.2.notBinary rfl, hvalue.2.notSequence rfl⟩
  | conditional h => cases h <;> trivial
  | label hcolon h hlabelled => exact (form_of_withLabel? hlabelled).1
  | _ => trivial

lemma Opened.level?_eq_none {Λ : Language} {opening : Opening} {form : Form Expr}
    (h : Opened Λ opening ts form) : form.level? = none := by
  cases h with
  | conditional h => cases h <;> rfl
  | label hcolon h hlabelled => exact (form_of_withLabel? hlabelled).2
  | _ => rfl

section Continued

variable {kind : TokenKind} {left : Expr} {continuation : Continuation} {form : Form Expr}
variable (hcontinuation : Grammar.standard.continuation? kind = some continuation)
include hcontinuation

lemma Continued.level?_eq {Λ : Language} (h : Continued Λ left continuation ts form) :
    form.level? = some continuation.level := by
  cases h with
  | binary h => exact congrArg some (BinaryOp.RegisteredAt.eq ⟨kind, hcontinuation⟩).symm
  | _ => rfl

lemma Continued.bound {least : Precedence} (hlevel : continuation.level.exceeds least = true)
    (hgrip : continuation.level.exceeds left.form.grip = false)
    (h : Continued .bound left continuation ts form) : form.Bound := by
  have hgreedy := Form.notGreedy hlevel hgrip
  cases h with
  | @binary op level _ _ right h =>
    obtain rfl : level = op.level := BinaryOp.RegisteredAt.eq ⟨kind, hcontinuation⟩
    refine ⟨⟨hgreedy, fun hop => ⟨?_, Form.notSequence hgreedy⟩⟩, h.2.notSequence rfl, ?_⟩
    · refine Form.notBinary ?_ hgrip
      cases op <;> first | rfl | simp at hop
    · intro op' l r hr
      have hwithin := hr ▸ h.2
      exact ⟨hwithin.notRegistered rfl, hwithin.notRegistered rfl⟩
  | post => exact Form.head rfl hgrip
  | property hname => exact Form.head rfl hgrip
  | call h => exact Form.head rfl hgrip
  | element h =>
    refine ⟨Form.head rfl hgrip, fun index hindex => ?_⟩
    have hwithin := (h.forall fun hindex => hindex.2) index hindex
    exact ⟨hwithin.notBinary rfl, hwithin.notSequence rfl, hwithin.notPostfixed⟩
  | statement h => exact hgreedy
  | assignment h hassignable => exact hgreedy

end Continued

lemma Phrase.bound {least : Precedence} {e : Expr} (h : Phrase .bound least ts e) :
    e.Everywhere Form.Bound ∧ e.form.Within least := by
  induction h with
  | opened hopening haccepts h =>
    refine ⟨Expr.everywhere_iff.mpr ⟨h.bound, h.children Language.keeps_bound⟩,
      fun level hlevel => ?_⟩
    rw [h.level?_eq_none] at hlevel
    cases hlevel
  | continued hleft hcontinuation hlevel hgrip h ih =>
    refine ⟨Expr.everywhere_iff.mpr ⟨h.bound hcontinuation hlevel hgrip,
      h.children Language.keeps_bound ih.1⟩, fun level hform => ?_⟩
    rw [h.level?_eq hcontinuation] at hform
    cases hform
    exact hlevel

end Phrases

/-- Operands are bound: in the tree of a source, at any depth and in template strings too, no
operand has a form that its place excludes. -/
theorem parse_respects_precedence {source : String} {e : Expr}
    (h : (parse source).result = .ok (some e)) : e.Everywhere Form.Bound := by
  refine parse_induction (fun K hembedded => ⟨.bound, ⟨⟨fun ht => ?_, ?_, ?_, ?_⟩, Phrase.bound⟩,
    fun h => h.bound.1⟩) h
  · exact hembedded ht
  all_goals exact fun _ => trivial

/-- Operators of all levels, in operands, indices and template strings. -/
theorem parse_respects_precedence_chain :
    let source := "a = -b ** c * d + e < f && g; x[-i++, y.z(1)] = `${<T> p[0] - q * r}`++ / 2;"
    ∃ e, (parse source).result = .ok (some e) ∧ e.Everywhere Form.Bound := by
  intro source
  have hparse : (parse source).result.toOption.map Option.isSome = some true := by decide +kernel
  obtain ⟨program, hprogram, hsome⟩ := Outcome.eq_ok_of_map hparse
  obtain ⟨e, rfl⟩ := Option.isSome_iff_exists.mp hsome
  exact ⟨e, hprogram, parse_respects_precedence hprogram⟩

end FrontEnd
