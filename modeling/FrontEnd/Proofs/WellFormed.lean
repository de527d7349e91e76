import FrontEnd.Proofs.Spelling
import FrontEnd.Proofs.Subtrees

/-!
# Accepted trees are well formed

The types of the tree allow more than the language does. `Form.WellFormed` says what else holds of
every node: of assignments, maps, conditions, declarations, functions, the members of classes and
traits, imports, loops and template strings. Each production sees to its part of it.
-/

namespace FrontEnd

open Production

/-! ## Well-formed nodes -/

/-- The lists of an import path are not empty. -/
inductive ImportSection.Proper : ImportSection → Prop where
  | terminal {name localName} : Proper (.terminal name localName)
  | element {name rest} (h : Proper rest) : Proper (.element name rest)
  | list {sections} (hne : sections ≠ []) (h : ∀ s ∈ sections, Proper s) : Proper (.list sections)

/-- A pattern of names and lists, without patterns of objects. -/
inductive Pattern.Objectless : Pattern → Prop where
  | name {ident span} : Objectless ⟨.name ident, span⟩
  | named {name pattern span} (h : Objectless pattern) : Objectless ⟨.named name pattern, span⟩
  | list {elements span} (h : ∀ p ∈ elements, Objectless p) : Objectless ⟨.list elements, span⟩

mutual

/-- Whether a pattern holds no patterns of objects. -/
def Pattern.isObjectless : Pattern → Bool
  | ⟨.name _, _⟩ => true
  | ⟨.named _ p, _⟩ => p.isObjectless
  | ⟨.list ps, _⟩ => Pattern.allObjectless ps
  | ⟨.object _, _⟩ => false

def Pattern.allObjectless : List Pattern → Bool
  | [] => true
  | p :: ps => p.isObjectless && Pattern.allObjectless ps

end

mutual

lemma Pattern.isObjectless_iff : ∀ p : Pattern, p.isObjectless = true ↔ p.Objectless
  | ⟨.name _, _⟩ => ⟨fun _ => .name, fun _ => by rw [isObjectless]⟩
  | ⟨.named _ p, _⟩ => by
    rw [isObjectless, Pattern.isObjectless_iff p]
    exact ⟨.named, fun | .named h => h⟩
  | ⟨.list ps, _⟩ => by
    rw [isObjectless, Pattern.allObjectless_iff ps]
    exact ⟨.list, fun | .list h => h⟩
  | ⟨.object _, _⟩ => by
    rw [isObjectless]
    exact ⟨fun h => (Bool.false_ne_true h).elim, nofun⟩

lemma Pattern.allObjectless_iff :
    ∀ ps : List Pattern, Pattern.allObjectless ps = true ↔ ∀ p ∈ ps, p.Objectless
  | [] => by simp [allObjectless]
  | p :: ps => by
    rw [allObjectless, Bool.and_eq_true, Pattern.isObjectless_iff p, Pattern.allObjectless_iff ps,
      List.forall_mem_cons]

end

instance (p : Pattern) : Decidable p.Objectless :=
  decidable_of_iff _ p.isObjectless_iff

/-- Whether an expression may follow `else`. -/
def Expr.isAlternative (e : Expr) : Bool :=
  match e.form with
  | .block .. | .conditional .. => true
  | _ => false

/-- A declaration without a value is that of a variable with a type. -/
def Declaration.Settled (d : Declaration Expr) : Prop :=
  d.value = none → d.kind = .variable ∧ d.type.isSome = true

/-- All parameters of a function have types. -/
def FunctionDef.Typed (f : FunctionDef Expr) : Prop :=
  ∀ p ∈ f.params, p.type.isSome = true

/-- An overload stands under the text of its operator, which types can overload with as many
parameters. -/
structure Overload.WellFormed (o : Overload Expr) (kind : TokenKind) : Prop where
  named : o.function.name.name = o.symbol
  spelled : TokenKind.symbol? o.symbol.toList = some kind
  operator : kind.isOperator = true
  typed : o.function.Typed
  arity : o.function.params.length ≤ 1
  unary : o.function.params.length = 0 → kind.isUnaryOperator = true
  binary : o.function.params.length = 1 → kind.isUnaryOnly = false

/-- The members of a class or of a trait. -/
structure MemberList.WellFormed (body : BodyKind) (m : MemberList Expr) : Prop where
  methods : ∀ f ∈ m.methods, f.item.Typed
  operators : ∀ o ∈ m.operators, ∃ kind, o.WellFormed kind
  implemented : body = .ofClass → (∀ f ∈ m.methods, f.item.body.isSome = true) ∧
    ∀ o ∈ m.operators, o.function.body.isSome = true
  properties : ∀ p ∈ m.properties, p.item.Settled
  distinct : (m.properties.filterMap (·.item.simpleName?)).Nodup
  typed : body = .ofTrait → ∀ p ∈ m.properties, p.item.type.isSome = true

/-- What holds of a node besides what its type says. -/
def Form.WellFormed : Form Expr → Prop
  | .assignment target _ => target.isAssignable = true
  | .mapping keys values => keys.length = values.length
  | .conditional _ _ alternative => ∀ e ∈ alternative, e.isAlternative = true
  | .declaration d => d.Settled
  | .function f => f.Typed ∧ f.body.isSome = true
  | .classDef d => d.members.WellFormed .ofClass
  | .traitDef d => d.members.WellFormed .ofTrait
  | .importing path => path.Proper
  | .forLoop (.iterating pattern _) _ _ => pattern.Objectless
  | .literal (.template parts) => Alternating parts
  | _ => True

/-- The language of expressions all of whose nodes are well formed. -/
def Language.wellFormed : Language where
  token t :=
    (t.kind.isOperator = true → TokenKind.symbol? t.text.toList = some t.kind) ∧
      ∀ value, t.literal? = some value → Form.WellFormed (.literal value) ∧
        ∀ child ∈ value.children, child.Everywhere Form.WellFormed
  expr _ _ e := e.Everywhere Form.WellFormed
  type _ _ := True
  pattern _ _ := True
  path _ path := path.Proper

/-! ## Patterns of loops -/

lemma mapM_id_eq_ok {ε α : Type} {outcomes : List (Except ε α)} {as : List α}
    (h : outcomes.mapM id = .ok as) : outcomes = as.map .ok := by
  induction outcomes generalizing as with
  | nil => cases h; rfl
  | cons outcome outcomes ih =>
    rw [List.mapM_cons] at h
    cases outcome with
    | error place => cases h
    | ok a =>
      cases hrest : outcomes.mapM id with
      | error place => rw [hrest] at h; cases h
      | ok rest =>
        rw [hrest] at h
        cases h
        rw [ih hrest]
        rfl

/-- What an expression spells as a pattern holds no pattern of an object. -/
lemma objectless_of_patternOfExpr (e : Expr) :
    ∀ {pattern}, patternOfExpr e = .ok pattern → pattern.Objectless := by
  induction e using Expr.layered_induction with
  | step form span =>
    intro pattern h
    rw [Similar.patternOfExpr_mk] at h
    cases form with
    | identifier ident =>
      cases h
      exact .name
    | binding name value =>
      simp only [Form.map, patternOfForm] at h
      cases hvalue : patternOfExpr value.val with
      | error place => rw [hvalue] at h; cases h
      | ok p =>
        rw [hvalue] at h
        cases h
        exact .named (value.property hvalue)
    | list elements =>
      simp only [Form.map, patternOfForm] at h
      cases helements : ((elements.map Subtype.val).map patternOfExpr).mapM id with
      | error place => rw [helements] at h; cases h
      | ok ps =>
        rw [helements] at h
        cases h
        refine .list fun p hp => ?_
        have hmem := List.mem_map_of_mem (f := Except.ok (ε := Span)) hp
        rw [← mapM_id_eq_ok helements, List.map_map] at hmem
        obtain ⟨element, -, helement⟩ := List.mem_map.mp hmem
        exact element.property helement
    | _ => cases h

section Phrases

variable {ts : List Token} {body : BodyKind}

/-! ## Declarations and functions -/

lemma DeclarationPhrase.settled {Λ : Language} {kind : DeclKind} {declared : Declaration Expr}
    (h : DeclarationPhrase Λ kind ts declared) : declared.Settled := by
  obtain @⟨_, _, _, pattern, type, value, -, -, -, hvalued⟩ := h
  rintro rfl
  cases type with
  | none => cases hvalued
  | some type =>
    rcases kind with _ | _
    · exact ⟨rfl, rfl⟩
    · cases hvalued

lemma FunctionPhrase.typed {Λ : Language} {name : Ident} {allowSignature : Bool}
    {function : FunctionDef Expr} (h : FunctionPhrase Λ name allowSignature ts function) :
    function.Typed := by
  obtain ⟨-, -, hparams, -, -⟩ := h
  refine hparams.forall fun hparam => ?_
  cases hparam
  rfl

lemma FunctionPhrase.isSome_body {Λ : Language} {name : Ident} {allowSignature : Bool}
    {function : FunctionDef Expr} (h : FunctionPhrase Λ name allowSignature ts function)
    (hallow : allowSignature = false) : function.body.isSome = true := by
  subst hallow
  obtain ⟨-, -, -, -, hbody⟩ := h
  cases hbody with
  | signature hallowed => cases hallowed
  | block h => rfl

/-! ## Members -/

lemma OverloadPhrase.wellFormed {allowSignature : Bool} {overload : Overload Expr}
    (h : OverloadPhrase .wellFormed allowSignature ts overload) :
    ∃ kind, overload.WellFormed kind := by
  obtain @⟨op, lead, isFunction, ts, function, htoken, hop, hlead, h, harity⟩ := h
  have htyped := h.typed
  have hname : function.name = op.ident := by cases h; rfl
  refine ⟨op.kind, congrArg Ident.name hname, htoken.1 hop, hop, htyped, ?_, ?_, ?_⟩
  all_goals
    unfold arityProblem? at harity
    grind

lemma propertyProblem?_eq_none {members : MemberList Expr} {declared : Declaration Expr}
    (h : propertyProblem? body members declared = none) :
    (∀ name, declared.simpleName? = some name → members.property? name = none) ∧
      (body = .ofTrait → declared.type.isSome = true) := by
  unfold propertyProblem? at h
  split at h
  · cases h
  · next hnew =>
    split at h
    · cases h
    · next htyped =>
      refine ⟨fun name hname => ?_, fun hbody => ?_⟩
      · rw [hname] at hnew
        simpa using hnew
      · subst hbody
        cases htype : declared.type with
        | none => exact absurd ⟨rfl, by rw [htype]; rfl⟩ htyped
        | some type => rfl

lemma not_mem_of_property?_eq_none {members : MemberList Expr} {name : String}
    (h : members.property? name = none) :
    name ∉ members.properties.filterMap (·.item.simpleName?) := by
  intro hmem
  obtain ⟨p, hp, hname⟩ := List.mem_filterMap.mp hmem
  have hfind := List.find?_eq_none.mp h p hp
  exact hfind (beq_iff_eq.mpr hname)

lemma ItemPhrase.wellFormed {scope : Scope} {visibility : Visibility}
    {members added : MemberList Expr}
    (h : ItemPhrase .wellFormed body scope visibility members ts added)
    (hmembers : members.WellFormed body) : added.WellFormed body := by
  cases h with
  | method hkeyword hname h =>
    refine { hmembers with methods := ?_, implemented := fun hbody => ⟨?_, ?_⟩ }
    · exact List.forall_mem_append.mpr
        ⟨hmembers.methods, List.forall_mem_singleton.mpr h.typed⟩
    · exact List.forall_mem_append.mpr ⟨(hmembers.implemented hbody).1,
        List.forall_mem_singleton.mpr (h.isSome_body (hbody ▸ rfl))⟩
    · exact (hmembers.implemented hbody).2
  | overload hkeyword h =>
    refine { hmembers with operators := ?_, implemented := fun hbody => ⟨?_, ?_⟩ }
    · intro o ho
      rcases mem_of_mem_insertOverload ho with rfl | ho
      · exact h.wellFormed
      · exact hmembers.operators o ho
    · exact (hmembers.implemented hbody).1
    · intro o ho
      rcases mem_of_mem_insertOverload ho with rfl | ho
      · obtain ⟨htoken, hop, hlead, h, -⟩ := h
        exact h.isSome_body (hbody ▸ rfl)
      · exact (hmembers.implemented hbody).2 o ho
  | property h =>
    obtain ⟨hlead, h, hproblem⟩ := h
    obtain ⟨hnew, htyped⟩ := propertyProblem?_eq_none hproblem
    refine { hmembers with properties := ?_, distinct := ?_, typed := fun hbody => ?_ }
    · exact List.forall_mem_append.mpr
        ⟨hmembers.properties, List.forall_mem_singleton.mpr h.settled⟩
    · change (List.filterMap _ (_ ++ [_])).Nodup
      rw [List.filterMap_append, List.nodup_append]
      refine ⟨hmembers.distinct, ?_, fun name hname name' hname' heq => ?_⟩
      · rw [List.filterMap_cons]
        split <;> simp
      · obtain ⟨p, hp, hsimple⟩ := List.mem_filterMap.mp hname'
        rw [List.mem_singleton.mp hp, ← heq] at hsimple
        exact not_mem_of_property?_eq_none (hnew name hsimple) hname
    · exact List.forall_mem_append.mpr
        ⟨hmembers.typed hbody, List.forall_mem_singleton.mpr (htyped hbody)⟩

lemma MembersPhrase.wellFormed {result : MemberList Expr}
    (h : MembersPhrase .wellFormed body [] .empty ts result) : result.WellFormed body := by
  refine h.keeps ItemPhrase.wellFormed ?_
  exact ⟨List.forall_mem_nil _, List.forall_mem_nil _,
    fun _ => ⟨List.forall_mem_nil _, List.forall_mem_nil _⟩, List.forall_mem_nil _, .nil,
    fun _ => List.forall_mem_nil _⟩

/-! ## Expressions -/

lemma ConditionalPhrase.wellFormed {Λ : Language} {e : Expr} (h : ConditionalPhrase Λ ts e) :
    e.form.WellFormed := by
  cases h with
  | alone hkeyword hcondition hconsequence => exact fun e he => by cases he
  | otherwise hkeyword hcondition hconsequence hother halternative =>
    exact fun e he => by cases he; rfl
  | chained hkeyword hcondition hconsequence hother hnested =>
    intro e he
    cases he
    cases hnested <;> rfl

lemma Language.keeps_wellFormed : Language.wellFormed.Keeps Form.WellFormed where
  expr h := h
  literal ht h := (ht.2 _ h).2
  block _ := trivial
  conditional h := h.wellFormed
  omitted := trivial

lemma wellFormed_of_withLabel? {e labelled : Expr} {label : String}
    (h : e.withLabel? label = some labelled) (he : e.form.WellFormed) :
    labelled.form.WellFormed := by
  obtain ⟨form, span⟩ := e
  cases form with
  | block b => cases h; trivial
  | endlessLoop body label => cases h; trivial
  | forLoop head body label => cases h; cases head <;> exact he
  | _ => cases h

lemma Opened.wellFormed {opening : Opening} {form : Form Expr}
    (h : Opened .wellFormed opening ts form) : form.WellFormed := by
  cases h with
  | literal htoken h => exact (htoken.2 _ h).1
  | conditional h => exact h.wellFormed
  | declaration h => exact h.settled
  | forLoop hhead hbody =>
    cases hhead with
    | iterating hinit hbinding hkeyword hiterable => exact objectless_of_patternOfExpr _ hbinding
    | counting => trivial
  | function hname h => exact ⟨h.typed, h.isSome_body rfl⟩
  | classDef hname hparams hleft hmembers => exact hmembers.wellFormed
  | traitDef hlead hname hparams hleft hmembers => exact hmembers.wellFormed
  | importing h => exact h
  | label hcolon h hlabelled =>
    exact wellFormed_of_withLabel? hlabelled (Expr.everywhere_iff.mp h).1
  | mapping hleft h =>
    exact (List.length_map ..).trans (List.length_map ..).symm
  | _ => trivial

lemma Continued.wellFormed {left : Expr} {continuation : Continuation} {form : Form Expr}
    (h : Continued .wellFormed left continuation ts form) : form.WellFormed := by
  cases h with
  | assignment h hassignable => exact hassignable
  | _ => trivial

lemma Phrase.wellFormed {least : Precedence} {e : Expr} (h : Phrase .wellFormed least ts e) :
    e.Everywhere Form.WellFormed := by
  induction h with
  | opened hopening haccepts h =>
    exact Expr.everywhere_iff.mpr ⟨h.wellFormed, h.children Language.keeps_wellFormed⟩
  | continued hleft hcontinuation hlevel hgrip h ih =>
    exact Expr.everywhere_iff.mpr ⟨h.wellFormed, h.children Language.keeps_wellFormed ih⟩

lemma PathPhrase.proper {path : ImportSection} (h : PathPhrase .wellFormed ts path) :
    path.Proper := by
  cases h with
  | terminal hname => exact .terminal
  | renamed hname hkeyword hlocal => exact .terminal
  | element hname hdot h => exact .element h
  | list hleft h hne => exact .list hne (h.forall id)

end Phrases

/-! ## Sources -/

lemma Language.closed_wellFormed {K : Setting} (h : ∀ t, K.Found t → Language.wellFormed.token t) :
    Language.wellFormed.Closed K where
  token ht := h _ ht
  expr := Phrase.wellFormed
  type _ := trivial
  pattern _ := trivial
  path := PathPhrase.proper

lemma wellFormed_token {K : Setting} {t : Token} (h : K.Found t)
    (hparts : ∀ {parts e}, t.value = .template parts → .embedded e ∈ parts →
      e.Everywhere Form.WellFormed) : Language.wellFormed.token t := by
  obtain ⟨r, r', h⟩ := h
  refine ⟨Scan.writes_tokenHere _ r t r' h, fun value hvalue => ⟨?_, fun child hchild => ?_⟩⟩
  · unfold Token.literal? at hvalue
    split at hvalue <;> cases hvalue
    case h_6 parts htemplate => exact Scan.tokenHere_alternating h htemplate
    all_goals trivial
  · obtain ⟨parts, htemplate, hpart⟩ := Token.mem_template hvalue hchild
    exact hparts htemplate hpart

/-- Accepted trees are well formed: whatever source is parsed, every node of its tree, at any depth
and in template strings too, is well formed. -/
theorem parse_wellFormed {source : String} {e : Expr}
    (h : (parse source).result = .ok (some e)) :
    e.Everywhere Form.WellFormed := by
  refine parse_induction (fun K hembedded => ⟨.wellFormed, ?_, Phrase.wellFormed⟩) h
  exact Language.closed_wellFormed fun t ht => wellFormed_token ht (hembedded ht)

/-- A trait with a signature and an overload, a class with a modifier block, an import, a loop over
parts of lists, and template strings inside one another. -/
theorem parse_wellFormed_members :
    let source := "trait T \x7b x: I, operator -() I \x7b\x7d \x7d; class C \x7b static \x7b " ++
      "fn g(b: M) C \x7b b[0] = map!\x7b1: `a$\x7b`$\x7bx\x7d`\x7dc`\x7d \x7d \x7d \x7d; " ++
      "import \x7ba.\x7bd as e\x7d\x7d; for [y] in if a \x7b\x7d else \x7bc\x7d \x7b let q: I \x7d"
    ∃ e, (parse source).result = .ok (some e) ∧
      e.Everywhere Form.WellFormed := by
  intro source
  have hparse : (parse source).result.toOption.map Option.isSome = some true := by decide +kernel
  obtain ⟨program, hprogram, hsome⟩ := Outcome.eq_ok_of_map hparse
  obtain ⟨e, rfl⟩ := Option.isSome_iff_exists.mp hsome
  exact ⟨e, hprogram, parse_wellFormed hprogram⟩

end FrontEnd
