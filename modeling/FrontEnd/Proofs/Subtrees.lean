import FrontEnd.Proofs.YieldingTokens

/-!
# Sub-expressions

What holds of every node of a tree. A node occurs in a tree at any depth, also in a template string.
Phrases hand on what is known of their parts: if a property holds everywhere in the expressions that
a phrase is put together from, it holds everywhere in those that the phrase spells.
-/

namespace FrontEnd

open Production

/-! ## Sub-expressions of a form -/

section Children

variable {ε : Type}

def TemplatePart.child? : TemplatePart ε → Option ε
  | text _ => none
  | embedded expr => some expr

def Literal.children : Literal ε → List ε
  | template parts => parts.filterMap TemplatePart.child?
  | _ => []

def Block.children (b : Block ε) : List ε :=
  b.body.toList

def ForHead.children : ForHead ε → List ε
  | counting init condition step => [init, condition, step]
  | iterating _ iterable => [iterable]

def Declaration.children (d : Declaration ε) : List ε :=
  d.value.toList

def Param.children (p : Param ε) : List ε :=
  p.default.toList

def FunctionDef.children (d : FunctionDef ε) : List ε :=
  d.params.flatMap Param.children ++ d.body.toList.flatMap Block.children

def MemberList.children (m : MemberList ε) : List ε :=
  m.methods.flatMap (·.item.children) ++ m.properties.flatMap (·.item.children) ++
    m.operators.flatMap (·.function.children)

/-- The sub-expressions that a form holds. -/
def Form.children : Form ε → List ε
  | identifier _ | enumDef _ | continuing _ | importing _ => []
  | literal value => value.children
  | group inside => [inside]
  | unary _ operand | post _ operand => [operand]
  | binary _ left right => [left, right]
  | assignment target value => [target, value]
  | property object _ => [object]
  | element object indices => object :: indices
  | call callee args => callee :: args.map Argument.value
  | list elements => elements
  | mapping keys values => keys ++ values
  | block b => b.children
  | statement first rest => first :: rest.toList
  | conditional condition consequence alternative =>
    condition :: (consequence.children ++ alternative.toList)
  | whileLoop condition body => condition :: body.children
  | endlessLoop body _ => body.children
  | forLoop head body _ => head.children ++ body.children
  | typeCast _ value => [value]
  | lambda params body => params.flatMap Param.children ++ [body]
  | function definition => definition.children
  | classDef definition => definition.members.children
  | traitDef definition => definition.members.children
  | returning value | breaking value _ => value.toList
  | declaration d => d.children
  | binding _ value => [value]

end Children

namespace Expr

/-- A node of a tree: the tree itself, or a node of one of its sub-expressions. -/
inductive Occurs (node : Expr) : Expr → Prop where
  | root : Occurs node node
  | inside {e child} (hchild : child ∈ e.form.children) (h : Occurs node child) : Occurs node e

/-- A property of forms holds at every node of a tree. -/
def Everywhere (P : Form Expr → Prop) (e : Expr) : Prop :=
  ∀ node, Occurs node e → P node.form

variable {P : Form Expr → Prop} {e : Expr}

lemma everywhere_iff :
    e.Everywhere P ↔ P e.form ∧ ∀ child ∈ e.form.children, child.Everywhere P := by
  constructor
  · intro h
    exact ⟨h e .root, fun child hchild node hnode => h node (.inside hchild hnode)⟩
  · rintro ⟨hform, hchildren⟩ node (_ | ⟨hchild, hnode⟩)
    · exact hform
    · exact hchildren _ hchild node hnode

end Expr

/-! ## Lists and optional parts -/

section Parts

variable {α : Type} {R : List Token → α → Prop} {p : α → Prop} {ts : List Token}
variable {kind left : TokenKind}

lemma Listed.forall {as : List α} (h : Listed kind R ts as) (hR : ∀ {ts a}, R ts a → p a) :
    ∀ a ∈ as, p a := by
  induction h with
  | done hright => exact List.forall_mem_nil _
  | last ha hright => exact List.forall_mem_singleton.mpr (hR ha)
  | more ha hcomma h ih => exact List.forall_mem_cons.mpr ⟨hR ha, ih⟩

lemma Optionally.forall {o : Option α} (h : Optionally R ts o) (hR : ∀ {ts a}, R ts a → p a) :
    ∀ a ∈ o.toList, p a := by
  cases h with
  | absent => exact List.forall_mem_nil _
  | present h => exact List.forall_mem_singleton.mpr (hR h)

lemma Announced.forall {o : Option α} (h : Announced kind R ts o) (hR : ∀ {ts a}, R ts a → p a) :
    ∀ a ∈ o.toList, p a := by
  cases h with
  | absent => exact List.forall_mem_nil _
  | present ht h => exact List.forall_mem_singleton.mpr (hR h)

end Parts

lemma forall_mem_flatMap {α β : Type} {f : α → List β} {p : β → Prop} {as : List α} :
    (∀ b ∈ as.flatMap f, p b) ↔ ∀ a ∈ as, ∀ b ∈ f a, p b := by
  simp only [List.mem_flatMap]
  grind

lemma Token.mem_template {t : Token} {value : Literal Expr} (h : t.literal? = some value)
    {child : Expr} (hchild : child ∈ value.children) :
    ∃ parts, t.value = .template parts ∧ .embedded child ∈ parts := by
  unfold Token.literal? at h
  split at h <;> cases h
  case h_6 parts htemplate =>
    obtain ⟨part, hpart, hembedded⟩ := List.mem_filterMap.mp hchild
    cases part with
    | text content => cases hembedded
    | embedded e =>
      cases hembedded
      exact ⟨parts, htemplate, hpart⟩
  all_goals cases hchild

/-! ## Languages of trees with a property -/

/-- A property of forms holds everywhere in the expressions of a language, and of the forms that
phrases put together without the language. -/
structure Language.Keeps (P : Form Expr → Prop) (Λ : Language) : Prop where
  expr : ∀ {least ts e}, Λ.expr least ts e → e.Everywhere P
  literal : ∀ {t value}, Λ.token t → t.literal? = some value →
    ∀ child ∈ value.children, child.Everywhere P
  block : ∀ {ts b}, BlockPhrase Λ ts b → P (.block b)
  conditional : ∀ {ts e}, ConditionalPhrase Λ ts e → P e.form
  omitted : P (.literal (.bool true))

section Phrases

variable {P : Form Expr → Prop} {Λ : Language} (hΛ : Λ.Keeps P) {ts : List Token}

lemma MembersPhrase.keeps {I : MemberList Expr → Prop} {body : BodyKind} {blocks : OpenBlocks}
    {members result : MemberList Expr} (h : MembersPhrase Λ body blocks members ts result)
    (hitem : ∀ {scope visibility members ts added},
      ItemPhrase Λ body scope visibility members ts added → I members → I added)
    (hmembers : I members) : I result := by
  induction h with
  | done hright => exact hmembers
  | leave hright hsep h ih => exact ih hmembers
  | enter hmember h ih => exact ih hmembers
  | member hmember hsep h ih =>
    cases hmember with
    | item hprivacy hstatic hadded => exact ih (hitem hadded hmembers)

lemma mem_of_mem_insertOverload {new o : Overload Expr} {os : List (Overload Expr)}
    (h : o ∈ MemberList.insertOverload new os) : o = new ∨ o ∈ os := by
  induction os with
  | nil => exact .inl (List.mem_singleton.mp h)
  | cons first os ih =>
    unfold MemberList.insertOverload at h
    grind

include hΛ

/-! ### Blocks and declarations -/

lemma BlockPhrase.children {b : Block Expr} (h : BlockPhrase Λ ts b) :
    ∀ child ∈ b.children, child.Everywhere P := by
  obtain ⟨hleft, h, hright⟩ := h
  exact h.forall hΛ.expr

lemma BlockPhrase.everywhere {b : Block Expr} (h : BlockPhrase Λ ts b) :
    (blockExpr b).Everywhere P :=
  Expr.everywhere_iff.mpr ⟨hΛ.block h, h.children hΛ⟩

lemma DeclarationPhrase.children {kind : DeclKind} {declared : Declaration Expr}
    (h : DeclarationPhrase Λ kind ts declared) :
    ∀ child ∈ declared.children, child.Everywhere P := by
  obtain ⟨hpattern, htype, hvalue, -⟩ := h
  exact hvalue.forall hΛ.expr

lemma ParamPhrase.children {param : Param Expr} (h : ParamPhrase Λ ts param) :
    ∀ child ∈ param.children, child.Everywhere P := by
  obtain ⟨hpattern, hcolon, htype, hvalue⟩ := h
  exact hvalue.forall hΛ.expr

lemma LambdaParamPhrase.children {param : Param Expr} (h : LambdaParamPhrase Λ ts param) :
    ∀ child ∈ param.children, child.Everywhere P := by
  obtain ⟨hpattern, htype, hvalue⟩ := h
  exact hvalue.forall hΛ.expr

lemma LambdaParams.children {params : List (Param Expr)} (h : LambdaParams Λ ts params) :
    ∀ child ∈ params.flatMap Param.children, child.Everywhere P := by
  rw [forall_mem_flatMap]
  cases h with
  | absent hsign => exact List.forall_mem_nil _
  | present hsign h => exact h.forall (LambdaParamPhrase.children hΛ)

lemma FunctionPhrase.children {name : Ident} {allowSignature : Bool} {function : FunctionDef Expr}
    (h : FunctionPhrase Λ name allowSignature ts function) :
    ∀ child ∈ function.children, child.Everywhere P := by
  obtain ⟨htypeParams, hleft, hparams, hreturned, hbody⟩ := h
  refine List.forall_mem_append.mpr ⟨?_, ?_⟩
  · rw [forall_mem_flatMap]
    exact hparams.forall (ParamPhrase.children hΛ)
  · cases hbody with
    | signature hallowed hleft hright => exact List.forall_mem_nil _
    | block h =>
      rw [Option.toList_some, List.flatMap_singleton]
      exact h.children hΛ

/-! ### Control flow -/

lemma ConditionalPhrase.everywhere {e : Expr} (h : ConditionalPhrase Λ ts e) : e.Everywhere P := by
  have hform := hΛ.conditional h
  refine Expr.everywhere_iff.mpr ⟨hform, ?_⟩
  induction h with
  | alone hkeyword hcondition hconsequence =>
    refine List.forall_mem_cons.mpr ⟨hΛ.expr hcondition, ?_⟩
    rw [Option.toList_none, List.append_nil]
    exact hconsequence.children hΛ
  | otherwise hkeyword hcondition hconsequence hother halternative =>
    refine List.forall_mem_cons.mpr ⟨hΛ.expr hcondition, ?_⟩
    refine List.forall_mem_append.mpr ⟨hconsequence.children hΛ, ?_⟩
    exact List.forall_mem_singleton.mpr (halternative.everywhere hΛ)
  | chained hkeyword hcondition hconsequence hother hnested ih =>
    refine List.forall_mem_cons.mpr ⟨hΛ.expr hcondition, ?_⟩
    refine List.forall_mem_append.mpr ⟨hconsequence.children hΛ, ?_⟩
    have hinner := hΛ.conditional hnested
    exact List.forall_mem_singleton.mpr (Expr.everywhere_iff.mpr ⟨hinner, ih hinner⟩)

lemma OrTrue.everywhere {span : Span} {e : Expr} (h : OrTrue Λ span ts e) : e.Everywhere P := by
  cases h with
  | omitted =>
    exact Expr.everywhere_iff.mpr ⟨hΛ.omitted, List.forall_mem_nil _⟩
  | written h => exact hΛ.expr h

lemma ForHeadPhrase.children {span : Span} {head : ForHead Expr}
    (h : ForHeadPhrase Λ span ts head) : ∀ child ∈ head.children, child.Everywhere P := by
  cases h with
  | iterating hinit hbinding hkeyword hiterable =>
    exact List.forall_mem_singleton.mpr (hΛ.expr hiterable)
  | counting hinit hcomma hcondition hcomma' hstep =>
    refine List.forall_mem_cons.mpr ⟨hinit.everywhere hΛ, ?_⟩
    refine List.forall_mem_cons.mpr ⟨hcondition.everywhere hΛ, ?_⟩
    exact List.forall_mem_singleton.mpr (hstep.everywhere hΛ)

lemma EntryPhrase.everywhere {entry : Expr × Expr} (h : EntryPhrase Λ ts entry) :
    entry.1.Everywhere P ∧ entry.2.Everywhere P := by
  obtain ⟨hkey, hcolon, hvalue⟩ := h
  exact ⟨hΛ.expr hkey, hΛ.expr hvalue⟩

lemma ArgumentPhrase.everywhere {arg : Argument Expr} (h : ArgumentPhrase Λ ts arg) :
    arg.value.Everywhere P := by
  cases h with
  | plain h => exact hΛ.expr h
  | named hname hcolon h => exact hΛ.expr h

/-! ### Members -/

lemma ItemPhrase.children {body : BodyKind} {scope : Scope} {visibility : Visibility}
    {members added : MemberList Expr} (h : ItemPhrase Λ body scope visibility members ts added)
    (hmembers : ∀ child ∈ members.children, child.Everywhere P) :
    ∀ child ∈ added.children, child.Everywhere P := by
  simp only [MemberList.children, List.forall_mem_append, forall_mem_flatMap] at hmembers ⊢
  obtain ⟨⟨hmethods, hproperties⟩, hoperators⟩ := hmembers
  cases h with
  | method hkeyword hname h =>
    refine ⟨⟨List.forall_mem_append.mpr ⟨hmethods, ?_⟩, hproperties⟩, hoperators⟩
    exact List.forall_mem_singleton.mpr (h.children hΛ)
  | overload hkeyword h =>
    obtain ⟨htoken, hop, hlead, h, -⟩ := h
    refine ⟨⟨hmethods, hproperties⟩, fun o ho => ?_⟩
    rcases mem_of_mem_insertOverload ho with rfl | ho
    · exact h.children hΛ
    · exact hoperators o ho
  | property h =>
    obtain ⟨hlead, h, -⟩ := h
    refine ⟨⟨hmethods, List.forall_mem_append.mpr ⟨hproperties, ?_⟩⟩, hoperators⟩
    exact List.forall_mem_singleton.mpr (h.children hΛ)

lemma MembersPhrase.children {body : BodyKind} {result : MemberList Expr}
    (h : MembersPhrase Λ body [] .empty ts result) :
    ∀ child ∈ result.children, child.Everywhere P :=
  h.keeps (ItemPhrase.children hΛ) (List.forall_mem_nil _)

/-! ### Openings and continuations -/

omit hΛ in
lemma children_of_withLabel? {e labelled : Expr} {label : String}
    (h : e.withLabel? label = some labelled) : labelled.form.children = e.form.children := by
  obtain ⟨form, span⟩ := e
  cases form with
  | block b => cases h; rfl
  | endlessLoop body label => cases h; rfl
  | forLoop head body label => cases h; rfl
  | _ => cases h

lemma Opened.children {opening : Opening} {form : Form Expr} (h : Opened Λ opening ts form) :
    ∀ child ∈ form.children, child.Everywhere P := by
  cases h with
  | identifier => exact List.forall_mem_nil _
  | unary h => exact List.forall_mem_singleton.mpr (hΛ.expr h)
  | literal htoken h => exact hΛ.literal htoken h
  | block h => exact h.children hΛ
  | group h hright => exact List.forall_mem_singleton.mpr (hΛ.expr h)
  | conditional h => exact (Expr.everywhere_iff.mp (h.everywhere hΛ)).2
  | typeCast htype hright hvalue => exact List.forall_mem_singleton.mpr (hΛ.expr hvalue)
  | declaration h => exact h.children hΛ
  | whileLoop hcondition hbody =>
    exact List.forall_mem_cons.mpr ⟨hΛ.expr hcondition, hbody.children hΛ⟩
  | forLoop hhead hbody =>
    exact List.forall_mem_append.mpr ⟨hhead.children hΛ, hbody.children hΛ⟩
  | endlessLoop h => exact h.children hΛ
  | lambda hparams hbody =>
    refine List.forall_mem_append.mpr ⟨hparams.children hΛ, ?_⟩
    exact List.forall_mem_singleton.mpr (hΛ.expr hbody)
  | function hname h => exact h.children hΛ
  | classDef hname hparams hleft hmembers => exact hmembers.children hΛ
  | traitDef hlead hname hparams hleft hmembers => exact hmembers.children hΛ
  | enumDef hname hparams hleft hvariants => exact List.forall_mem_nil _
  | importing h => exact List.forall_mem_nil _
  | returning h => exact h.forall hΛ.expr
  | breaking hlabel hvalue => exact hvalue.forall hΛ.expr
  | continuing h => exact List.forall_mem_nil _
  | label hcolon h hlabelled =>
    rw [children_of_withLabel? hlabelled]
    exact (Expr.everywhere_iff.mp (hΛ.expr h)).2
  | list h => exact h.forall hΛ.expr
  | binding hname h => exact List.forall_mem_singleton.mpr (hΛ.expr h)
  | mapping hleft h =>
    have hentries := h.forall (EntryPhrase.everywhere hΛ)
    refine List.forall_mem_append.mpr ⟨?_, ?_⟩ <;> refine List.forall_mem_map.mpr fun entry he => ?_
    · exact (hentries entry he).1
    · exact (hentries entry he).2

lemma Continued.children {left : Expr} {continuation : Continuation} {form : Form Expr}
    (h : Continued Λ left continuation ts form) (hleft : left.Everywhere P) :
    ∀ child ∈ form.children, child.Everywhere P := by
  cases h with
  | binary h => exact List.forall_mem_cons.mpr ⟨hleft, List.forall_mem_singleton.mpr (hΛ.expr h)⟩
  | post => exact List.forall_mem_singleton.mpr hleft
  | property hname => exact List.forall_mem_singleton.mpr hleft
  | call h =>
    refine List.forall_mem_cons.mpr ⟨hleft, List.forall_mem_map.mpr ?_⟩
    exact h.forall (ArgumentPhrase.everywhere hΛ)
  | element h => exact List.forall_mem_cons.mpr ⟨hleft, h.forall hΛ.expr⟩
  | statement h => exact List.forall_mem_cons.mpr ⟨hleft, h.forall hΛ.expr⟩
  | assignment h hassignable =>
    exact List.forall_mem_cons.mpr ⟨hleft, List.forall_mem_singleton.mpr (hΛ.expr h)⟩

end Phrases

/-! ## Expressions in template strings -/

/-- The expressions of a template string are read by parsers of their own. A property that holds of
what such a parser gives, if it holds of the expressions in the template strings that are its
tokens, holds of all expressions in template strings. -/
lemma embedded_induction {P : Expr → Prop}
    (step : ∀ depth, (∀ {r t r' parts e},
        Scan.tokenHere (embeddedReader .standard depth) r = .ok t r' → t.value = .template parts →
          .embedded e ∈ parts → P e) →
      ∀ {r e s}, Production.expression .lowest
        ⟨.standard, embeddedReader .standard depth, r.cursor.rest.length + 2⟩ (.ofReader r) =
          .ok e s → P e)
    (depth : Nat) {r r' : Reader} {t : Token} {parts : List (TemplatePart Expr)} {e : Expr}
    (h : Scan.tokenHere (embeddedReader .standard depth) r = .ok t r')
    (hvalue : t.value = .template parts) (he : .embedded e ∈ parts) : P e := by
  induction depth generalizing r r' t parts e with
  | zero =>
    obtain ⟨r₀, r₁, -, hread, -⟩ :=
      Scan.tokenHere_embedded (forwardWithin_embeddedReader 0) h hvalue he
    rw [embeddedReader, Scan.embeddedExpression, Scan.cursor_bind] at hread
    cases hread
  | succ depth ih =>
    obtain ⟨r₀, r₁, -, hread, -⟩ :=
      Scan.tokenHere_embedded (forwardWithin_embeddedReader (depth + 1)) h hvalue he
    obtain ⟨r₂, rest, hread, -, -⟩ := Scan.embeddedExpression_eq_ok hread
    obtain ⟨s, hrun, -⟩ := readEmbedded_eq_ok hread
    exact step depth ih hrun

/-- A property of expressions holds of the trees of sources, if it holds of what is read wherever it
holds of the expressions in template strings. -/
lemma parse_induction {P : Expr → Prop}
    (h : ∀ K : Setting, (∀ {t parts e}, K.Found t → t.value = .template parts →
        .embedded e ∈ parts → P e) →
      ∃ Λ : Language, Λ.Closed K ∧ ∀ {ts e}, Phrase Λ .lowest ts e → P e)
    {source : String} {e : Expr} (hparse : (parse source).result = .ok (some e)) : P e := by
  have hembedded (depth : Nat) : ∀ {r r' t parts e},
      Scan.tokenHere (embeddedReader .standard depth) r = .ok t r' → t.value = .template parts →
        .embedded e ∈ parts → P e := by
    refine embedded_induction ?_ depth
    intro depth ih r e s hrun
    obtain ⟨Λ, hΛ, hphrase⟩ := h (.inTemplate depth r) (by
      rintro t parts e ⟨_, _, ht⟩
      exact ih ht)
    obtain ⟨ts, -, he⟩ := (Setting.Reads.expression hΛ).eq_ok Setting.at_start hrun
    exact hphrase he
  obtain ⟨Λ, hΛ, hphrase⟩ := h (.ofText source.toList) (by
    rintro t parts e ⟨_, _, ht⟩
    exact hembedded _ ht)
  obtain ⟨ts, -, -, he⟩ := parse_eq_ok hΛ hparse
  cases he with
  | expr he => exact hphrase he

end FrontEnd
