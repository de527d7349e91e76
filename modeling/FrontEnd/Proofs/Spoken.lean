import FrontEnd.Proofs.Phrases

/-!
# The spoken language

Phrases grow with the language that they nest through. So there is a least language that is closed,
whatever the scanner finds: it holds of what can be put together from tokens by phrases, and of
nothing else.
-/

namespace FrontEnd

open Production

/-- A language holds of no more than another. -/
structure Language.Included (Λ Λ' : Language) : Prop where
  token : ∀ {t : Token}, Λ.token t → Λ'.token t
  expr : ∀ {least ts e}, Λ.expr least ts e → Λ'.expr least ts e
  type : ∀ {ts type}, Λ.type ts type → Λ'.type ts type
  pattern : ∀ {ts pattern}, Λ.pattern ts pattern → Λ'.pattern ts pattern
  path : ∀ {ts path}, Λ.path ts path → Λ'.path ts path

/-! ## Lists and optional parts -/

section Parts

variable {α : Type} {R R' : List Token → α → Prop} (hR : ∀ {ts a}, R ts a → R' ts a)
variable {left close lead : TokenKind} {ts : List Token}
include hR

lemma Listed.mono {as : List α} (h : Listed close R ts as) : Listed close R' ts as := by
  induction h with
  | done hright => exact .done hright
  | last ha hright => exact .last (hR ha) hright
  | more ha hcomma h ih => exact .more (hR ha) hcomma ih

lemma Bracketed.mono {as : List α} (h : Bracketed left close R ts as) :
    Bracketed left close R' ts as := by
  cases h with
  | absent => exact .absent
  | present hleft h => exact .present hleft (h.mono hR)

lemma Optionally.mono {o : Option α} (h : Optionally R ts o) : Optionally R' ts o := by
  cases h with
  | absent => exact .absent
  | present h => exact .present (hR h)

lemma Announced.mono {o : Option α} (h : Announced lead R ts o) : Announced lead R' ts o := by
  cases h with
  | absent => exact .absent
  | present ht h => exact .present ht (hR h)

end Parts

section Phrases

variable {Λ Λ' : Language} (hle : Λ.Included Λ') {ts : List Token}
include hle

/-! ## Types, patterns and import paths -/

lemma TypeArguments.mono {types : List TypeExpr} (h : TypeArguments Λ ts types) :
    TypeArguments Λ' ts types := by
  cases h with
  | absent => exact .absent
  | present hleft h hne => exact .present hleft (h.mono hle.type) hne

lemma TypePhrase.mono {type : TypeExpr} (h : TypePhrase Λ ts type) : TypePhrase Λ' ts type := by
  obtain ⟨hname, h⟩ := h
  exact .mk hname (h.mono hle)

lemma Traits.mono {types : List TypeExpr} (h : Traits Λ ts types) : Traits Λ' ts types := by
  cases h with
  | single h => exact .single (hle.type h)
  | several hleft h hne => exact .several hleft (h.mono hle.type) hne

lemma TypeParamPhrase.mono {param : TypeParam} (h : TypeParamPhrase Λ ts param) :
    TypeParamPhrase Λ' ts param := by
  obtain ⟨hname, hextending, himplementing⟩ := h
  exact .mk hname (hextending.mono hle.type) (himplementing.mono (Traits.mono hle))

lemma TypeParams.mono {params : List TypeParam} (h : TypeParams Λ ts params) :
    TypeParams Λ' ts params :=
  Bracketed.mono (TypeParamPhrase.mono hle) h

lemma FieldPhrase.mono {field : Field Pattern} (h : FieldPhrase Λ ts field) :
    FieldPhrase Λ' ts field := by
  obtain ⟨hname, h⟩ := h
  exact .mk hname (h.mono hle.pattern)

lemma PatternPhrase.mono {pattern : Pattern} (h : PatternPhrase Λ ts pattern) :
    PatternPhrase Λ' ts pattern := by
  cases h with
  | name hname => exact .name hname
  | named hsign hname h => exact .named hsign hname (hle.pattern h)
  | list hleft h => exact .list hleft (h.mono hle.pattern)
  | object hleft h => exact .object hleft (h.mono (FieldPhrase.mono hle))

lemma PathPhrase.mono {path : ImportSection} (h : PathPhrase Λ ts path) :
    PathPhrase Λ' ts path := by
  cases h with
  | terminal hname => exact .terminal hname
  | renamed hname hkeyword hlocal => exact .renamed hname hkeyword hlocal
  | element hname hdot h => exact .element hname hdot (hle.path h)
  | list hleft h hne => exact .list hleft (h.mono hle.path) hne

/-! ## Blocks, declarations and functions -/

lemma BlockPhrase.mono {block : Block Expr} (h : BlockPhrase Λ ts block) :
    BlockPhrase Λ' ts block := by
  obtain ⟨hleft, h, hright⟩ := h
  exact .mk hleft (h.mono hle.expr) hright

lemma DeclarationPhrase.mono {kind : DeclKind} {declared : Declaration Expr}
    (h : DeclarationPhrase Λ kind ts declared) : DeclarationPhrase Λ' kind ts declared := by
  obtain ⟨hpattern, htype, hvalue, hvalued⟩ := h
  exact .mk (hle.pattern hpattern) (htype.mono hle.type) (hvalue.mono hle.expr) hvalued

lemma ParamPhrase.mono {param : Param Expr} (h : ParamPhrase Λ ts param) :
    ParamPhrase Λ' ts param := by
  obtain ⟨hpattern, hcolon, htype, hvalue⟩ := h
  exact .mk (hle.pattern hpattern) hcolon (hle.type htype) (hvalue.mono hle.expr)

lemma LambdaParamPhrase.mono {param : Param Expr} (h : LambdaParamPhrase Λ ts param) :
    LambdaParamPhrase Λ' ts param := by
  obtain ⟨hpattern, htype, hvalue⟩ := h
  exact .mk (hle.pattern hpattern) (htype.mono hle.type) (hvalue.mono hle.expr)

lemma LambdaParams.mono {params : List (Param Expr)} (h : LambdaParams Λ ts params) :
    LambdaParams Λ' ts params := by
  cases h with
  | absent hsign => exact .absent hsign
  | present hsign h => exact .present hsign (h.mono (LambdaParamPhrase.mono hle))

lemma BodyPhrase.mono {allowSignature : Bool} {body : Option (Block Expr)}
    (h : BodyPhrase Λ allowSignature ts body) : BodyPhrase Λ' allowSignature ts body := by
  cases h with
  | signature hallowed hleft hright => exact .signature hallowed hleft hright
  | block h => exact .block (h.mono hle)

lemma FunctionPhrase.mono {name : Ident} {allowSignature : Bool} {function : FunctionDef Expr}
    (h : FunctionPhrase Λ name allowSignature ts function) :
    FunctionPhrase Λ' name allowSignature ts function := by
  obtain ⟨htypeParams, hleft, hparams, hreturned, hbody⟩ := h
  exact .mk (htypeParams.mono hle) hleft (hparams.mono (ParamPhrase.mono hle))
    (hreturned.mono hle.type) (hbody.mono hle)

/-! ## Control flow and literals -/

lemma ConditionalPhrase.mono {e : Expr} (h : ConditionalPhrase Λ ts e) :
    ConditionalPhrase Λ' ts e := by
  induction h with
  | alone hkeyword hcondition hconsequence =>
    exact .alone hkeyword (hle.expr hcondition) (hconsequence.mono hle)
  | otherwise hkeyword hcondition hconsequence hother halternative =>
    exact .otherwise hkeyword (hle.expr hcondition) (hconsequence.mono hle) hother
      (halternative.mono hle)
  | chained hkeyword hcondition hconsequence hother hnested ih =>
    exact .chained hkeyword (hle.expr hcondition) (hconsequence.mono hle) hother ih

lemma OrTrue.mono {span : Span} {e : Expr} (h : OrTrue Λ span ts e) : OrTrue Λ' span ts e := by
  cases h with
  | omitted => exact .omitted
  | written h => exact .written (hle.expr h)

lemma ForHeadPhrase.mono {span : Span} {head : ForHead Expr} (h : ForHeadPhrase Λ span ts head) :
    ForHeadPhrase Λ' span ts head := by
  cases h with
  | iterating hinit hbinding hkeyword hiterable =>
    exact .iterating (hinit.mono hle) hbinding hkeyword (hle.expr hiterable)
  | counting hinit hcomma hcondition hcomma' hstep =>
    exact .counting (hinit.mono hle) hcomma (hcondition.mono hle) hcomma' (hstep.mono hle)

lemma EntryPhrase.mono {entry : Expr × Expr} (h : EntryPhrase Λ ts entry) :
    EntryPhrase Λ' ts entry := by
  obtain ⟨hkey, hcolon, hvalue⟩ := h
  exact .mk (hle.expr hkey) hcolon (hle.expr hvalue)

lemma ArgumentPhrase.mono {arg : Argument Expr} (h : ArgumentPhrase Λ ts arg) :
    ArgumentPhrase Λ' ts arg := by
  cases h with
  | plain h => exact .plain (hle.expr h)
  | named hname hcolon h => exact .named hname hcolon (hle.expr h)

lemma VariantPhrase.mono {variant : Variant} (h : VariantPhrase Λ ts variant) :
    VariantPhrase Λ' ts variant := by
  obtain ⟨hname, h⟩ := h
  exact .mk hname (h.mono hle.type)

/-! ## Members of classes and traits -/

section Members

variable {body : BodyKind} {blocks : OpenBlocks} {members : MemberList Expr}

lemma OverloadPhrase.mono {allowSignature : Bool} {overloaded : Overload Expr}
    (h : OverloadPhrase Λ allowSignature ts overloaded) :
    OverloadPhrase Λ' allowSignature ts overloaded := by
  obtain ⟨htoken, hop, hlead, h, harity⟩ := h
  exact .mk (hle.token htoken) hop hlead (h.mono hle) harity

lemma PropertyPhrase.mono {declared : Declaration Expr}
    (h : PropertyPhrase Λ body members ts declared) :
    PropertyPhrase Λ' body members ts declared := by
  obtain ⟨hlead, h, hproblem⟩ := h
  exact .mk hlead (h.mono hle) hproblem

lemma ItemPhrase.mono {scope : Scope} {visibility : Visibility} {added : MemberList Expr}
    (h : ItemPhrase Λ body scope visibility members ts added) :
    ItemPhrase Λ' body scope visibility members ts added := by
  cases h with
  | method hkeyword hname h => exact .method hkeyword hname (h.mono hle)
  | overload hkeyword h => exact .overload hkeyword (h.mono hle)
  | property h => exact .property (h.mono hle)

lemma MemberPhrase.mono {modified : Modified (MemberList Expr)}
    (h : MemberPhrase Λ body blocks members ts modified) :
    MemberPhrase Λ' body blocks members ts modified := by
  cases h with
  | privacyBlock h => exact .privacyBlock h
  | staticBlock hprivacy h => exact .staticBlock hprivacy h
  | item hprivacy hstatic h => exact .item hprivacy hstatic (h.mono hle)

lemma MembersPhrase.mono {result : MemberList Expr}
    (h : MembersPhrase Λ body blocks members ts result) :
    MembersPhrase Λ' body blocks members ts result := by
  induction h with
  | done hright => exact .done hright
  | leave hright hsep h ih => exact .leave hright hsep ih
  | enter hmember h ih => exact .enter (hmember.mono hle) ih
  | member hmember hsep h ih => exact .member (hmember.mono hle) hsep ih

end Members

/-! ## Expressions -/

lemma Opened.mono {opening : Opening} {form : Form Expr} (h : Opened Λ opening ts form) :
    Opened Λ' opening ts form := by
  cases h with
  | identifier => exact .identifier
  | unary h => exact .unary (hle.expr h)
  | literal ht h => exact .literal (hle.token ht) h
  | block h => exact .block (h.mono hle)
  | group h hright => exact .group (hle.expr h) hright
  | conditional h => exact .conditional (h.mono hle)
  | typeCast htype hright hvalue => exact .typeCast (hle.type htype) hright (hle.expr hvalue)
  | declaration h => exact .declaration (h.mono hle)
  | whileLoop hcondition hbody => exact .whileLoop (hle.expr hcondition) (hbody.mono hle)
  | forLoop hhead hbody => exact .forLoop (hhead.mono hle) (hbody.mono hle)
  | endlessLoop h => exact .endlessLoop (h.mono hle)
  | lambda hparams hbody => exact .lambda (hparams.mono hle) (hle.expr hbody)
  | function hname h => exact .function hname (h.mono hle)
  | classDef hname hparams hleft hmembers =>
    exact .classDef hname (hparams.mono hle) hleft (hmembers.mono hle)
  | traitDef hlead hname hparams hleft hmembers =>
    exact .traitDef hlead hname (hparams.mono hle) hleft (hmembers.mono hle)
  | enumDef hname hparams hleft hvariants =>
    exact .enumDef hname (hparams.mono hle) hleft (hvariants.mono (VariantPhrase.mono hle))
  | importing h => exact .importing (hle.path h)
  | returning h => exact .returning (h.mono hle.expr)
  | breaking hlabel hvalue hfresh => exact .breaking hlabel (hvalue.mono hle.expr) hfresh
  | continuing h => exact .continuing h
  | label hcolon h hlabelled => exact .label hcolon (hle.expr h) hlabelled
  | list h => exact .list (h.mono hle.expr)
  | binding hname h => exact .binding hname (hle.expr h)
  | mapping hleft h => exact .mapping hleft (h.mono (EntryPhrase.mono hle))

lemma Continued.mono {left : Expr} {continuation : Continuation} {form : Form Expr}
    (h : Continued Λ left continuation ts form) : Continued Λ' left continuation ts form := by
  cases h with
  | binary h => exact .binary (hle.expr h)
  | post => exact .post
  | property hname => exact .property hname
  | call h => exact .call (h.mono (ArgumentPhrase.mono hle))
  | element h => exact .element (h.mono hle.expr)
  | statement h => exact .statement (h.mono hle.expr)
  | assignment h hleft => exact .assignment (hle.expr h) hleft

lemma Phrase.mono {least : Precedence} {e : Expr} (h : Phrase Λ least ts e) :
    Phrase Λ' least ts e := by
  induction h with
  | opened hopening haccepts h => exact .opened hopening haccepts (h.mono hle)
  | continued hleft hcontinuation hlevel hgrip h ih =>
    exact .continued ih hcontinuation hlevel hgrip (h.mono hle)

end Phrases

/-! ## The least closed language -/

/-- What every language speaks that is closed whatever the scanner finds. -/
def Language.spoken : Language where
  token t := ∀ Λ : Language, (∀ K, Λ.Closed K) → Λ.token t
  expr least ts e := ∀ Λ : Language, (∀ K, Λ.Closed K) → Λ.expr least ts e
  type ts type := ∀ Λ : Language, (∀ K, Λ.Closed K) → Λ.type ts type
  pattern ts pattern := ∀ Λ : Language, (∀ K, Λ.Closed K) → Λ.pattern ts pattern
  path ts path := ∀ Λ : Language, (∀ K, Λ.Closed K) → Λ.path ts path

lemma Language.spoken_included {Λ : Language} (hΛ : ∀ K, Λ.Closed K) :
    Language.spoken.Included Λ :=
  ⟨fun h => h Λ hΛ, fun h => h Λ hΛ, fun h => h Λ hΛ, fun h => h Λ hΛ, fun h => h Λ hΛ⟩

lemma Language.closed_spoken (K : Setting) : Language.spoken.Closed K where
  token h _ hΛ := (hΛ K).token h
  expr h _ hΛ := (hΛ K).expr (h.mono (spoken_included hΛ))
  type h _ hΛ := (hΛ K).type (h.mono (spoken_included hΛ))
  pattern h _ hΛ := (hΛ K).pattern (h.mono (spoken_included hΛ))
  path h _ hΛ := (hΛ K).path (h.mono (spoken_included hΛ))

end FrontEnd
