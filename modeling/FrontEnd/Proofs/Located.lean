import FrontEnd.Proofs.Spoken
import FrontEnd.Proofs.Subtrees

/-!
# Where the nodes of a tree are written

A node that occurs in a tree is spelled by tokens that stand side by side among those of the tree,
or it lies in the template string that one of these tokens is. Only blocks, conditions and truth
values may be made without tokens that spell them. In a source that is parsed each other node is
spelled by tokens that the scanner finds one after another there.
-/

namespace FrontEnd

open Production

/-- The body of a class or trait with its members. -/
def Form.body? {ε : Type} : Form ε → Option (BodyKind × MemberList ε)
  | .classDef definition => some (.ofClass, definition.members)
  | .traitDef definition => some (.ofTrait, definition.members)
  | _ => none

/-- The forms that only phrases have. Blocks and conditions also stand for those behind `else`, and
`true` for what is left out of the head of a loop. -/
def Form.isWritten {ε : Type} : Form ε → Bool
  | .block _ | .conditional .. | .literal (.bool _) => false
  | _ => true

lemma Form.isWritten_of_body? {ε : Type} {form : Form ε} {body : BodyKind × MemberList ε}
    (h : form.body? = some body) : form.isWritten = true := by
  cases form <;> first | rfl | cases h

/-- A node that occurs in a tree is a phrase of neighbouring tokens, or occurs in a template
string. -/
def Located (ts : List Token) (e : Expr) : Prop :=
  ∀ node : Expr, node.Occurs e → node.form.isWritten = true →
    (∃ us least, us <:+: ts ∧ Phrase .spoken least us node) ∨
      ∃ t ∈ ts, ∃ parts inner, t.value = .template parts ∧ .embedded inner ∈ parts ∧
        node.Occurs inner

/-- The language of expressions whose nodes are located. -/
def Language.located : Language where
  token := Language.spoken.token
  expr least ts e := Language.spoken.expr least ts e ∧ Located ts e
  type := Language.spoken.type
  pattern := Language.spoken.pattern
  path := Language.spoken.path

lemma Language.located_included : Language.located.Included .spoken :=
  ⟨id, And.left, id, id, id⟩

namespace Located

variable {ts us : List Token} {e : Expr}

lemma mono (h : Located us e) (hus : us <:+: ts) : Located ts e := by
  intro node hnode hwritten
  rcases h node hnode hwritten with ⟨vs, least, hvs, hphrase⟩ | ⟨t, ht, hembedded⟩
  · exact .inl ⟨vs, least, hvs.trans hus, hphrase⟩
  · exact .inr ⟨t, hus.subset ht, hembedded⟩

lemma mk (hroot : e.form.isWritten = true → ∃ least, Phrase .spoken least ts e)
    (hchildren : ∀ child ∈ e.form.children, Located ts child) : Located ts e := by
  rintro node (_ | ⟨hchild, hnode⟩) hwritten
  · obtain ⟨least, hphrase⟩ := hroot hwritten
    exact .inl ⟨ts, least, List.infix_refl ts, hphrase⟩
  · exact hchildren _ hchild node hnode hwritten

lemma child (h : Located ts e) : ∀ child ∈ e.form.children, Located ts child :=
  fun _ hchild node hnode => h node (.inside hchild hnode)

lemma of_children (hroot : e.form.isWritten = false)
    (hchildren : ∀ child ∈ e.form.children, Located ts child) : Located ts e :=
  mk (fun h => by rw [hroot] at h; cases h) hchildren

end Located

/-! ## Neighbouring tokens -/

section Infix

variable {t : Token} {ts xs ys : List Token}

lemma infix_of_cons (h : t :: xs <:+: ts) : xs <:+: ts :=
  (List.suffix_cons t xs).isInfix.trans h

lemma infix_of_append_left (h : xs ++ ys <:+: ts) : xs <:+: ts :=
  (List.prefix_append xs ys).isInfix.trans h

lemma infix_of_append_right (h : xs ++ ys <:+: ts) : ys <:+: ts :=
  (List.suffix_append xs ys).isInfix.trans h

end Infix

/-! ## Lists and optional parts -/

section Parts

variable {α : Type} {R : List Token → α → Prop} {p : α → Prop} {kind : TokenKind}
variable {ts us : List Token}

lemma Listed.forall_part {as : List α} (h : Listed kind R us as) (hus : us <:+: ts)
    (hR : ∀ {vs a}, vs <:+: ts → R vs a → p a) : ∀ a ∈ as, p a := by
  induction h with
  | done hright => exact List.forall_mem_nil _
  | last ha hright => exact List.forall_mem_singleton.mpr (hR (infix_of_append_left hus) ha)
  | more ha hcomma h ih =>
    have hrest := ih (infix_of_cons (infix_of_append_right hus))
    exact List.forall_mem_cons.mpr ⟨hR (infix_of_append_left hus) ha, hrest⟩

lemma Optionally.forall_part {o : Option α} (h : Optionally R us o) (hus : us <:+: ts)
    (hR : ∀ {vs a}, vs <:+: ts → R vs a → p a) : ∀ a ∈ o.toList, p a := by
  cases h with
  | absent => exact List.forall_mem_nil _
  | present h => exact List.forall_mem_singleton.mpr (hR hus h)

lemma Announced.forall_part {o : Option α} (h : Announced kind R us o) (hus : us <:+: ts)
    (hR : ∀ {vs a}, vs <:+: ts → R vs a → p a) : ∀ a ∈ o.toList, p a := by
  cases h with
  | absent => exact List.forall_mem_nil _
  | present ht h => exact List.forall_mem_singleton.mpr (hR (infix_of_cons hus) h)

end Parts

/-! ## Parts of phrases

The tokens of a phrase stand side by side among the tokens `ts`, and with them those of its parts.
-/

section Phrases

variable {ts us : List Token} {least : Precedence} {e : Expr} {param : Param Expr}
variable {entry : Expr × Expr} {arg : Argument Expr} (hus : us <:+: ts)
include hus

lemma Located.part (h : Language.located.expr least us e) : Located ts e :=
  h.2.mono hus

/-! ### Blocks and declarations -/

lemma BlockPhrase.located {b : Block Expr} (h : BlockPhrase .located us b) :
    ∀ child ∈ b.children, Located ts child := by
  obtain ⟨hleft, h, hright⟩ := h
  exact h.forall_part (infix_of_append_left (infix_of_cons hus)) Located.part

lemma BlockPhrase.located_expr {b : Block Expr} (h : BlockPhrase .located us b) :
    Located ts (blockExpr b) :=
  .of_children rfl (h.located hus)

lemma DeclarationPhrase.located {kind : DeclKind} {declared : Declaration Expr}
    (h : DeclarationPhrase .located kind us declared) :
    ∀ child ∈ declared.children, Located ts child := by
  obtain ⟨hpattern, htype, hvalue, -⟩ := h
  exact hvalue.forall_part (infix_of_append_right hus) Located.part

lemma ParamPhrase.located (h : ParamPhrase .located us param) :
    ∀ child ∈ param.children, Located ts child := by
  obtain ⟨hpattern, hcolon, htype, hvalue⟩ := h
  exact hvalue.forall_part (infix_of_append_right hus) Located.part

lemma LambdaParamPhrase.located (h : LambdaParamPhrase .located us param) :
    ∀ child ∈ param.children, Located ts child := by
  obtain ⟨hpattern, htype, hvalue⟩ := h
  exact hvalue.forall_part (infix_of_append_right hus) Located.part

lemma LambdaParams.located {params : List (Param Expr)} (h : LambdaParams .located us params) :
    ∀ child ∈ params.flatMap Param.children, Located ts child := by
  rw [forall_mem_flatMap]
  cases h with
  | absent hsign => exact List.forall_mem_nil _
  | present hsign h => exact h.forall_part (infix_of_cons hus) LambdaParamPhrase.located

lemma FunctionPhrase.located {name : Ident} {allowSignature : Bool} {function : FunctionDef Expr}
    (h : FunctionPhrase .located name allowSignature us function) :
    ∀ child ∈ function.children, Located ts child := by
  obtain ⟨htypeParams, hleft, hparams, hreturned, hbody⟩ := h
  refine List.forall_mem_append.mpr ⟨?_, ?_⟩
  · rw [forall_mem_flatMap]
    have hfront := infix_of_append_left (infix_of_append_left hus)
    exact hparams.forall_part (infix_of_cons (infix_of_append_right hfront)) ParamPhrase.located
  · cases hbody with
    | signature hallowed hleft hright => exact List.forall_mem_nil _
    | block h =>
      rw [Option.toList_some, List.flatMap_singleton]
      exact h.located (infix_of_append_right hus)

/-! ### Control flow -/

lemma ConditionalPhrase.located (h : ConditionalPhrase .located us e) : Located ts e := by
  induction h with
  | alone hkeyword hcondition hconsequence =>
    refine .of_children rfl (List.forall_mem_cons.mpr ⟨?_, ?_⟩)
    · exact .part (infix_of_append_left (infix_of_cons hus)) hcondition
    · rw [Option.toList_none, List.append_nil]
      exact hconsequence.located (infix_of_append_right (infix_of_cons hus))
  | otherwise hkeyword hcondition hconsequence hother halternative =>
    have hfront := infix_of_append_left (infix_of_cons hus)
    refine .of_children rfl (List.forall_mem_cons.mpr ⟨?_, List.forall_mem_append.mpr ⟨?_, ?_⟩⟩)
    · exact .part (infix_of_append_left hfront) hcondition
    · exact hconsequence.located (infix_of_append_right hfront)
    · have hback := infix_of_cons (infix_of_append_right (infix_of_cons hus))
      exact List.forall_mem_singleton.mpr (halternative.located_expr hback)
  | chained hkeyword hcondition hconsequence hother hnested ih =>
    have hfront := infix_of_append_left (infix_of_cons hus)
    refine .of_children rfl (List.forall_mem_cons.mpr ⟨?_, List.forall_mem_append.mpr ⟨?_, ?_⟩⟩)
    · exact .part (infix_of_append_left hfront) hcondition
    · exact hconsequence.located (infix_of_append_right hfront)
    · have hback := infix_of_cons (infix_of_append_right (infix_of_cons hus))
      exact List.forall_mem_singleton.mpr (ih hback)

lemma OrTrue.located {span : Span} (h : OrTrue .located span us e) : Located ts e := by
  cases h with
  | omitted => exact .of_children rfl (List.forall_mem_nil _)
  | written h => exact .part hus h

lemma ForHeadPhrase.located {span : Span} {head : ForHead Expr}
    (h : ForHeadPhrase .located span us head) : ∀ child ∈ head.children, Located ts child := by
  cases h with
  | iterating hinit hbinding hkeyword hiterable =>
    have hback := infix_of_cons (infix_of_append_right hus)
    exact List.forall_mem_singleton.mpr (.part hback hiterable)
  | counting hinit hcomma hcondition hcomma' hstep =>
    have hfront := infix_of_append_left hus
    have hback := infix_of_cons (infix_of_append_right hus)
    refine List.forall_mem_cons.mpr ⟨hinit.located (infix_of_append_left hfront), ?_⟩
    refine List.forall_mem_cons.mpr
      ⟨hcondition.located (infix_of_cons (infix_of_append_right hfront)), ?_⟩
    exact List.forall_mem_singleton.mpr (hstep.located hback)

lemma EntryPhrase.located (h : EntryPhrase .located us entry) :
    Located ts entry.1 ∧ Located ts entry.2 := by
  obtain ⟨hkey, hcolon, hvalue⟩ := h
  exact ⟨.part (infix_of_append_left hus) hkey,
    .part (infix_of_cons (infix_of_append_right hus)) hvalue⟩

lemma ArgumentPhrase.located (h : ArgumentPhrase .located us arg) : Located ts arg.value := by
  cases h with
  | plain h => exact .part hus h
  | named hname hcolon h => exact .part (infix_of_cons (infix_of_cons hus)) h

/-! ### Members -/

lemma ItemPhrase.located {body : BodyKind} {scope : Scope} {visibility : Visibility}
    {members added : MemberList Expr}
    (h : ItemPhrase .located body scope visibility members us added)
    (hmembers : ∀ child ∈ members.children, Located ts child) :
    ∀ child ∈ added.children, Located ts child := by
  simp only [MemberList.children, List.forall_mem_append, forall_mem_flatMap] at hmembers ⊢
  obtain ⟨⟨hmethods, hproperties⟩, hoperators⟩ := hmembers
  cases h with
  | method hkeyword hname h =>
    refine ⟨⟨List.forall_mem_append.mpr ⟨hmethods, ?_⟩, hproperties⟩, hoperators⟩
    exact List.forall_mem_singleton.mpr (h.located (infix_of_cons (infix_of_cons hus)))
  | overload hkeyword h =>
    obtain ⟨htoken, hop, hlead, h, -⟩ := h
    refine ⟨⟨hmethods, hproperties⟩, fun o ho => ?_⟩
    rcases mem_of_mem_insertOverload ho with rfl | ho
    · exact h.located (infix_of_append_right (infix_of_cons (infix_of_cons hus)))
    · exact hoperators o ho
  | property h =>
    obtain ⟨hlead, h, -⟩ := h
    refine ⟨⟨hmethods, List.forall_mem_append.mpr ⟨hproperties, ?_⟩⟩, hoperators⟩
    exact List.forall_mem_singleton.mpr (h.located (infix_of_append_right hus))

lemma MembersPhrase.located {body : BodyKind} {blocks : OpenBlocks}
    {members result : MemberList Expr} (h : MembersPhrase .located body blocks members us result)
    (hmembers : ∀ child ∈ members.children, Located ts child) :
    ∀ child ∈ result.children, Located ts child := by
  induction h with
  | done hright => exact hmembers
  | leave hright hsep h ih => exact ih (infix_of_append_right (infix_of_cons hus)) hmembers
  | enter hmember h ih => exact ih (infix_of_append_right hus) hmembers
  | member hmember hsep h ih =>
    have hfront := infix_of_append_left (infix_of_append_left hus)
    cases hmember with
    | item hprivacy hstatic hitem =>
      exact ih (infix_of_append_right hus)
        (hitem.located (infix_of_append_right hfront) hmembers)

/-! ### Expressions -/

lemma Opened.located {opening : Opening} {form : Form Expr}
    (h : Opened .located opening us form) : ∀ child ∈ form.children, Located ts child := by
  cases h with
  | identifier => exact List.forall_mem_nil _
  | unary h => exact List.forall_mem_singleton.mpr (.part (infix_of_cons hus) h)
  | @literal t value htoken h =>
    intro child hchild node hnode _
    obtain ⟨parts, hvalue, hembedded⟩ := Token.mem_template h hchild
    exact .inr ⟨t, hus.subset List.mem_cons_self, parts, child, hvalue, hembedded, hnode⟩
  | block h => exact h.located hus
  | group h hright =>
    exact List.forall_mem_singleton.mpr (.part (infix_of_append_left (infix_of_cons hus)) h)
  | conditional h => exact (h.located hus).child
  | typeCast htype hright hvalue =>
    have hback := infix_of_cons (infix_of_append_right (infix_of_cons hus))
    exact List.forall_mem_singleton.mpr (.part hback hvalue)
  | declaration h => exact h.located (infix_of_cons hus)
  | whileLoop hcondition hbody =>
    have hfront := infix_of_append_left (infix_of_cons hus)
    refine List.forall_mem_cons.mpr ⟨.part hfront hcondition, ?_⟩
    exact hbody.located (infix_of_append_right (infix_of_cons hus))
  | forLoop hhead hbody =>
    refine List.forall_mem_append.mpr
      ⟨hhead.located (infix_of_append_left (infix_of_cons hus)), ?_⟩
    exact hbody.located (infix_of_append_right (infix_of_cons hus))
  | endlessLoop h => exact h.located (infix_of_cons hus)
  | lambda hparams hbody =>
    refine List.forall_mem_append.mpr ⟨hparams.located (infix_of_append_left hus), ?_⟩
    exact List.forall_mem_singleton.mpr (.part (infix_of_append_right hus) hbody)
  | function hname h => exact h.located (infix_of_cons (infix_of_cons hus))
  | classDef hname hparams hleft hmembers =>
    have hback := infix_of_cons (infix_of_append_right (infix_of_cons (infix_of_cons hus)))
    exact hmembers.located hback (List.forall_mem_nil _)
  | traitDef hlead hname hparams hleft hmembers =>
    have hafter := infix_of_cons (infix_of_append_right (infix_of_cons hus))
    exact hmembers.located (infix_of_cons (infix_of_append_right hafter)) (List.forall_mem_nil _)
  | enumDef hname hparams hleft hvariants => exact List.forall_mem_nil _
  | importing h => exact List.forall_mem_nil _
  | returning h => exact h.forall_part (infix_of_cons hus) Located.part
  | breaking hlabel hvalue =>
    exact hvalue.forall_part (infix_of_append_right (infix_of_cons hus)) Located.part
  | continuing h => exact List.forall_mem_nil _
  | label hcolon h hlabelled =>
    rw [children_of_withLabel? hlabelled]
    exact (Located.part (infix_of_cons (infix_of_cons hus)) h).child
  | list h => exact h.forall_part (infix_of_cons hus) Located.part
  | binding hname h =>
    exact List.forall_mem_singleton.mpr (.part (infix_of_cons (infix_of_cons hus)) h)
  | mapping hleft h =>
    have hentries := h.forall_part (infix_of_cons (infix_of_cons hus)) EntryPhrase.located
    refine List.forall_mem_append.mpr ⟨?_, ?_⟩ <;> refine List.forall_mem_map.mpr fun entry he => ?_
    · exact (hentries entry he).1
    · exact (hentries entry he).2

lemma Continued.located {left : Expr} {continuation : Continuation} {form : Form Expr}
    (h : Continued .located left continuation us form) (hleft : Located ts left) :
    ∀ child ∈ form.children, Located ts child := by
  cases h with
  | binary h =>
    refine List.forall_mem_cons.mpr ⟨hleft, ?_⟩
    exact List.forall_mem_singleton.mpr (.part (infix_of_cons hus) h)
  | post => exact List.forall_mem_singleton.mpr hleft
  | property hname => exact List.forall_mem_singleton.mpr hleft
  | call h =>
    refine List.forall_mem_cons.mpr ⟨hleft, List.forall_mem_map.mpr ?_⟩
    exact h.forall_part (infix_of_cons hus) ArgumentPhrase.located
  | element h =>
    exact List.forall_mem_cons.mpr ⟨hleft, h.forall_part (infix_of_cons hus) Located.part⟩
  | statement h =>
    exact List.forall_mem_cons.mpr ⟨hleft, h.forall_part (infix_of_cons hus) Located.part⟩
  | assignment h hassignable =>
    refine List.forall_mem_cons.mpr ⟨hleft, ?_⟩
    exact List.forall_mem_singleton.mpr (.part (infix_of_cons hus) h)

end Phrases

lemma Phrase.located {least : Precedence} {ts : List Token} {e : Expr}
    (h : Phrase .located least ts e) : Located ts e := by
  induction h with
  | opened hopening haccepts h =>
    have hspoken : Phrase .spoken least _ _ :=
      .opened hopening haccepts (h.mono Language.located_included)
    exact .mk (fun _ => ⟨least, hspoken⟩) (h.located (List.infix_refl _))
  | @continued ts left continuation t us form hleft hcontinuation hlevel hgrip h ih =>
    have hspoken := Phrase.continued (hleft.mono Language.located_included) hcontinuation hlevel
      hgrip (h.mono Language.located_included)
    have hfront : ts <:+: ts ++ t :: us := infix_of_append_left (List.infix_refl _)
    have hback : t :: us <:+: ts ++ t :: us := infix_of_append_right (List.infix_refl _)
    exact .mk (fun _ => ⟨least, hspoken⟩) (h.located hback (ih.mono hfront))

lemma Language.closed_located (K : Setting) : Language.located.Closed K where
  token := (closed_spoken K).token
  expr h := ⟨(closed_spoken K).expr (h.mono located_included), h.located⟩
  type h := (closed_spoken K).type (h.mono located_included)
  pattern h := (closed_spoken K).pattern (h.mono located_included)
  path h := (closed_spoken K).path (h.mono located_included)

/-! ## Sources -/

/-- Tokens that the scanner finds one after another in a source, or in a template string of it. -/
def Consecutive (source : List Char) (ts : List Token) : Prop :=
  ∃ depth c run ws c', c.Reads source ∧ Scan.Run (embeddedReader .standard depth) c run ws c' ∧
    run.map Lexed.token = ts

section Sources

variable {source : List Char} {depth : Nat} {c c' : Cursor} {run : List Lexed}
variable {ws : List Diagnostic}

lemma Scan.Run.consecutive (h : Run (embeddedReader .standard depth) c run ws c')
    (hc : c.Reads source) {us : List Token} (hus : us <:+: run.map Lexed.token) :
    Consecutive source us := by
  obtain ⟨xs, ys, hsplit⟩ := hus
  obtain ⟨front, back, rfl, hfront, -⟩ := List.map_eq_append_iff.mp hsplit.symm
  obtain ⟨before, inner, rfl, -, hinner⟩ := List.map_eq_append_iff.mp hfront
  obtain ⟨c₁, us, vs, hfront, -, -⟩ := run_append.mp h
  obtain ⟨c₂, us', vs', hbefore, hrun, -⟩ := run_append.mp hfront
  have hleads := hbefore.leads (forwardWithin_embeddedReader depth)
  exact ⟨depth, c₂, inner, vs', c₁, hc.leads hleads, hrun, hinner⟩

lemma Scan.Run.found (h : Run (embeddedReader .standard depth) c run ws c')
    (hc : c.Reads source) {t : Token} (ht : t ∈ run.map Lexed.token) :
    ∃ r r' : Reader, r.cursor.Reads source ∧
      tokenHere (embeddedReader .standard depth) r = .ok t r' := by
  induction h with
  | nil => cases ht
  | cons hfinds hrun ih =>
    have hleads := hfinds.leads (forwardWithin_embeddedReader depth)
    rcases List.mem_cons.mp ht with rfl | ht
    · obtain ⟨r, r₁, r₂, rfl, hgap, -, htoken, -⟩ := hfinds
      exact ⟨r₁, r₂, hc.leads (Scan.Forward.leads hgap), htoken⟩
    · exact ih (hc.leads hleads) ht

lemma Scan.embedded_run {r r' : Reader} {t : Token} {parts : List (TemplatePart Expr)} {e : Expr}
    (h : tokenHere (embeddedReader .standard depth) r = .ok t r') (hr : r.cursor.Reads source)
    (hvalue : t.value = .template parts) (he : .embedded e ∈ parts) :
    ∃ less c run ws c' ts, less < depth ∧ c.Reads source ∧
      Run (embeddedReader .standard less) c run ws c' ∧ ts <:+: run.map Lexed.token ∧
        Phrase .located .lowest ts e := by
  obtain ⟨r₀, r₁, hleads, hread, -⟩ :=
    tokenHere_embedded (forwardWithin_embeddedReader depth) h hvalue he
  cases depth with
  | zero =>
    rw [embeddedReader, embeddedExpression, cursor_bind] at hread
    cases hread
  | succ depth =>
    obtain ⟨r₂, rest, hread, -, -⟩ := embeddedExpression_eq_ok hread
    obtain ⟨s, hexpression, -⟩ := readEmbedded_eq_ok hread
    let K := Setting.inTemplate depth (r₀.record (.templateOpened r₀.cursor.pos))
    obtain ⟨ts, hat, hphrase⟩ := (Setting.Reads.expression (Language.closed_located K)).eq_ok
      Setting.at_start hexpression
    obtain ⟨ws, hrun, -⟩ := hat.run
    exact ⟨depth, _, _, _, _, ts, Nat.lt_succ_self depth, hr.leads hleads, hrun,
      hat.kept.isInfix, hphrase⟩

/-- Where tokens are found in a source, the nodes that are located among them are spelled by tokens
of the source. -/
lemma Located.consecutive {e node : Expr} {ts : List Token} (h : Located ts e)
    (hrun : Scan.Run (embeddedReader .standard depth) c run ws c') (hc : c.Reads source)
    (hts : ts <:+: run.map Lexed.token) (hnode : node.Occurs e)
    (hwritten : node.form.isWritten = true) :
    ∃ us least, Consecutive source us ∧ Phrase .spoken least us node := by
  induction depth using Nat.strong_induction_on generalizing c run ws c' ts e with
  | _ depth ih =>
    rcases h node hnode hwritten with
      ⟨us, least, hus, hphrase⟩ | ⟨t, ht, parts, inner, hvalue, hinner, hnode⟩
    · exact ⟨us, least, hrun.consecutive hc (hus.trans hts), hphrase⟩
    · obtain ⟨r, r', hr, htoken⟩ := hrun.found hc (hts.subset ht)
      obtain ⟨less, c₁, run₁, ws₁, c₂, us, hless, hc₁, hrun₁, hus, hphrase⟩ :=
        Scan.embedded_run htoken hr hvalue hinner
      exact ih less hless hphrase.located hrun₁ hc₁ hus hnode

end Sources

lemma parse_located {source : String} {e node : Expr}
    (h : (parse source).result = .ok (some e)) (hnode : node.Occurs e)
    (hwritten : node.form.isWritten = true) :
    ∃ ts least, Consecutive source.toList ts ∧ Phrase .spoken least ts node := by
  obtain ⟨ts, htokens, -, hphrase⟩ := parse_eq_ok (Language.closed_located _) h
  cases hphrase with
  | expr hphrase =>
    obtain ⟨run, ws, ⟨-, c, last, c', hrun, -⟩, rfl⟩ := whole_of_tokenize htokens
    exact hphrase.located.consecutive hrun (Cursor.reads_ofText _) (List.infix_refl _) hnode
      hwritten

end FrontEnd
