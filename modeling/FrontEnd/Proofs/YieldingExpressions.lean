import FrontEnd.Proofs.YieldingPhrases

/-!
# Expressions yield their trees

The last step to a language that is closed: an expression yields what it is made of, if its tokens
with a value yield that value.
-/

namespace FrontEnd

open Production

/-! ## Kinds -/

/-- The productions that are found by a token which stands for a leaf. -/
def Opening.isLeaf : Opening → Bool
  | .identifier | .literal | .label => true
  | _ => false

lemma isLeaf_of_opening {kind : TokenKind} {opening : Opening}
    (h : Grammar.standard.opening? kind = some opening) (hopening : opening.isLeaf = false) :
    kind.isLeaf = false := by
  cases kind <;> cases h <;> first | rfl | cases hopening

lemma isLeaf_of_continuation {kind : TokenKind} {continuation : Continuation}
    (h : Grammar.standard.continuation? kind = some continuation) : kind.isLeaf = false := by
  cases kind <;> first | rfl | cases h

lemma opensMembers_of_opening {kind : TokenKind} {opening : Opening}
    (h : Grammar.standard.opening? kind = some opening)
    (hopening : opening = .classDef ∨ opening = .traitDef) : kind.opensMembers = true := by
  rcases hopening with rfl | rfl <;> cases kind <;> first | rfl | cases h

lemma eq_identifier_of_opening {kind : TokenKind}
    (h : Grammar.standard.opening? kind = some .identifier) : kind = .identifier := by
  cases kind <;> first | rfl | cases h

lemma eq_label_of_opening {kind : TokenKind}
    (h : Grammar.standard.opening? kind = some .label) : kind = .label := by
  cases kind <;> first | rfl | cases h

section Phrases

variable {ts : List Token} {opening : Opening} {form : Form Expr}

/-! ## Labels -/

lemma nests_of_withLabel? {e labelled : Expr} {label : String}
    (h : e.withLabel? label = some labelled) :
    ∃ ns, e.nests = labelNests e.label? ++ ns ∧
      labelled.nests = labelNests (some label) ++ ns := by
  obtain ⟨form, span⟩ := e
  cases form with
  | block b => cases h; exact ⟨_, rfl, rfl⟩
  | endlessLoop body label => cases h; exact ⟨_, rfl, rfl⟩
  | forLoop head body label => cases h; exact ⟨_, List.append_assoc .., List.append_assoc ..⟩
  | _ => cases h

lemma not_straight_of_labels {label colon : Token} {us : List Token} (hlabel : label.kind = .label)
    (hcolon : colon.kind = .colon) (hts : ∃ t vs, us = t :: vs ∧ t.kind = .label) :
    ¬ Straight (label :: colon :: us) := by
  obtain ⟨t, vs, rfl, ht⟩ := hts
  intro h
  refine h.labels ⟨[], vs.map Token.kind, ?_⟩
  rw [List.map_cons, List.map_cons, List.map_cons, hlabel, hcolon, ht]
  rfl

lemma not_straight_of_members {keyword : Token} {us : List Token}
    (hkeyword : keyword.kind.opensMembers = true) : ¬ Straight (keyword :: us) := by
  intro h
  have hmembers := h.members keyword List.mem_cons_self
  rw [hkeyword] at hmembers
  cases hmembers

/-! ## Openings and continuations -/

/-- What an expression opens with yields what it is made of. -/
lemma Opened.yields {t : Token} (h : Opened .yielding opening ts form) (ht : ts.head? = some t)
    (hopening : Grammar.standard.opening? t.kind = some opening) :
    Yields ts (form.nests id Expr.nest) := by
  cases h with
  | identifier =>
    cases ht
    exact .ident (eq_identifier_of_opening hopening)
  | unary h =>
    cases ht
    exact .mark_append rfl (isLeaf_of_opening hopening rfl) h.nest
  | literal htoken h =>
    cases ht
    exact htoken hopening _ h
  | block h => exact h.yields
  | group h hright =>
    cases ht
    refine .mark_append rfl (isLeaf_of_opening hopening rfl) ?_
    exact .append h.nest (.mark hright rfl)
  | conditional h => exact h.spells.yields
  | typeCast htype hright hvalue =>
    cases ht
    refine .mark_append rfl (isLeaf_of_opening hopening rfl) ?_
    exact .append htype (.mark_append hright rfl hvalue.nest)
  | declaration h =>
    cases ht
    exact .mark_append rfl (isLeaf_of_opening hopening rfl) h.yields
  | whileLoop hcondition hbody =>
    cases ht
    exact .mark_append rfl (isLeaf_of_opening hopening rfl) (.append hcondition.nest hbody.yields)
  | forLoop hhead hbody =>
    cases ht
    exact hhead.yields (isLeaf_of_opening hopening rfl) hbody.yields
  | endlessLoop h =>
    cases ht
    exact .mark_append rfl (isLeaf_of_opening hopening rfl) h.yields
  | lambda hparams hbody =>
    refine .append (hparams.yields fun t' ht' => ?_) hbody.nest
    rw [List.head?_append, ht'] at ht
    cases ht
    exact isLeaf_of_opening hopening rfl
  | function hname h =>
    cases ht
    refine .mark_append rfl (isLeaf_of_opening hopening rfl) ?_
    rw [Form.nests, FunctionDef.nests, h.name_eq]
    exact .cons (.ident hname) h.yields
  | classDef hname hparams hleft hmembers =>
    cases ht
    obtain ⟨ns, hns, hmembers⟩ := hmembers.yields
    have hall := Yields.mark_append rfl (isLeaf_of_opening hopening rfl) (.cons (.ident hname)
      (.append (hparams.yields TypeParamPhrase.yields rfl rfl) (.mark_append hleft rfl hns)))
    refine .loose (not_straight_of_members (opensMembers_of_opening hopening (.inl rfl))) hall
      fun n hn => ?_
    rw [Form.nests, ClassDef.nests, List.mem_cons, List.mem_append] at hn
    exact List.mem_cons.mpr (hn.imp_right fun hn => List.mem_append.mpr
      (hn.imp_right fun hn => (hmembers n hn).resolve_left List.not_mem_nil))
  | traitDef hlead hname hparams hleft hmembers =>
    cases ht
    obtain ⟨ns, hns, hmembers⟩ := hmembers.yields
    have hall := Yields.mark_append rfl (isLeaf_of_opening hopening rfl)
      (.append (hlead.yields rfl) (.cons (.ident hname)
        (.append (hparams.yields TypeParamPhrase.yields rfl rfl) (.mark_append hleft rfl hns))))
    refine .loose (not_straight_of_members (opensMembers_of_opening hopening (.inr rfl))) hall
      fun n hn => ?_
    rw [Form.nests, TraitDef.nests, List.mem_cons, List.mem_append] at hn
    exact List.mem_cons.mpr (hn.imp_right fun hn => List.mem_append.mpr
      (hn.imp_right fun hn => (hmembers n hn).resolve_left List.not_mem_nil))
  | enumDef hname hparams hleft hvariants =>
    cases ht
    refine .mark_append rfl (isLeaf_of_opening hopening rfl) (.cons (.ident hname) ?_)
    exact .append (hparams.yields TypeParamPhrase.yields rfl rfl)
      (.mark_append hleft rfl (hvariants.yields VariantPhrase.yields rfl))
  | importing h =>
    cases ht
    exact .mark_append rfl (isLeaf_of_opening hopening rfl) h
  | returning h =>
    cases ht
    exact .mark_append rfl (isLeaf_of_opening hopening rfl) (h.yields Spells.nest)
  | breaking hlabel hvalue =>
    cases ht
    refine .mark_append rfl (isLeaf_of_opening hopening rfl) ?_
    exact .append hlabel.yields (hvalue.yields Spells.nest)
  | continuing h =>
    cases ht
    exact .mark_append rfl (isLeaf_of_opening hopening rfl) h.yields
  | @label _ colon ts target labelled hcolon h hlabelled =>
    cases ht
    have hlabel := eq_label_of_opening hopening
    obtain ⟨ns, htarget, hns⟩ := nests_of_withLabel? hlabelled
    have hall := Yields.append (.label hlabel) (.mark_append hcolon rfl h.yields)
    have hnests : Form.nests id Expr.nest labelled.form = labelNests (some t.text) ++ ns := hns
    rw [hnests]
    by_cases hfresh : target.label? = none
    · rw [htarget, hfresh] at hall
      exact hall
    · refine .loose (not_straight_of_labels hlabel hcolon (h.labelled hfresh)) hall fun n hn => ?_
      rw [htarget]
      exact (List.mem_append.mp hn).elim (List.mem_append_left _)
        fun hn => List.mem_append_right _ (List.mem_append_right _ hn)
  | list h =>
    cases ht
    exact .mark_append rfl (isLeaf_of_opening hopening rfl) (h.yields_map Spells.nest rfl)
  | binding hname h =>
    cases ht
    exact .mark_append rfl (isLeaf_of_opening hopening rfl) (.cons (.ident hname) h.nest)
  | mapping hleft h =>
    cases ht
    refine .mark_append rfl (isLeaf_of_opening hopening rfl) (.mark_append hleft rfl ?_)
    rw [Form.nests, List.zip_map', List.flatMap_map]
    exact h.yields EntryPhrase.yields rfl

lemma Continued.yields {left : Expr} {continuation : Continuation} {t : Token} {us : List Token}
    (h : Continued .yielding left continuation (t :: us) form)
    (hcontinuation : Grammar.standard.continuation? t.kind = some continuation) :
    ∃ ns, form.nests id Expr.nest = left.nest :: ns ∧ Yields (t :: us) ns := by
  have hmark := isLeaf_of_continuation hcontinuation
  cases h with
  | binary h => exact ⟨_, rfl, .mark_append rfl hmark h.nest⟩
  | post => exact ⟨_, rfl, .mark rfl hmark⟩
  | property hname => exact ⟨_, rfl, .mark_append rfl hmark (.ident hname)⟩
  | call h => exact ⟨_, rfl, .mark_append rfl hmark (h.yields ArgumentPhrase.yields rfl)⟩
  | element h => exact ⟨_, rfl, .mark_append rfl hmark (h.yields_map Spells.nest rfl)⟩
  | statement h => exact ⟨_, rfl, .mark_append rfl hmark (h.yields Spells.nest)⟩
  | assignment h => exact ⟨_, rfl, .mark_append rfl hmark h.nest⟩

/-! ## Expressions -/

lemma Opened.labelled {t : Token} {span : Span} (h : Opened .yielding opening ts form)
    (ht : ts.head? = some t) (hopening : Grammar.standard.opening? t.kind = some opening)
    (hlabel : (Expr.mk form span).label? ≠ none) : ∃ t us, ts = t :: us ∧ t.kind = .label := by
  cases h with
  | label =>
    cases ht
    exact ⟨_, _, rfl, eq_label_of_opening hopening⟩
  | block h =>
    cases h
    exact absurd rfl hlabel
  | conditional h => cases h <;> exact absurd rfl hlabel
  | _ => exact absurd rfl hlabel

lemma Phrase.spells {least : Precedence} {e : Expr} (h : Phrase .yielding least ts e) :
    Spells ts e := by
  have hne := h.ne_nil
  have hspan := h.span_eq
  induction h with
  | opened hopening haccepts h =>
    exact ⟨h.yields rfl hopening, hne, hspan, h.labelled rfl hopening⟩
  | continued hleft hcontinuation hlevel hgrip h ih =>
    obtain ⟨ns, hns, hyields⟩ := h.yields hcontinuation
    refine ⟨?_, hne, hspan, fun hlabel => ?_⟩
    · rw [Expr.nests, hns]
      exact .append (ih hleft.ne_nil hleft.span_eq).nest hyields
    · cases h <;> exact absurd rfl hlabel

lemma Language.closed_yielding {K : Setting} (h : ∀ t, K.Found t → Language.yielding.token t) :
    Language.yielding.Closed K where
  token ht := h _ ht
  expr := Phrase.spells
  type := TypePhrase.yields
  pattern := PatternPhrase.yields
  path := PathPhrase.yields

end Phrases

end FrontEnd
