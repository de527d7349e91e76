import FrontEnd.Proofs.SimilarMembers

/-!
# Expressions are similar to themselves

Continuations, the layers of expressions, and the circle that they are closed into: reading an
expression is similar to itself as soon as the limits leave room for the tokens to come.
-/

namespace FrontEnd.Similar

set_option linter.unusedSectionVars false

open Production

variable {w : View} {k : Budget} {sure : Bool} {token token' : Token} {left left' : Expr}

lemma property (hl : w.Rel left left') :
    Similar w k sure (property left) (property left') := by
  refine .bind (.identifier _) fun name name' hname => ?_
  exact .bind (.spanFrom hl.expr_span) fun _ _ _ => .pure (by simp_all [View.Rel])

lemma post (op : PostOp) (hl : w.Rel left left') :
    Similar w k sure (post op left) (post op left') :=
  .bind (.spanFrom hl.expr_span) fun _ _ _ => .pure (by simp_all [View.Rel])

section Layers

variable {expr expr' : Precedence → Parse Expr} [∀ p, Steady (expr p)] [∀ p, Consuming (expr p)]
  (h : ∀ p, Similar w k false (expr p) (expr' p))

include h

/-! ## Continuations -/

lemma binary (op : BinaryOp) (hl : w.Rel left left') :
    Similar w k sure (binary expr op left) (binary expr' op left') := by
  refine .bind (h _).any fun right right' hright => ?_
  exact .bind (.spanFrom hl.expr_span) fun _ _ _ => .pure (by simp_all [View.Rel])

lemma argument : Similar w k sure (argument expr) (argument expr') := by
  refine .bind .argumentName fun name name' hname => ?_
  exact .bind (h _).any fun value value' hvalue => .pure (by simp_all [View.Rel])

lemma call (hl : w.Rel left left') :
    Similar w k sure (call expr left) (call expr' left') := by
  refine .bind (.commaSeparated (.argument h)) fun args args' hargs => ?_
  exact .bind (.spanFrom hl.expr_span) fun _ _ _ => .pure (by simp_all [View.Rel])

lemma element (hl : w.Rel left left') :
    Similar w k sure (element expr left) (element expr' left') := by
  refine .bind (.commaSeparated (h _)) fun indices indices' hindices => ?_
  exact .bind (.spanFrom hl.expr_span) fun _ _ _ => .pure (by simp_all [View.Rel])

omit h in
lemma moreStatements_eq (expr : Precedence → Parse Expr) :
    moreStatements expr =
      Token.closes <$> Parse.peek >>= fun ended =>
        if ended then Pure.pure none else do return some (← expr .lowest) := by
  simp only [Production.moreStatements, Parse.peekKind, Token.closes, bind_pure_comp,
    bind_map_left]
  rfl

lemma moreStatements : Similar w k sure (moreStatements expr) (moreStatements expr') := by
  rw [moreStatements_eq, moreStatements_eq]
  refine .bind (.look (fun t t' ht => ?_) (.inr fun t t' ht ht' => ?_)) fun b b' hb => ?_
  · exact View.rel_of_eq (by rw [Token.closes, Token.closes, ht.kind_eq])
  · exact View.rel_of_eq (by rw [ht, ht'])
  · obtain rfl := hb.eq
    refine .ite _ (fun _ => .pure rfl) fun _ => ?_
    exact .bind (h _).any fun e e' he => .pure (View.rel_some_some.mpr he)

lemma statement (hl : w.Rel left left') :
    Similar w k sure (statement expr left) (statement expr' left') := by
  refine .bind (.moreStatements h) fun rest rest' hrest => ?_
  exact .bind (.spanFrom hl.expr_span) fun _ _ _ => .pure (by simp_all [View.Rel])

lemma assignment (hl : w.Rel left left') (ht : w.Rel token token') :
    Similar w k sure (assignment expr left token) (assignment expr' left' token') := by
  have hassignable : left.isAssignable = left'.isAssignable := by
    rw [← isAssignable_respan w.left left, ← isAssignable_respan w.right left',
      show respan w.left left = respan w.right left' from hl]
  unfold Production.assignment
  rw [hassignable]
  refine .bind (h _).any fun value value' hvalue => ?_
  refine .ite _ (fun _ => ?_) fun _ => .refuse ht.span_rel
  exact .bind (.spanFrom hl.expr_span) fun _ _ _ => .pure (by simp_all [View.Rel])

lemma continued (continuation : Continuation) (hl : w.Rel left left')
    (ht : w.Rel token token') :
    Similar w k sure (continued expr continuation left token)
      (continued expr' continuation left' token') := by
  cases continuation with
  | binary op level => exact .binary h op hl
  | post op => exact .post op hl
  | property => exact .property hl
  | call => exact .call h hl
  | element => exact .element h hl
  | statement => exact .statement h hl
  | assignment => exact .assignment h hl ht

/-! ## Operands -/

lemma opened (opening : Opening) (ht : w.Rel token token') :
    Similar w k sure (opened expr opening token) (opened expr' opening token') := by
  have hident := ht.ident_rel
  have hspan := ht.span_rel
  cases opening with
  | identifier => exact .pure (by simp_all [View.Rel])
  | unary op => exact .unary h op ht
  | literal => exact .literal ht
  | block => exact .block h ht
  | group => exact .group h ht
  | conditional =>
    exact .read fun _ _ _ _ _ hk hlimit => .conditional (fun p => (h p).weaken hk) hlimit ht
  | typeCast => exact .typeCast h ht
  | declaration => exact .declaration h ht
  | whileLoop => exact .whileLoop h ht
  | forLoop => exact .forLoop h ht
  | endlessLoop => exact .endlessLoop h ht
  | lambda => exact .lambda h ht
  | function => exact .function h ht
  | classDef => exact .classDef h ht
  | traitDef => exact .traitDef h ht
  | enumDef => exact .enumDef ht
  | importing => exact .importing ht
  | returning => exact .returning h ht
  | breaking => exact .breaking h ht
  | continuing => exact .continuing ht
  | label => exact .label h ht
  | list => exact .list h ht
  | binding => exact .binding h ht
  | mapping => exact .mapping h ht

omit h in
lemma rel_opening? {t t' : Token} (ht : w.Rel t t') :
    w.Rel (((Grammar.standard.opening? t.kind).filter (·.accepts t)).map (t, ·))
      (((Grammar.standard.opening? t'.kind).filter (·.accepts t')).map (t', ·)) := by
  have haccepts : ∀ o : Opening, o.accepts t = o.accepts t' := by
    intro o
    cases o <;> simp [Opening.accepts, ht.text_eq]
  rw [ht.kind_eq]
  simp only [haccepts]
  cases (Grammar.standard.opening? t'.kind).filter (·.accepts t') with
  | none => rfl
  | some opening => exact View.rel_some_some.mpr (View.rel_pair.mpr ⟨ht, rfl⟩)

omit h in
lemma opener : Similar w k sure opener opener := by
  refine .read fun σ σ' _ hσ hσ' _ _ => ?_
  have hspares := spares_opening hσ
  rw [hσ] at hspares
  rw [hσ, hσ']
  refine .accept (fun t t' => rel_opening?) fun t t' ht => ?_
  have hspan : w.left t.span = w.right t'.span := ht.span_rel
  simp [View.Rel, noExpression, Diagnostic.grammatical, respan, ht.lexeme_eq, hspan]

omit h in
lemma continuer_bind {α : Type} (least : Precedence)
    (f : Option (Token × Continuation) → Parse α) :
    continuer least >>= f =
      (MonadReader.read : Parse Session) >>= fun σ =>
        Parse.takeIf (fun t =>
          ((σ.grammar.continuation? t.kind).filter (·.level.exceeds least)).map (t, ·)) >>= f := by
  simp only [Production.continuer, bind_assoc]

omit h in
lemma continuation?_of_closes {t : Token} (ht : t.closes = true) :
    Grammar.standard.continuation? t.kind = none := by
  unfold Token.closes at ht
  cases hkind : t.kind <;> rw [hkind] at ht <;> first | rfl | cases ht

lemma extend {fuel fuel' : Nat} (least : Precedence) (hfuel : k.allows fuel fuel')
    (hl : w.Rel left left') :
    Similar w k sure (extend expr least fuel left) (extend expr' least fuel' left') := by
  refine .loop (Production.extend expr least) (Production.extend expr' least) w.Rel
    (fun _ => rfl) (fun _ => rfl) ?_ hfuel _ _ hl
  intro k' fuel fuel' hk ih left left' hl
  unfold Production.extend
  rw [continuer_bind, continuer_bind]
  refine .read fun σ σ' _ hσ hσ' hwithin _ => .weaken hwithin ?_
  have hspares := spares_continuation hσ least
  rw [hσ] at hspares
  rw [hσ, hσ']
  refine .takeIf_cases (fun o => by split <;> infer_instance) (fun t t' ht => ?_)
    (.inr (.inl fun t ht => ?_)) (.pure hl) ?_
  · rw [ht.kind_eq]
    cases (Grammar.standard.continuation? t'.kind).filter (·.level.exceeds least) with
    | none => rfl
    | some continuation => exact View.rel_some_some.mpr (View.rel_pair.mpr ⟨ht, rfl⟩)
  · rw [continuation?_of_closes ht]
    rfl
  · rintro ⟨token, continuation⟩ ⟨token', continuation'⟩ hpair
    obtain ⟨ht, hcontinuation⟩ := View.rel_pair.mp hpair
    obtain rfl := hcontinuation.eq
    have h' : ∀ p, Similar w k'.spend false (expr p) (expr' p) :=
      fun p => ((h p).weaken hk).spend
    exact .bind (.traced ht (.continued h' continuation hl ht)) fun e e' he => ih e e' he

/-! ## Layers -/

lemma expressionFrom (least : Precedence) (opening : Opening) (ht : w.Rel token token') :
    Similar w k sure (expressionFrom expr least token opening)
      (expressionFrom expr' least token' opening) := by
  refine .bind (.traced ht (.opened h opening ht)) fun e e' he => ?_
  exact .read fun _ _ _ _ _ hk hlimit => .extend (fun p => (h p).weaken hk) least hlimit he

omit h in
lemma expressionLayer (h : ∀ p, Similar w k.spend false (expr p) (expr' p))
    (least : Precedence) :
    Similar w k sure (expressionLayer expr least) (expressionLayer expr' least) := by
  refine .bind_spending .opener fun start start' hstart => ?_
  obtain ⟨token, opening⟩ := start
  obtain ⟨token', opening'⟩ := start'
  obtain ⟨ht, hopening⟩ := View.rel_pair.mp hstart
  obtain rfl := hopening.eq
  exact .expressionFrom h least opening ht

end Layers

lemma expressionWithin {fuel fuel' : Nat} (hfuel : k.allows fuel fuel') (least : Precedence) :
    Similar w k sure (expressionWithin fuel least) (expressionWithin fuel' least) :=
  any (.loop Production.expressionWithin Production.expressionWithin (· = ·)
    (fun _ => rfl) (fun _ => rfl)
    (fun _ _ _ _ ih p _ hp => hp ▸ .expressionLayer (fun p => ih p p rfl) p)
    hfuel _ _ rfl)

theorem expression (least : Precedence) :
    Similar w k sure (expression least) (expression least) :=
  .read fun _ _ _ _ _ _ hlimit => .expressionWithin hlimit least

end FrontEnd.Similar
