import FrontEnd.Proofs.SimilarProductions

/-!
# Blocks and control flow are similar to themselves

The productions that open with a bracket or with a keyword of control flow, for sub-expressions that
are read by similar actions.
-/

namespace FrontEnd.Similar

set_option linter.unusedSectionVars false

open Production

variable {w : View} {k : Budget} {sure : Bool} {α : Type} [Spanned α]
  {token token' : Token}

lemma eat_self (kind : TokenKind) [Fact kind.Inner] (hkind : endsStatements kind = false) :
    Similar w k sure (Parse.eat kind) (Parse.eat kind) := by
  rw [← bind_pure (Parse.eat kind)]
  exact .eat (.inr (.inl hkind)) (.pure rfl) (.pure rfl)

/-! ## Blocks and control flow -/

lemma literal (ht : w.Rel token token') :
    Similar w k sure (literal token) (literal token') := by
  have hspan : w.left token.span = w.right token'.span := ht.span_rel
  have hvalue : respan w.left token.value = respan w.right token'.value := ht.value_rel
  unfold Production.literal
  cases hv : token.value <;> cases hv' : token'.value <;> rw [hv, hv'] at hvalue <;>
    simp only [TokenValue.respan_absent, TokenValue.respan_numberValue,
      TokenValue.respan_boolValue, TokenValue.respan_charValue, TokenValue.respan_textValue,
      TokenValue.respan_templateValue, reduceCtorEq, TokenValue.number.injEq,
      TokenValue.bool.injEq, TokenValue.char.injEq, TokenValue.text.injEq,
      TokenValue.template.injEq] at hvalue
  case none.none =>
    refine .fail ?_
    simp [View.Rel, Diagnostic.internal, respan, ht.kind_eq, hspan]
  all_goals exact .pure (by simp_all [View.Rel])

/-- The outcome of reading an expression as a pattern, with its spans replaced. -/
def relabelOutcome (φ : Span → Span) : Except Span α → Except Span α
  | .error span => .error (φ span)
  | .ok a => .ok (respan φ a)

lemma mapM_respan (φ : Span → Span) (results : List (Except Span Pattern)) :
    (results.map (relabelOutcome φ)).mapM id = relabelOutcome φ (results.mapM id) := by
  induction results with
  | nil => rfl
  | cons result results ih =>
    simp only [List.map_cons, List.mapM_cons, id_eq, ih]
    cases result with
    | error span => rfl
    | ok p => cases results.mapM id <;> rfl

lemma patternOfExpr_mk (form : Form Expr) (span : Span) :
    patternOfExpr ⟨form, span⟩ = patternOfForm (form.map patternOfExpr) span :=
  Expr.fold_mk patternOfForm form span

lemma patternOfExpr_respan (φ : Span → Span) (e : Expr) :
    patternOfExpr (respan φ e) = relabelOutcome φ (patternOfExpr e) := by
  induction e using Expr.layered_induction with
  | step form span =>
    rw [respan_expr, patternOfExpr_mk, patternOfExpr_mk]
    cases form with
    | identifier ident =>
      exact congrArg Except.ok (respan_pattern φ (.name ident) span).symm
    | binding name value =>
      have hvalue := value.property
      simp only [Form.map, Form.respan_binding, patternOfForm, hvalue]
      cases patternOfExpr value.val with
      | error place => rfl
      | ok p => exact congrArg Except.ok (respan_pattern φ (.named name p) span).symm
    | list elements =>
      have helements : (respan φ (elements.map Subtype.val)).map patternOfExpr =
          ((elements.map Subtype.val).map patternOfExpr).map (relabelOutcome φ) := by
        simp only [respan_list, List.map_map]
        exact List.map_congr_left fun e _ => e.property
      simp only [Form.map, Form.respan_listForm, patternOfForm, helements, mapM_respan]
      cases List.mapM id ((elements.map Subtype.val).map patternOfExpr) with
      | error place => rfl
      | ok ps => exact congrArg Except.ok (respan_pattern φ (.list ps) span).symm
    | _ => rfl

section Blocks

variable {expr expr' : Precedence → Parse Expr} [∀ p, Steady (expr p)] [∀ p, Consuming (expr p)]
  (h : ∀ p, Similar w k false (expr p) (expr' p))

include h

lemma unary (op : UnaryOp) (ht : w.Rel token token') :
    Similar w k sure (unary expr op token) (unary expr' op token') := by
  refine .bind (h _).any fun operand operand' hoperand => ?_
  exact .bind (.spanFrom ht.span_rel) fun _ _ _ => .pure (by simp_all [View.Rel])

lemma typeCast (ht : w.Rel token token') :
    Similar w k sure (typeCast expr token) (typeCast expr' token') := by
  refine .bind .typeExpr fun type type' htype => ?_
  refine .bind (.discard (.consume _ _)) fun _ _ _ => ?_
  refine .bind (h _).any fun value value' hvalue => ?_
  exact .bind (.spanFrom ht.span_rel) fun _ _ _ => .pure (by simp_all [View.Rel])

lemma blockContent : Similar w k true (blockContent expr) (blockContent expr') := by
  refine .bind (.nextIs _ (.inl rfl)) fun b b' hb => ?_
  obtain rfl := hb.eq
  refine .ite _ (fun _ => .pure rfl) fun _ => ?_
  exact .bind (h _).any fun e e' he => .pure (View.rel_some_some.mpr he)

lemma blockBody {opened opened' : Token} (ho : w.Rel opened opened') :
    Similar w k sure (blockBody expr opened) (blockBody expr' opened') := by
  refine .bind_before (.blockContent h) fun body body' hbody => ?_
  refine .bind (.discard (.consume _ _)) fun _ _ _ => ?_
  exact .bind (.spanFrom ho.span_rel) fun _ _ _ => .pure (by simp_all [View.Rel])

lemma expectBlock (context : String) :
    Similar w k sure (expectBlock expr context) (expectBlock expr' context) :=
  .bind (.consume _ _) fun _ _ ho => .blockBody h ho

omit h in
lemma rel_blockExpr {b b' : Block Expr} (hb : w.Rel b b') :
    w.Rel (blockExpr b) (blockExpr b') := by
  have hspan : w.left b.span = w.right b'.span := congrArg Block.span hb
  simp_all [View.Rel, blockExpr]

lemma block (ht : w.Rel token token') :
    Similar w k sure (block expr token) (block expr' token') :=
  .bind (.blockBody h ht) fun _ _ hb => .pure (rel_blockExpr hb)

lemma group (ht : w.Rel token token') :
    Similar w k sure (group expr token) (group expr' token') := by
  refine .bind (h _).any fun inside inside' hinside => ?_
  refine .bind (.discard (.consume _ _)) fun _ _ _ => ?_
  exact .bind (.spanFrom ht.span_rel) fun _ _ _ => .pure (by simp_all [View.Rel])

lemma list (ht : w.Rel token token') :
    Similar w k sure (list expr token) (list expr' token') := by
  refine .bind (.commaSeparated (h _)) fun elements elements' helements => ?_
  exact .bind (.spanFrom ht.span_rel) fun _ _ _ => .pure (by simp_all [View.Rel])

lemma entry : Similar w k sure (entry expr) (entry expr') := by
  refine .bind (h _).any fun key key' hkey => ?_
  refine .bind (.discard (.consume _ _)) fun _ _ _ => ?_
  exact .bind (h _).any fun value value' hvalue => .pure (View.rel_pair.mpr ⟨hkey, hvalue⟩)

omit h in
lemma rel_unzip {entries entries' : List (Expr × Expr)} (he : w.Rel entries entries') :
    w.Rel (entries.map (·.1)) (entries'.map (·.1)) ∧
      w.Rel (entries.map (·.2)) (entries'.map (·.2)) := by
  have hfst : ∀ (φ : Span → Span) (es : List (Expr × Expr)),
      respan φ (es.map (·.1)) = (respan φ es).map (·.1) := by
    intro φ es
    simp [Function.comp_def, respan]
  have hsnd : ∀ (φ : Span → Span) (es : List (Expr × Expr)),
      respan φ (es.map (·.2)) = (respan φ es).map (·.2) := by
    intro φ es
    simp [Function.comp_def, respan]
  have heq : respan w.left entries = respan w.right entries' := he
  exact ⟨by rw [View.Rel, hfst, hfst, heq], by rw [View.Rel, hsnd, hsnd, heq]⟩

lemma mapping (ht : w.Rel token token') :
    Similar w k sure (mapping expr token) (mapping expr' token') := by
  refine .bind (.discard (.consume _ _)) fun _ _ _ => ?_
  refine .bind (.commaSeparated (.entry h)) fun entries entries' hentries => ?_
  obtain ⟨hkeys, hvalues⟩ := rel_unzip hentries
  exact .bind (.spanFrom ht.span_rel) fun _ _ _ => .pure (by simp_all [View.Rel])

lemma afterElse {nested nested' : Token → Parse Expr} [∀ t, Steady (nested t)]
    (hnested : ∀ t t', w.Rel t t' → Similar w k.spend sure (nested t) (nested' t')) :
    Similar w k sure (afterElse expr nested) (afterElse expr' nested') := by
  refine .take? (fun o => by cases o <;> infer_instance) (.inr rfl) ?_ hnested
  exact .bind (.expectBlock h _) fun _ _ hb => .pure (rel_blockExpr hb)

lemma otherwise {nested nested' : Token → Parse Expr} [∀ t, Steady (nested t)]
    (hnested : ∀ t t', w.Rel t t' → Similar w k.spend sure (nested t) (nested' t')) :
    Similar w k sure (otherwise expr nested) (otherwise expr' nested') := by
  refine .eat (.inr (.inl rfl)) (.pure rfl) ?_
  refine .bind (.afterElse (fun p => (h p).spend) fun t t' ht => (hnested t t' ht).spend)
    fun e e' he => .pure (View.rel_some_some.mpr he)

lemma conditional {fuel fuel' : Nat} (hfuel : k.allows fuel fuel') (ht : w.Rel token token') :
    Similar w k sure (conditional expr fuel token) (conditional expr' fuel' token') := by
  refine .loop (Production.conditional expr) (Production.conditional expr') w.Rel
    (fun _ => rfl) (fun _ => rfl) ?_ hfuel _ _ ht
  intro k' fuel fuel' hk ih token token' ht
  have h' : ∀ p, Similar w k'.spend false (expr p) (expr' p) := fun p => ((h p).weaken hk).spend
  refine .bind_spending ((h _).weaken hk).any fun condition condition' hcondition => ?_
  refine .bind (.expectBlock h' _) fun consequence consequence' hconsequence => ?_
  refine .bind (.otherwise h' fun t t' ht => (ih t t' ht).spend)
    fun alternative alternative' halternative => ?_
  exact .bind (.spanFrom ht.span_rel) fun _ _ _ => .pure (by simp_all [View.Rel])

lemma whileLoop (ht : w.Rel token token') :
    Similar w k sure (whileLoop expr token) (whileLoop expr' token') := by
  refine .bind (h _).any fun condition condition' hcondition => ?_
  refine .bind (.expectBlock h _) fun body body' hbody => ?_
  exact .bind (.spanFrom ht.span_rel) fun _ _ _ => .pure (by simp_all [View.Rel])

lemma endlessLoop (ht : w.Rel token token') :
    Similar w k sure (endlessLoop expr token) (endlessLoop expr' token') := by
  refine .bind (.expectBlock h _) fun body body' hbody => ?_
  exact .bind (.spanFrom ht.span_rel) fun _ _ _ => .pure (by simp_all [View.Rel])

lemma orTrue {kind : TokenKind} (hkind : endsStatements kind = false) {span span' : Span}
    (hspan : w.Rel span span') :
    Similar w k sure (orTrue expr kind span) (orTrue expr' kind span') := by
  refine .bind (.nextIs _ (.inr hkind)) fun b b' hb => ?_
  obtain rfl := hb.eq
  exact .ite _ (fun _ => .pure (by simp_all [View.Rel])) fun _ => (h _).any

lemma iteratingHead {init init' : Expr} (hinit : w.Rel init init') :
    Similar w k sure (iteratingHead expr init) (iteratingHead expr' init') := by
  have houtcome : relabelOutcome w.left (patternOfExpr init) =
      relabelOutcome w.right (patternOfExpr init') := by
    rw [← patternOfExpr_respan, ← patternOfExpr_respan,
      show respan w.left init = respan w.right init' from hinit]
  unfold Production.iteratingHead
  cases hp : patternOfExpr init <;> cases hp' : patternOfExpr init' <;>
    rw [hp, hp'] at houtcome <;> simp only [relabelOutcome, reduceCtorEq, Except.error.injEq,
      Except.ok.injEq] at houtcome
  case error.error => exact .refuse houtcome
  case ok.ok => exact .bind (h _).any fun e e' he => .pure (by simp_all [View.Rel])

lemma countingHead (ht : w.Rel token token') {init init' : Expr} (hinit : w.Rel init init') :
    Similar w k sure (countingHead expr token init) (countingHead expr' token' init') := by
  refine .bind (.discard (.consume _ _)) fun _ _ _ => ?_
  refine .bind (.orTrue h rfl ht.span_rel) fun condition condition' hcondition => ?_
  refine .bind (.discard (.consume _ _)) fun _ _ _ => ?_
  exact .bind (.orTrue h rfl ht.span_rel) fun step step' hstep =>
    .pure (by simp_all [View.Rel])

lemma forHead (ht : w.Rel token token') :
    Similar w k sure (forHead expr token) (forHead expr' token') := by
  refine .bind (.orTrue h rfl ht.span_rel) fun init init' hinit => ?_
  exact .eat (.inr (.inl rfl)) (.countingHead h ht hinit) (spend (.iteratingHead h hinit))

omit h in
lemma blockContext_eq {head head' : ForHead Expr} (hhead : w.Rel head head') :
    ForHead.blockContext head = ForHead.blockContext head' := by
  cases head <;> cases head' <;> simp_all [View.Rel, ForHead.blockContext]

lemma forLoop (ht : w.Rel token token') :
    Similar w k sure (forLoop expr token) (forLoop expr' token') := by
  refine .bind (.forHead h ht) fun head head' hhead => ?_
  rw [blockContext_eq hhead]
  refine .bind (.expectBlock h _) fun body body' hbody => ?_
  exact .bind (.spanFrom ht.span_rel) fun _ _ _ => .pure (by simp_all [View.Rel])

omit h in
lemma canReadExpression_eq :
    Parse.canReadExpression =
      (MonadReader.read : Parse Session) >>= fun σ =>
        (fun t => (σ.grammar.opening? t.kind).isSome) <$> Parse.peek := by
  funext σ s
  simp only [Parse.canReadExpression, Parse.peekKind, Parse.bind_apply, Parse.read_apply,
    Parse.map_apply]
  cases Parse.peek σ s <;> rfl

omit h in
lemma opening?_of_closes {t : Token} (ht : t.closes = true) :
    Grammar.standard.opening? t.kind = none := by
  unfold Token.closes at ht
  cases hkind : t.kind <;> rw [hkind] at ht <;> first | rfl | cases ht

omit h in
lemma canReadExpression : Similar w k sure Parse.canReadExpression Parse.canReadExpression := by
  rw [canReadExpression_eq]
  refine .read fun σ σ' _ hσ hσ' _ _ => ?_
  rw [hσ, hσ']
  refine .look (fun t t' ht => View.rel_of_eq (by rw [ht.kind_eq])) (.inr fun t t' ht ht' => ?_)
  rw [opening?_of_closes ht, opening?_of_closes ht']
  exact View.rel_of_eq rfl

lemma optionalValue : Similar w k sure (optionalValue expr) (optionalValue expr') := by
  refine .bind .canReadExpression fun b b' hb => ?_
  obtain rfl := hb.eq
  refine .ite _ (fun _ => ?_) fun _ => .pure rfl
  exact .bind (h _).any fun e e' he => .pure (View.rel_some_some.mpr he)

omit h in
lemma optionalLabel : Similar w k sure optionalLabel optionalLabel :=
  .take? (fun _ => inferInstance) (.inr rfl) (.pure rfl) fun t t' ht =>
    .pure (View.rel_of_eq (by simp [ht.text_eq]))

lemma returning (ht : w.Rel token token') :
    Similar w k sure (returning expr token) (returning expr' token') := by
  refine .bind (.optionalValue h) fun value value' hvalue => ?_
  exact .bind (.spanFrom ht.span_rel) fun _ _ _ => .pure (by simp_all [View.Rel])

lemma breaking (ht : w.Rel token token') :
    Similar w k sure (breaking expr token) (breaking expr' token') := by
  refine .bind .optionalLabel fun label label' hlabel => ?_
  refine .bind (.optionalValue h) fun value value' hvalue => ?_
  exact .bind (.spanFrom ht.span_rel) fun _ _ _ => .pure (by simp_all [View.Rel])

omit h in
lemma continuing (ht : w.Rel token token') :
    Similar w k sure (continuing token) (continuing token') := by
  refine .bind .optionalLabel fun label label' hlabel => ?_
  exact .bind (.spanFrom ht.span_rel) fun _ _ _ => .pure (by simp_all [View.Rel])

lemma label (ht : w.Rel token token') :
    Similar w k sure (label expr token) (label expr' token') := by
  refine .bind_cases (fun _ => .andThen fun _ => by split <;> infer_instance)
    (.discard (.consume _ _)) fun _ _ _ => ?_
  refine .bind_cases (fun _ => by split <;> infer_instance) (h _).any
    fun target target' htarget => ?_
  have hlabelled : w.Rel (target.withLabel? token.text) (target'.withLabel? token'.text) := by
    rw [View.Rel, ← withLabel?_respan, ← withLabel?_respan, ht.text_eq,
      show respan w.left target = respan w.right target' from htarget]
  cases hl : target.withLabel? token.text <;> cases hl' : target'.withLabel? token'.text <;>
    simp only [hl, hl', View.not_rel_none_some, View.not_rel_some_none,
      View.rel_some_some] at hlabelled
  case none.none => exact .refuse ht.span_rel
  case some.some labelled labelled' =>
    have hform : respan w.left labelled.form = respan w.right labelled'.form := by
      have hparts := congrArg Expr.form hlabelled
      obtain ⟨form, span⟩ := labelled
      obtain ⟨form', span'⟩ := labelled'
      simpa using hparts
    exact .bind (.spanFrom ht.span_rel) fun _ _ _ => .pure (by simp_all [View.Rel])

lemma binding (ht : w.Rel token token') :
    Similar w k sure (binding expr token) (binding expr' token') := by
  refine .bind (.identifier _) fun name name' hname => ?_
  refine .bind (h _).any fun value value' hvalue => ?_
  exact .bind (.spanFrom ht.span_rel) fun _ _ _ => .pure (by simp_all [View.Rel])

end Blocks

end FrontEnd.Similar
