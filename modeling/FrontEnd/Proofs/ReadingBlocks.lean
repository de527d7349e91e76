import FrontEnd.Proofs.ReadingProductions

/-!
# Blocks, control flow and functions read their phrases

The productions that open with a bracket or with a keyword of control flow, declarations and
functions, for sub-expressions that are read by an action which reads expressions.
-/

namespace FrontEnd.Setting.Reads

open Parse Production

variable {K : Setting} {Λ : Language} {before : List Token} {token : Token}

/-! ## Literals -/

section Literals

lemma exists_literal? (hfound : K.Found token)
    (hopening : Grammar.standard.opening? token.kind = some .literal) :
    ∃ value, token.literal? = some value := by
  obtain ⟨r, r', htoken⟩ := hfound
  have hsuits := Scan.tokenHere_suits htoken
  unfold Token.literal?
  cases hvalue : token.value with
  | none =>
    rw [hvalue] at hsuits
    generalize token.kind = kind at hsuits hopening
    cases kind <;> first | exact hsuits.elim | cases hopening
  | number value => exact ⟨_, rfl⟩
  | bool value => exact ⟨_, rfl⟩
  | char value => exact ⟨_, rfl⟩
  | text value => exact ⟨_, rfl⟩
  | template parts => exact ⟨_, rfl⟩

lemma literal (hΛ : Λ.Grounded K) (hfound : K.Found token)
    (hopening : Grammar.standard.opening? token.kind = some .literal) :
    K.Reads before [token] (literal token) (Spelled (Opened Λ .literal)) := by
  obtain ⟨value, hvalue⟩ := exists_literal? hfound hopening
  have hliteral : Production.literal token = Pure.pure ⟨.literal value, token.span⟩ := by
    unfold Token.literal? at hvalue
    unfold Production.literal
    split at hvalue <;> cases hvalue <;> simp_all
  rw [hliteral]
  exact .pure ⟨.literal (hΛ.token hfound) hvalue, (cover_singleton token).symm⟩ rfl

end Literals

/-! ## Blocks and groups -/

section Blocks

variable {expr : Precedence → Parse Expr}

section Anywhere

variable (hexpr : ∀ least, K.ReadsPast before (expr least) (Λ.expr least))
include hexpr

lemma blockContent : K.Reads before [] (blockContent expr) (Optionally (Λ.expr .lowest)) := by
  refine .nextIs_bind (ahead (.pure .absent rfl)) (ahead ?_)
  exact .bind_past (hexpr .lowest) fun ts content hcontent => .pure (.present hcontent) rfl

omit hexpr in
lemma blockBody (hexpr : ∀ least, K.ReadsWithin before (expr least) (Λ.expr least))
    (htoken : token.kind = .leftBrace) :
    K.Reads before [token] (blockBody expr token) (BlockPhrase Λ) := by
  refine .bind_part (.blockContent fun least => (hexpr least).past (by simp)) ?_
  intro ts content hcontent
  refine .expect_bind fun right hright => ?_
  exact .spanned_token (.mk htoken hcontent hright) rfl (by simp)

lemma expectBlock {context : String} :
    K.Reads before [] (expectBlock expr context) (BlockPhrase Λ) :=
  .consume_bind fun _ htoken => .blockBody (fun least => (hexpr least).within) htoken

lemma optionalValue : K.Reads before [] (optionalValue expr) (Optionally (Λ.expr .lowest)) := by
  rw [Production.optionalValue, canReadExpression, peekKind, bind_assoc, bind_assoc]
  refine .peek_bind fun t _ => ahead ?_
  rw [pure_bind, bind_assoc]
  refine .read_bind ?_
  rw [pure_bind]
  split
  · exact .bind_past (hexpr .lowest) fun ts value hvalue => .pure (.present hvalue) rfl
  · exact .pure .absent rfl

lemma orTrue {kind : TokenKind} {span : Span} :
    K.Reads before [] (orTrue expr kind span) (OrTrue Λ span) := by
  refine .nextIs_bind (ahead (.pure .omitted rfl)) (ahead ?_)
  exact .part (hexpr .lowest _) fun ts e he => .written he

lemma entry : K.Reads before [] (entry expr) (EntryPhrase Λ) := by
  refine .bind_past (hexpr .lowest) fun ts key hkey => ?_
  refine .expect_bind fun colon hcolon => ?_
  refine .bind_past (hexpr .lowest) fun us value hvalue => ?_
  exact .pure (.mk hkey hcolon hvalue) (by simp)

lemma forHead : K.Reads before [] (forHead expr token) (ForHeadPhrase Λ token.span) := by
  refine .bind_part (.orTrue fun least => (hexpr least).past _) fun ts init hinit => ?_
  refine .eat_bind ?_ fun keyword hkeyword => ?_
  · refine .expect_bind fun comma hcomma => ?_
    refine .bind_part (.orTrue fun least => (hexpr least).past _) fun us condition hcondition => ?_
    refine .expect_bind fun comma' hcomma' => ?_
    refine .bind_part (.orTrue fun least => (hexpr least).past _) fun vs step hstep => ?_
    exact .pure (.counting hinit hcomma hcondition hcomma' hstep) (by simp)
  · change K.Reads _ _ (iteratingHead expr init) _
    unfold iteratingHead
    split
    · exact .refuse
    · next binding hbinding =>
      refine .bind_past (hexpr .lowest) fun us iterable hiterable => ?_
      exact .pure (.iterating hinit hbinding hkeyword hiterable) (by simp)

lemma optionalInit {least : Precedence} :
    K.Reads before [] (optionalInit expr least) (Announced .equals (Λ.expr least)) := by
  refine .eat_bind (.pure .absent rfl) fun t ht => ?_
  exact .bind_past (hexpr least) fun ts value hvalue => .pure (.present ht hvalue) rfl

lemma afterElse {nested : Token → Parse Expr}
    (hnested : ∀ t : Token, t.kind = .kwIf →
      K.Reads before [t] (nested t) (ConditionalPhrase Λ)) :
    K.Reads before [] (afterElse expr nested) fun ts e =>
      (∃ block, BlockPhrase Λ ts block ∧ e = blockExpr block) ∨ ConditionalPhrase Λ ts e := by
  refine .take_bind ?_ fun t ht => (hnested t ht).mono fun _ _ h => .inr h
  refine .bind_part (.expectBlock fun least => (hexpr least).past _) fun ts block hblock => ?_
  exact .pure (.inl ⟨block, hblock, rfl⟩) rfl

omit hexpr in
lemma optionalLabel : K.Reads before [] optionalLabel LabelPhrase := by
  refine .take_bind (.pure .absent rfl) fun t ht => ?_
  exact .pure (.present ht) rfl

omit hexpr in
lemma continuing :
    K.Reads before [token] (continuing token) (Spelled (Opened Λ .continuing)) := by
  refine .bind_part .optionalLabel fun ts label hlabel => ?_
  exact .spanned_token ⟨.continuing hlabel, rfl⟩ rfl rfl

lemma otherwise {nested : Token → Parse Expr}
    (hnested : ∀ other t : Token, t.kind = .kwIf →
      K.Reads (before ++ [other]) [t] (nested t) (ConditionalPhrase Λ)) :
    K.Reads before [] (otherwise expr nested) fun vs alternative =>
      ∀ {keyword ts us condition consequence}, keyword.kind = .kwIf →
        Λ.expr .lowest ts condition → BlockPhrase Λ us consequence →
          ConditionalPhrase Λ (keyword :: (ts ++ us ++ vs))
            ⟨.conditional condition consequence alternative,
              cover (keyword :: (ts ++ us ++ vs))⟩ := by
  refine .eat_bind (.pure (fun hkeyword hcondition hconsequence => ?_) rfl) fun other hother => ?_
  · rw [List.append_nil]
    exact .alone hkeyword hcondition hconsequence
  · refine .bind_part (.afterElse (fun least => (hexpr least).past _) (hnested other)) ?_
    rintro ts e (⟨block, hblock, rfl⟩ | hchained)
    · exact .pure (fun hkeyword hcondition hconsequence =>
        .otherwise hkeyword hcondition hconsequence hother hblock) rfl
    · exact .pure (fun hkeyword hcondition hconsequence =>
        .chained hkeyword hcondition hconsequence hother hchained) rfl

end Anywhere

section Within

variable (hexpr : ∀ least, K.ReadsWithin before (expr least) (Λ.expr least))
include hexpr

lemma unary {op : UnaryOp} :
    K.Reads before [token] (unary expr op token) (Spelled (Opened Λ (.unary op))) := by
  refine .bind_within (hexpr .unary) (by simp) fun ts operand hoperand => ?_
  exact .spanned_token ⟨.unary hoperand, rfl⟩ rfl rfl

lemma typeCast (hΛ : Λ.Grounded K) :
    K.Reads before [token] (typeCast expr token) (Spelled (Opened Λ .typeCast)) := by
  refine .bind_past (typeExpr hΛ) fun ts type htype => ?_
  refine .expect_bind fun right hright => ?_
  refine .bind_within (hexpr .unary) (by simp) fun us value hvalue => ?_
  exact .spanned_token ⟨.typeCast htype hright hvalue, rfl⟩ rfl (by simp)

lemma block (htoken : token.kind = .leftBrace) :
    K.Reads before [token] (block expr token) (Spelled (Opened Λ .block)) := by
  refine .bind (.blockBody hexpr htoken) fun ts block hblock => .pure ⟨.block hblock, ?_⟩ rfl
  exact hblock.span_eq

lemma group : K.Reads before [token] (group expr token) (Spelled (Opened Λ .group)) := by
  refine .bind_within (hexpr .lowest) (by simp) fun ts inside hinside => ?_
  refine .expect_bind fun right hright => ?_
  exact .spanned_token ⟨.group hinside hright, rfl⟩ rfl (by simp)

lemma binding : K.Reads before [token] (binding expr token) (Spelled (Opened Λ .binding)) := by
  refine .identifier_bind fun name hname => ?_
  refine .bind_within (hexpr .lowest) (by simp) fun ts value hvalue => ?_
  exact .spanned_token ⟨.binding hname hvalue, rfl⟩ rfl (by simp)

lemma whileLoop :
    K.Reads before [token] (whileLoop expr token) (Spelled (Opened Λ .whileLoop)) := by
  refine .bind_within (hexpr .lowest) (by simp) fun ts condition hcondition => ?_
  refine .bind_part (.expectBlock fun least => (hexpr least).past (by simp))
    fun us body hbody => ?_
  exact .spanned_token ⟨.whileLoop hcondition hbody, rfl⟩ rfl (by simp)

lemma endlessLoop :
    K.Reads before [token] (endlessLoop expr token) (Spelled (Opened Λ .endlessLoop)) := by
  refine .bind_part (.expectBlock fun least => (hexpr least).past (by simp))
    fun ts body hbody => ?_
  exact .spanned_token ⟨.endlessLoop hbody, rfl⟩ rfl rfl

lemma forLoop : K.Reads before [token] (forLoop expr token) (Spelled (Opened Λ .forLoop)) := by
  refine .bind_part (.forHead fun least => (hexpr least).past (by simp)) fun ts head hhead => ?_
  refine .bind_part (.expectBlock fun least => (hexpr least).past (by simp))
    fun us body hbody => ?_
  exact .spanned_token ⟨.forLoop hhead hbody, rfl⟩ rfl (by simp)

lemma conditional {fuel : Nat} (htoken : token.kind = .kwIf)
    (hfuel : K.Affords before fuel) :
    K.Reads before [token] (conditional expr fuel token) (ConditionalPhrase Λ) := by
  induction fuel generalizing before token with
  | zero => exact .exhausted fun hstrict => by simpa using Nat.lt_succ_of_lt (hfuel hstrict)
  | succ fuel ih =>
    refine .bind_within (hexpr .lowest) (by simp) fun ts condition hcondition => ?_
    refine .bind_part (.expectBlock fun least => (hexpr least).past (by simp))
      fun us consequence hconsequence => ?_
    refine .bind_part (.otherwise (fun least => (hexpr least).past (by simp)) ?_)
      fun vs alternative halternative => ?_
    · intro other t ht
      refine ih (fun least => ?_) ht ?_
      · exact (((hexpr least).past (by simp)).past [other]).within
      · exact hfuel.later (by simp)
    · exact .spanned_token (halternative htoken hcondition hconsequence) rfl (by simp)

lemma returning :
    K.Reads before [token] (returning expr token) (Spelled (Opened Λ .returning)) := by
  refine .bind_part (.optionalValue fun least => (hexpr least).past (by simp))
    fun ts value hvalue => ?_
  exact .spanned_token ⟨.returning hvalue, rfl⟩ rfl rfl

lemma breaking [∀ least, Steady (expr least)] :
    K.Reads before [token] (breaking expr token) (Spelled (Opened Λ .breaking)) := by
  have hvalue : ∀ since, since ≠ [] →
      K.Reads (before ++ since) [] (Production.optionalValue expr) (Optionally (Λ.expr .lowest)) :=
    fun since hne => .optionalValue fun least => (hexpr least).past hne
  rw [Production.breaking, Production.optionalLabel, bind_assoc]
  refine .take_bind_ahead ?_ fun label hlabel => ?_
  · simp only [pure_bind]
    refine .bind_part (hvalue [token] (by simp)).begins fun us value ⟨hvalue, hfresh⟩ => ?_
    exact .spanned_token ⟨.breaking .absent hvalue fun _ => hfresh, rfl⟩ rfl rfl
  · simp only [pure_bind]
    refine .bind_part (hvalue [token, label] (by simp)) fun us value hvalue => ?_
    exact .spanned_token ⟨.breaking (.present hlabel) hvalue nofun, rfl⟩ rfl (by simp)

lemma label : K.Reads before [token] (label expr token) (Spelled (Opened Λ .label)) := by
  refine .expect_bind fun colon hcolon => ?_
  refine .bind_within (hexpr .tightest) (by simp) fun ts target htarget => ?_
  split
  · exact .refuse
  · next labelled hlabelled =>
    have hopened : Opened Λ .label (token :: colon :: ts) labelled.form :=
      .label hcolon htarget hlabelled
    exact .spanned_token ⟨hopened, rfl⟩ rfl (by simp)

variable [∀ least, Consuming (expr least)]

lemma list : K.Reads before [token] (list expr token) (Spelled (Opened Λ .list)) := by
  refine .bind_part (.commaSeparated ((hexpr .lowest).past (by simp))) fun ts elements h => ?_
  exact .spanned_token ⟨.list h, rfl⟩ rfl rfl

omit [∀ least, Consuming (expr least)] in
lemma mapping [∀ least, Steady (expr least)] :
    K.Reads before [token] (mapping expr token) (Spelled (Opened Λ .mapping)) := by
  refine .expect_bind fun left hleft => ?_
  have hentry : K.ReadsPast (before ++ ([token] ++ [left])) (Production.entry expr)
      (EntryPhrase Λ) :=
    fun since => .entry fun least => ((hexpr least).past (by simp)).past since
  refine .bind_part (.commaSeparated hentry) fun ts entries h => ?_
  exact .spanned_token ⟨.mapping hleft h, rfl⟩ rfl rfl

end Within

end Blocks

end FrontEnd.Setting.Reads
