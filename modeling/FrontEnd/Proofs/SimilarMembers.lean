import FrontEnd.Proofs.SimilarBlocks

/-!
# Functions, classes and traits are similar to themselves
-/

namespace FrontEnd.Similar

set_option linter.unusedSectionVars false

open Production

variable {w : View} {k : Budget} {sure : Bool} {token token' : Token}
  {expr expr' : Precedence → Parse Expr} [∀ p, Steady (expr p)] [∀ p, Consuming (expr p)]
  (h : ∀ p, Similar w k false (expr p) (expr' p))

include h

/-! ## Functions -/

lemma optionalInit (least : Precedence) :
    Similar w k sure (optionalInit expr least) (optionalInit expr' least) := by
  refine .eat (.inr (.inl rfl)) (.pure rfl) ?_
  exact .bind (h _).any.spend fun e e' he => .pure (View.rel_some_some.mpr he)

omit h in
lemma missingValue?_eq (kind : DeclKind) {type type' : Option TypeExpr}
    {value value' : Option Expr} (htype : w.Rel type type') (hvalue : w.Rel value value') :
    missingValue? kind type value = missingValue? kind type' value' := by
  cases kind <;> cases type <;> cases type' <;> cases value <;> cases value' <;>
    simp_all [missingValue?]

lemma declarationBody (kind : DeclKind) :
    Similar w k sure (declarationBody expr kind) (declarationBody expr' kind) := by
  refine .bind_cases (fun _ => .andThen fun _ => .andThen fun _ => by split <;> infer_instance)
    .pattern fun pattern pattern' hpattern => ?_
  refine .bind_cases (fun _ => .andThen fun _ => by split <;> infer_instance)
    .optionalType fun type type' htype => ?_
  refine .bind_cases (fun _ => by split <;> infer_instance)
    (.optionalInit h _) fun value value' hvalue => ?_
  rw [missingValue?_eq kind htype hvalue]
  cases missingValue? kind type' value' with
  | some message => exact .refuseNext
  | none => exact .pure (by simp_all [View.Rel])

lemma declaration (ht : w.Rel token token') :
    Similar w k sure (declaration expr token) (declaration expr' token') := by
  unfold Production.declaration
  rw [ht.kind_eq]
  refine .bind (.declarationBody h _) fun declared declared' hdeclared => ?_
  exact .bind (.spanFrom ht.span_rel) fun _ _ _ => .pure (by simp_all [View.Rel])

omit h in
lemma rel_pattern_span {p p' : Pattern} (hp : w.Rel p p') : w.Rel p.span p'.span := by
  have hspan : (respan w.left p).span = (respan w.right p').span := congrArg Pattern.span hp
  rwa [span_respan_pattern, span_respan_pattern] at hspan

lemma lambdaParam : Similar w k sure (lambdaParam expr) (lambdaParam expr') := by
  refine .bind .pattern fun pattern pattern' hpattern => ?_
  refine .bind .optionalType fun type type' htype => ?_
  refine .bind (.optionalInit h _) fun value value' hvalue => ?_
  exact .bind (.spanFrom (rel_pattern_span hpattern)) fun _ _ _ =>
    .pure (by simp_all [View.Rel])

lemma lambdaParams (ht : w.Rel token token') :
    Similar w k sure (lambdaParams expr token) (lambdaParams expr' token') := by
  unfold Production.lambdaParams
  rw [ht.kind_eq]
  exact .ite _ (fun _ => .commaSeparated (.lambdaParam h)) fun _ => .pure rfl

lemma lambda (ht : w.Rel token token') :
    Similar w k sure (lambda expr token) (lambda expr' token') := by
  refine .bind (.lambdaParams h ht) fun params params' hparams => ?_
  refine .bind (h _).any fun body body' hbody => ?_
  exact .bind (.spanFrom ht.span_rel) fun _ _ _ => .pure (by simp_all [View.Rel])

lemma parameter : Similar w k sure (parameter expr) (parameter expr') := by
  refine .bind .pattern fun pattern pattern' hpattern => ?_
  refine .eat (.inr (.inl rfl)) .refuseNext ?_
  refine .bind .typeExpr fun type type' htype => ?_
  refine .bind (.optionalInit (fun p => (h p).spend) _) fun value value' hvalue => ?_
  exact .bind (.spanFrom (rel_pattern_span hpattern)) fun _ _ _ =>
    .pure (by simp_all [View.Rel])

lemma parameters : Similar w k sure (parameters expr) (parameters expr') := by
  refine .bind (.discard (.accept (fun t t' ht => ht.ofKind? _) fun t t' ht => ?_))
    fun _ _ _ => .commaSeparated (.parameter h)
  exact congrArg (Diagnostic.grammatical .missingArgumentList ·
    "A left parenthesis is required to start a function's argument list") ht.span_rel

omit h in
lemma returnType : Similar w k sure returnType returnType := by
  refine .bind (.nextIs _ (.inr rfl)) fun b b' hb => ?_
  obtain rfl := hb.eq
  refine .ite _ (fun _ => .pure rfl) fun _ => ?_
  exact .bind .typeExpr fun type type' htype => .pure (View.rel_some_some.mpr htype)

lemma functionBody (allowSignature : Bool) {opened opened' : Token}
    (ho : w.Rel opened opened') :
    Similar w k sure (functionBody expr allowSignature opened)
      (functionBody expr' allowSignature opened') := by
  have hblock : ∀ {sure}, Similar w k sure
      (do return some (← Production.blockBody expr opened))
      (do return some (← Production.blockBody expr' opened')) :=
    .bind (.blockBody h ho) fun b b' hb => .pure (View.rel_some_some.mpr hb)
  cases allowSignature with
  | false => exact hblock
  | true =>
    refine .eat (.inr (.inr ?_)) hblock (.pure rfl)
    exact .eat_else (inferInstanceAs (Steady (Pure.pure none)))
      (inferInstanceAs (Consuming (Production.blockBody expr opened >>= fun b =>
        Pure.pure (some b))))

lemma functionRest {name name' : Ident} (hname : w.Rel name name') (allowSignature : Bool) :
    Similar w k sure (functionRest expr name allowSignature)
      (functionRest expr' name' allowSignature) := by
  refine .bind .optionalTypeParams fun typeParams typeParams' htypeParams => ?_
  refine .bind (.parameters h) fun params params' hparams => ?_
  refine .bind .returnType fun returned returned' hreturned => ?_
  refine .bind (.consume _ _) fun opened opened' hopened => ?_
  exact .bind (.functionBody h _ hopened) fun body body' hbody =>
    .pure (by simp_all [View.Rel])

lemma namedFunction (allowSignature : Bool) :
    Similar w k sure (namedFunction expr allowSignature) (namedFunction expr' allowSignature) :=
  .bind (.identifier _) fun _ _ hname => .functionRest h hname _

lemma function (ht : w.Rel token token') :
    Similar w k sure (function expr token) (function expr' token') := by
  refine .bind (.namedFunction h _) fun definition definition' hdefinition => ?_
  exact .bind (.spanFrom ht.span_rel) fun _ _ _ => .pure (by simp_all [View.Rel])

/-! ## Members -/

omit h in
lemma openBlock (blocks : OpenBlocks) (block : ModifierBlock) {brace brace' : Token}
    (hb : w.Rel brace brace') :
    Similar w k sure (openBlock blocks block brace) (openBlock blocks block brace') :=
  .ite _ (fun _ => .refuse hb.span_rel) fun _ => .pure (View.rel_of_eq rfl)

omit h in
lemma checkMemberStart (body : BodyKind) {first first' : Token} (hf : w.Rel first first') :
    Similar w k sure (checkMemberStart body first) (checkMemberStart body first') := by
  unfold Production.checkMemberStart
  rw [hf.kind_eq]
  refine .ite _ (fun _ => .refuse hf.span_rel) fun _ => ?_
  exact .ite _ (fun _ => .pure rfl) fun _ => .refuse hf.span_rel

omit h in
lemma checkPrivacy (blocks : OpenBlocks) {keyword keyword' : Token}
    (hk : w.Rel keyword keyword') :
    Similar w k sure (checkPrivacy blocks keyword) (checkPrivacy blocks keyword') :=
  .ite _ (fun _ => .refuse hk.span_rel) fun _ => .pure rfl

omit h in
lemma rel_opened {α : Type} [Spanned α] {blocks blocks' : OpenBlocks}
    (hb : w.Rel blocks blocks') :
    w.Rel (Modified.opened blocks : Modified α) (.opened blocks') :=
  congrArg Modified.opened hb.eq

omit h in
lemma rel_member {α : Type} [Spanned α] {a a' : α} (ha : w.Rel a a') :
    w.Rel (Modified.member a) (.member a') :=
  congrArg Modified.member ha

omit h in
lemma afterPrivacy (blocks : OpenBlocks) {keyword keyword' : Token}
    (hk : w.Rel keyword keyword') (block : ModifierBlock) (visibility : Visibility) :
    Similar w k sure (afterPrivacy blocks keyword block visibility)
      (afterPrivacy blocks keyword' block visibility) := by
  refine .take? (fun o => by cases o <;> infer_instance) (.inr rfl) ?_ fun t t' ht => ?_
  · exact .bind (.checkPrivacy _ hk) fun _ _ _ => .pure (rel_member rfl)
  · exact .bind (.openBlock _ _ ht) fun _ _ hb => .pure (rel_opened hb)

omit h in
lemma afterPrivate (body : BodyKind) (blocks : OpenBlocks) {keyword keyword' : Token}
    (hk : w.Rel keyword keyword') :
    Similar w k sure (afterPrivate body blocks keyword) (afterPrivate body blocks keyword') := by
  refine .bind (.checkPrivacy _ hk) fun _ _ _ => ?_
  exact .bind (.warn hk.span_rel) fun _ _ _ => .pure (rel_member rfl)

omit h in
lemma rel_privacyKeyword? {t t' : Token} (ht : w.Rel t t') :
    w.Rel (privacyKeyword? t) (privacyKeyword? t') := by
  have heq : respan w.left t = respan w.right t' := ht
  unfold privacyKeyword?
  rw [ht.kind_eq]
  split <;> simp [View.Rel, heq]

omit h in
lemma privacyKeyword?_of_closes {t : Token} (ht : t.closes = true) : privacyKeyword? t = none := by
  unfold privacyKeyword?
  unfold Token.closes at ht
  split <;> simp_all [endsStatements]

omit h in
lemma privacy (body : BodyKind) (blocks : OpenBlocks) :
    Similar w k sure (privacy body blocks) (privacy body blocks) := by
  refine .takeIf_cases (fun o => by split <;> infer_instance) (fun t t' => rel_privacyKeyword?)
    (.inr (.inl fun t ht => privacyKeyword?_of_closes ht)) (.pure (rel_member rfl)) ?_
  rintro ⟨keyword, visibility⟩ ⟨keyword', visibility'⟩ hpair
  obtain ⟨hkeyword, hvisibility⟩ := View.rel_pair.mp hpair
  obtain rfl := hvisibility.eq
  cases visibility with
  | personal => exact .afterPrivate _ _ hkeyword
  | family => exact .afterPrivacy _ hkeyword _ _
  | everyone => exact .afterPrivacy _ hkeyword _ _

omit h in
lemma afterStatic (blocks : OpenBlocks) {keyword keyword' : Token}
    (hk : w.Rel keyword keyword') :
    Similar w k sure (afterStatic blocks keyword) (afterStatic blocks keyword') := by
  refine .take? (fun o => by cases o <;> infer_instance) (.inr rfl) ?_ fun t t' ht => ?_
  · exact .ite _ (fun _ => .refuse hk.span_rel) fun _ => .pure (rel_member rfl)
  · exact .bind (.openBlock _ _ ht) fun _ _ hb => .pure (rel_opened hb)

omit h in
lemma staticness (blocks : OpenBlocks) :
    Similar w k sure (staticness blocks) (staticness blocks) := by
  refine .take? (fun o => by cases o <;> infer_instance) (.inr rfl) (.pure (rel_member rfl)) ?_
  exact fun t t' ht => .afterStatic _ ht

omit h in
lemma overloadedOperator : Similar w k sure overloadedOperator overloadedOperator := by
  refine .accept (fun t t' ht => ?_) fun t t' ht => ?_
  · rw [ht.kind_eq]
    split
    · exact View.rel_some_some.mpr ht
    · rfl
  · have hspan : w.left t.span = w.right t'.span := ht.span_rel
    simp [View.Rel, noOperator, Diagnostic.grammatical, respan, ht.lexeme_eq, hspan]

lemma operatorOverload (allowSignature : Bool) :
    Similar w k sure (operatorOverload expr allowSignature)
      (operatorOverload expr' allowSignature) := by
  refine .bind_cases (fun _ => .andThen fun _ => .andThen fun _ => .andThen fun _ => by
      split <;> infer_instance)
    .overloadedOperator fun op op' hop => ?_
  refine .bind_cases (fun _ => .andThen fun _ => .andThen fun _ => by split <;> infer_instance)
    (.discard (.eat_self _ rfl)) fun _ _ _ => ?_
  refine .bind_before_cases (fun _ => .andThen fun _ => by split <;> infer_instance)
    (fun _ => .before fun _ => by split <;> infer_instance)
    .peek fun start start' hstart => ?_
  refine .bind_cases (fun _ => by split <;> infer_instance)
    (.functionRest h hop.ident_rel _) fun function function' hfunction => ?_
  have hlength : function.params.length = function'.params.length := by
    have hparams := congrArg (fun d : FunctionDef Expr => d.params.length) hfunction
    simpa [respan, FunctionDef.relabel] using hparams
  rw [hop.kind_eq, hlength]
  cases arityProblem? op'.kind function'.params.length with
  | some problem =>
    obtain ⟨code, message⟩ := problem
    exact .bind (.spanFrom hstart.span_rel) fun _ _ hs => .refuse hs
  | none =>
    have htext := hop.text_eq
    exact .pure (by simp_all [View.Rel])

omit h in
lemma propertyProblem?_eq (body : BodyKind) {members members' : MemberList Expr}
    (hm : w.Rel members members') {declared declared' : Declaration Expr}
    (hd : w.Rel declared declared') :
    propertyProblem? body members declared = propertyProblem? body members' declared' := by
  have hname : declared.simpleName? = declared'.simpleName? := by
    rw [← declaredName_respan w.left declared, ← declaredName_respan w.right declared',
      show respan w.left declared = respan w.right declared' from hd]
  have hknown : ∀ name, (members.property? name).isSome = (members'.property? name).isSome := by
    intro name
    rw [← isSome_property?_respan w.left members, ← isSome_property?_respan w.right members',
      show respan w.left members = respan w.right members' from hm]
  have htype : declared.type.isNone = declared'.type.isNone := by
    have hparts := congrArg (fun d : Declaration Expr => d.type.isNone) hd
    simpa [respan, Declaration.relabel] using hparts
  simp only [propertyProblem?, hname, hknown, htype]

omit h in
lemma propertyKind : Similar w k sure propertyKind propertyKind :=
  .eat (.inr (.inl rfl)) (.pure rfl) (.pure rfl)

lemma propertyMember (body : BodyKind) {members members' : MemberList Expr}
    (hm : w.Rel members members') :
    Similar w k sure (propertyMember expr body members)
      (propertyMember expr' body members') := by
  refine .bind_before_cases (fun _ => .andThen fun _ => .andThen fun _ => by
      split <;> infer_instance)
    (fun _ => .andThen fun _ => .before fun _ => by split <;> infer_instance)
    .peek fun start start' hstart => ?_
  refine .bind_cases (fun _ => .andThen fun _ => by split <;> infer_instance)
    .propertyKind fun kind kind' hkind => ?_
  obtain rfl := hkind.eq
  refine .bind_cases (fun _ => by split <;> infer_instance)
    (.declarationBody h _) fun declared declared' hdeclared => ?_
  rw [propertyProblem?_eq body hm hdeclared]
  cases propertyProblem? body members' declared' with
  | some problem => exact .refuse hstart.span_rel
  | none => exact .pure hdeclared

lemma memberItem (body : BodyKind) (scope : Scope) (visibility : Visibility)
    {members members' : MemberList Expr} (hm : w.Rel members members') :
    Similar w k sure (memberItem expr body scope visibility members)
      (memberItem expr' body scope visibility members') := by
  refine .eat (.inr (.inl rfl)) ?_ ?_
  · refine .eat (.inr (.inl rfl)) ?_ ?_
    · exact .bind (.propertyMember h _ hm) fun declared declared' hdeclared =>
        .pure (by simp_all [View.Rel])
    · exact .bind (.operatorOverload (fun p => (h p).spend) _) fun overload overload' ho =>
        .pure (by simp_all [View.Rel])
  · exact .bind (.namedFunction (fun p => (h p).spend) _) fun function function' hf =>
      .pure (by simp_all [View.Rel])

lemma modifiedMember (body : BodyKind) (blocks : OpenBlocks)
    {members members' : MemberList Expr} (hm : w.Rel members members') :
    Similar w k sure (modifiedMember expr body blocks members)
      (modifiedMember expr' body blocks members') := by
  refine .bind_cases (fun p => ?_) (.privacy _ _) fun p p' hp => ?_
  · split
    · infer_instance
    · exact .andThen fun q => by split <;> infer_instance
  · cases p <;> cases p'
    case opened.opened opened opened' =>
      injection hp with hp
      exact .pure (rel_opened (View.rel_of_eq hp))
    case member.member visibility visibility' =>
      obtain rfl : visibility = visibility' := by injection hp
      refine .bind_cases (fun q => by split <;> infer_instance) (.staticness _) fun q q' hq => ?_
      cases q <;> cases q'
      case opened.opened opened opened' =>
        injection hq with hq
        exact .pure (rel_opened (View.rel_of_eq hq))
      case member.member scope scope' =>
        obtain rfl : scope = scope' := by injection hq
        exact .bind (.memberItem h _ _ _ hm) fun added added' hadded => .pure (rel_member hadded)
      all_goals cases hq
    all_goals cases hp

lemma member (body : BodyKind) (blocks : OpenBlocks) {members members' : MemberList Expr}
    (hm : w.Rel members members') :
    Similar w k sure (member expr body blocks members)
      (member expr' body blocks members') := by
  refine .bind_before .peek fun first first' hfirst => ?_
  exact .bind (.checkMemberStart _ hfirst) fun _ _ _ => .modifiedMember h _ _ hm

omit h in
lemma memberEnd : Similar w k true memberEnd memberEnd := by
  refine .bind (.nextIs _ (.inl rfl)) fun b b' hb => ?_
  obtain rfl := hb.eq
  exact .ite _ (fun _ => .pure rfl) fun _ => .discard (.consume _ _)

lemma membersWithin (body : BodyKind) {fuel fuel' : Nat} (hfuel : k.allows fuel fuel')
    (blocks : OpenBlocks) {members members' : MemberList Expr} (hm : w.Rel members members') :
    Similar w k sure (membersWithin expr body fuel blocks members)
      (membersWithin expr' body fuel' blocks members') := by
  refine .loop (fun fuel (i : OpenBlocks × MemberList Expr) =>
      Production.membersWithin expr body fuel i.1 i.2)
    (fun fuel i => Production.membersWithin expr' body fuel i.1 i.2)
    (fun i i' => i.1 = i'.1 ∧ w.Rel i.2 i'.2) (fun _ => rfl) (fun _ => rfl) ?_ hfuel
    (blocks, members) (blocks, members') ⟨rfl, hm⟩
  rintro k' fuel fuel' hk ih ⟨blocks, members⟩ ⟨_, members'⟩ ⟨rfl, hm⟩
  have hnext : ∀ (blocks : OpenBlocks) {members members' : MemberList Expr},
      w.Rel members members' →
      Similar w k'.spend sure (Production.membersWithin expr body fuel blocks members)
        (Production.membersWithin expr' body fuel' blocks members') :=
    fun blocks _ _ hm => ih (blocks, _) (blocks, _) ⟨rfl, hm⟩
  refine .eat_cases (fun b => ?_) (.inr (.inr ?_)) ?_ ?_
  · split
    · split <;> infer_instance
    · exact .andThen fun m => by split <;> infer_instance
  · exact inferInstanceAs
      (Consuming (Production.membersWithin expr body (fuel + 1) blocks members))
  · refine .bind_spending_cases (fun m => by split <;> infer_instance)
      (.member (fun p => (h p).weaken hk) body blocks hm) fun m m' hmember => ?_
    cases m <;> cases m'
    case opened.opened opened opened' =>
      obtain rfl : opened = opened' := by injection hmember
      exact hnext opened hm
    case member.member added added' =>
      have hadded : w.Rel added added' := by injection hmember
      exact .bind_before .memberEnd fun _ _ _ => hnext blocks hadded
    all_goals cases hmember
  · cases blocks with
    | nil => exact .pure hm
    | cons block outer => exact .bind_before .memberEnd fun _ _ _ => hnext outer hm

lemma memberList (body : BodyKind) :
    Similar w k sure (memberList expr body) (memberList expr' body) :=
  .read fun _ _ _ _ _ hk hlimit => .membersWithin (fun p => (h p).weaken hk) body hlimit [] rfl

omit h in
lemma definitionParams : Similar w k sure definitionParams definitionParams := by
  refine .bind (.nextIs _ (.inr rfl)) fun b b' hb => ?_
  obtain rfl := hb.eq
  refine .ite _ (fun _ => ?_) fun _ => ?_
  · refine .bind .typeParams fun params params' hparams => ?_
    exact .bind (.discard (.consume _ _)) fun _ _ _ => .pure hparams
  · exact .bind (.discard (.consume _ _)) fun _ _ _ => .pure rfl

lemma classDef (ht : w.Rel token token') :
    Similar w k sure (classDef expr token) (classDef expr' token') := by
  refine .bind (.definitionName .pattern) fun name name' hname => ?_
  refine .bind .definitionParams fun params params' hparams => ?_
  refine .bind (.memberList h _) fun members members' hmembers => ?_
  have hkind := ht.kind_eq
  exact .bind (.spanFrom ht.span_rel) fun _ _ _ => .pure (by simp_all [View.Rel])

omit h in
lemma traitKeyword (isStructural : Bool) :
    Similar w k sure (traitKeyword isStructural) (traitKeyword isStructural) :=
  .ite _ (fun _ => .discard (.consume _ _)) fun _ => .pure rfl

lemma traitDef (ht : w.Rel token token') :
    Similar w k sure (traitDef expr token) (traitDef expr' token') := by
  unfold Production.traitDef
  rw [ht.kind_eq]
  refine .bind (.traitKeyword _) fun _ _ _ => ?_
  refine .bind (.definitionName .pattern) fun name name' hname => ?_
  refine .bind .definitionParams fun params params' hparams => ?_
  refine .bind (.memberList h _) fun members members' hmembers => ?_
  exact .bind (.spanFrom ht.span_rel) fun _ _ _ => .pure (by simp_all [View.Rel])

end FrontEnd.Similar
