import FrontEnd.Proofs.ReadingBlocks

/-!
# Declarations, functions, classes and traits read their phrases

The members of a body are read in steps, and the rest of a body is a phrase of the grammar in every
state of the reading: for the open modifier blocks and the members before.
-/

namespace FrontEnd.Setting.Reads

open Parse Production

variable {K : Setting} {Λ : Language} {before : List Token} {token : Token}
variable {expr : Precedence → Parse Expr}

/-! ## Declarations and functions -/

section Functions

section Anywhere

variable (hΛ : Λ.Grounded K) (hexpr : ∀ least, K.ReadsPast before (expr least) (Λ.expr least))
include hΛ hexpr

lemma declarationBody {kind : DeclKind} :
    K.Reads before [] (declarationBody expr kind) (DeclarationPhrase Λ kind) := by
  refine .bind_past (pattern hΛ) fun ts pattern hpattern => ?_
  refine .bind_part (optionalType hΛ) fun us type htype => ?_
  refine .bind_part (.optionalInit fun least => (hexpr least).past _) fun vs value hvalue => ?_
  split
  · exact .refuseNext
  · next hvalued => exact .pure (.mk hpattern htype hvalue hvalued) rfl

lemma lambdaParam : K.Reads before [] (lambdaParam expr) (LambdaParamPhrase Λ) := by
  refine .bind_part (pattern_phrase hΛ) fun ts pattern hpattern => ?_
  refine .bind_part (optionalType hΛ) fun us type htype => ?_
  refine .bind_part (.optionalInit fun least => (hexpr least).past _) fun vs value hvalue => ?_
  exact .spanned (.mk (hΛ.pattern hpattern) htype hvalue) hpattern.span_eq hpattern.ne_nil
    (by simp) rfl

lemma parameter : K.Reads before [] (parameter expr) (ParamPhrase Λ) := by
  refine .bind_part (pattern_phrase hΛ) fun ts pattern hpattern => ?_
  refine .eat_bind .refuseNext fun colon hcolon => ?_
  refine .bind_past (typeExpr hΛ) fun us type htype => ?_
  refine .bind_part (.optionalInit fun least => (hexpr least).past _) fun vs value hvalue => ?_
  exact .spanned (.mk (hΛ.pattern hpattern) hcolon htype hvalue) hpattern.span_eq
    hpattern.ne_nil (by simp) (by simp)

omit hexpr in
lemma returnType : K.Reads before [] returnType (Optionally Λ.type) := by
  refine .nextIs_bind (ahead (.pure .absent rfl)) (ahead ?_)
  exact .bind_past (typeExpr hΛ) fun ts type htype => .pure (.present htype) rfl

omit hΛ in
lemma functionBody {allowSignature : Bool} (htoken : token.kind = .leftBrace) :
    K.Reads before [token] (functionBody expr allowSignature token)
      (BodyPhrase Λ allowSignature) := by
  have hblock : K.Reads before [token] (do return some (← Production.blockBody expr token))
      (BodyPhrase Λ allowSignature) :=
    .bind (.blockBody (fun least => (hexpr least).within) htoken) fun ts body hbody =>
      .pure (.block hbody) rfl
  rw [Production.functionBody, signatureEnd]
  split
  · exact .eat_bind hblock fun right hright => .pure (.signature ‹_› htoken hright) rfl
  · exact hblock

variable [∀ least, Steady (expr least)]

lemma parameters :
    K.Reads before [] (parameters expr) fun ts params =>
      ∃ left us, left.kind = .leftParen ∧ ts = left :: us ∧
        Listed .rightParen (ParamPhrase Λ) us params := by
  rw [Production.parameters, discard_eq, bind_assoc]
  refine .accept_bind (fun _ => rfl) fun left _ _ ha => ?_
  obtain ⟨hleft, rfl⟩ := Token.ofKind?_eq_some ha
  have hparam : K.ReadsPast (before ++ ([] ++ [left])) (Production.parameter expr)
      (ParamPhrase Λ) :=
    fun _ => .parameter hΛ fun least => ((hexpr least).past _).past _
  rw [pure_bind]
  exact .part (.commaSeparated hparam) fun us params hparams => ⟨left, us, hleft, rfl, hparams⟩

lemma functionRest {name : Ident} {allowSignature : Bool} :
    K.Reads before [] (functionRest expr name allowSignature)
      (FunctionPhrase Λ name allowSignature) := by
  refine .bind_part (optionalTypeParams hΛ) fun ts typeParams htypeParams => ?_
  refine .bind_part (parameters hΛ fun least => (hexpr least).past _) ?_
  rintro _ params ⟨left, us, hleft, rfl, hparams⟩
  refine .bind_part (returnType hΛ) fun vs returned hreturned => ?_
  refine .consume_bind fun opened hopened => ?_
  refine .bind_from (.functionBody (fun least => (hexpr least).past _) hopened)
    fun ws body hbody => ?_
  exact .pure (.mk htypeParams hleft hparams hreturned hbody) (by simp)

lemma namedFunction {allowSignature : Bool} :
    K.Reads before [] (namedFunction expr allowSignature) fun ts function =>
      ∃ name us, name.kind = .identifier ∧ ts = name :: us ∧
        FunctionPhrase Λ name.ident allowSignature us function := by
  refine .identifier_bind fun name hname => ?_
  exact .part (functionRest hΛ fun least => (hexpr least).past _) fun us function h =>
    ⟨name, us, hname, rfl, h⟩

end Anywhere

section Within

variable (hΛ : Λ.Grounded K) (hexpr : ∀ least, K.ReadsWithin before (expr least) (Λ.expr least))
include hΛ hexpr

lemma declaration :
    K.Reads before [token] (declaration expr token) (Spelled (Opened Λ .declaration)) := by
  refine .bind_part (declarationBody hΛ fun least => (hexpr least).past (by simp))
    fun ts declared hdeclared => ?_
  exact .spanned_token ⟨.declaration hdeclared, rfl⟩ rfl rfl

variable [∀ least, Steady (expr least)]

lemma lambdaParams :
    K.Reads before [token] (lambdaParams expr token) (LambdaParams Λ) := by
  have hparam : K.ReadsPast (before ++ [token]) (Production.lambdaParam expr)
      (LambdaParamPhrase Λ) :=
    fun _ => .lambdaParam hΛ fun least => ((hexpr least).past (by simp)).past _
  rw [Production.lambdaParams]
  split
  · next hsign =>
    exact .part (.commaSeparated hparam) fun ts params hparams =>
      .present hsign hparams
  · next hsign => exact .pure (.absent hsign) rfl

lemma lambda : K.Reads before [token] (lambda expr token) (Spelled (Opened Λ .lambda)) := by
  refine .bind (lambdaParams hΛ hexpr) fun ts params hparams => ?_
  refine .bind_within (hexpr .lowest) (by simp) fun us body hbody => ?_
  exact .spanned_token ⟨.lambda hparams hbody, rfl⟩ rfl rfl

lemma function : K.Reads before [token] (function expr token) (Spelled (Opened Λ .function)) := by
  refine .bind_part (namedFunction hΛ fun least => (hexpr least).past (by simp)) ?_
  rintro _ definition ⟨name, us, hname, rfl, h⟩
  exact .spanned_token ⟨.function hname h, rfl⟩ rfl rfl

end Within

end Functions

/-! ## Modifiers -/

section Modifiers

variable {body : BodyKind} {blocks : OpenBlocks} {β : Type} {since : List Token}
variable {Q : List Token → β → Prop}

lemma openBlock_bind {f : OpenBlocks → Parse β} {block : ModifierBlock} {brace : Token}
    (hf : blocks.length < 2 → block ∉ blocks → K.Reads before since (f (block :: blocks)) Q) :
    K.Reads before since (openBlock blocks block brace >>= f) Q := by
  rw [openBlock]
  split
  · exact .refuse_bind
  · next h => exact hf (by omega) fun hmem => h (.inr hmem)

lemma checkPrivacy_bind {f : Unit → Parse β} {keyword : Token}
    (hf : blocks.isPrivacy = false → K.Reads before since (f ()) Q) :
    K.Reads before since (checkPrivacy blocks keyword >>= f) Q := by
  rw [checkPrivacy]
  split
  · exact .refuse_bind
  · next h => exact hf (Bool.eq_false_iff.mpr h)

lemma checkMemberStart_bind {f : Unit → Parse β} {first : Token}
    (hf : K.Reads before since (f ()) Q) :
    K.Reads before since (checkMemberStart body first >>= f) Q := by
  rw [checkMemberStart]
  split
  · exact .refuse_bind
  · split
    · exact hf
    · exact .refuse_bind

lemma afterPrivacy {block : ModifierBlock} {visibility : Visibility}
    (htoken : privacyBlock? token.kind = some (block, visibility)) :
    K.Reads before [token] (afterPrivacy blocks token block visibility)
      (PrivacyPhrase body blocks) := by
  refine .take_bind ?_ fun left hleft => ?_
  · exact .checkPrivacy_bind fun hplain => .pure (.shared htoken hplain) rfl
  · exact .openBlock_bind fun hdepth hnew => .pure (.opened htoken hleft hdepth hnew) rfl

lemma privacy : K.Reads before [] (privacy body blocks) (PrivacyPhrase body blocks) := by
  refine .takeIf_bind (.pure .absent rfl) fun t a _ ha => ?_
  unfold privacyKeyword? at ha
  split at ha <;> cases ha
  · next hkind =>
    refine .checkPrivacy_bind fun hplain => .warn_bind ?_
    exact .pure (.personal hkind hplain) rfl
  · next hkind => exact .afterPrivacy (by rw [hkind]; rfl)
  · next hkind => exact .afterPrivacy (by rw [hkind]; rfl)

lemma staticness : K.Reads before [] (staticness blocks) (StaticPhrase blocks) := by
  refine .take_bind (.pure .absent rfl) fun keyword hkeyword => ?_
  refine .take_bind ?_ fun left hleft => ?_
  · change K.Reads _ _ (ite _ _ _) _
    split
    · exact .refuse
    · next h => exact .pure (.written hkeyword (Bool.eq_false_iff.mpr h)) rfl
  · exact .openBlock_bind fun hdepth hnew => .pure (.opened hkeyword hleft hdepth hnew) rfl

end Modifiers

/-! ## Members -/

section Members

variable (hΛ : Λ.Grounded K) (hexpr : ∀ least, K.ReadsPast before (expr least) (Λ.expr least))
variable [∀ least, Steady (expr least)] {body : BodyKind} {blocks : OpenBlocks}
variable {members : MemberList Expr}
include hΛ hexpr

lemma overloadRest {allowSignature : Bool} {op : Token} (hfound : K.Found op)
    (hop : op.kind.isOperator = true) {lead : List Token} {isFunction : Bool}
    (hlead : Keyword .kwFn lead isFunction) :
    K.Reads before ([] ++ [op] ++ lead) (do
      let start ← peek
      let function ← Production.functionRest expr op.ident allowSignature
      match arityProblem? op.kind function.params.length with
      | some (code, message) => Parse.refuse code (← spanFrom start.span) message
      | none => return (⟨op.text, function⟩ : Overload Expr))
      (OverloadPhrase Λ allowSignature) := by
  refine .peek_bind fun start _ => ahead ?_
  refine .bind_part (functionRest hΛ fun least => (hexpr least).past _) fun ts function h => ?_
  split
  · exact .spanFrom_bind fun _ => .refuse
  · next harity => exact .pure (.mk (hΛ.token hfound) hop hlead h harity) rfl

lemma operatorOverload {allowSignature : Bool} :
    K.Reads before [] (operatorOverload expr allowSignature)
      (OverloadPhrase Λ allowSignature) := by
  refine .accept_bind (fun _ => rfl) fun op a hfound ha => ?_
  split at ha <;> cases ha
  next hop =>
  rw [discard_eq, bind_assoc]
  refine .eat_bind ?_ fun t ht => ?_
  · exact overloadRest hΛ hexpr hfound hop .absent
  · exact overloadRest hΛ hexpr hfound hop (.present ht)

omit [∀ least, Steady (expr least)] in
lemma propertyRest {start : Token} {lead : List Token} {isConstant : Bool} {kind : DeclKind}
    (hlead : Keyword .kwConst lead isConstant)
    (hkind : kind = if isConstant then .constant else .variable) :
    K.Reads before ([] ++ lead) (do
      let declared ← Production.declarationBody expr kind
      match propertyProblem? body members declared with
      | some (code, message) => Parse.refuse code start.span message
      | none => return declared) (PropertyPhrase Λ body members) := by
  subst hkind
  refine .bind_part (declarationBody hΛ fun least => (hexpr least).past _) fun ts declared h => ?_
  split
  · exact .refuse
  · next hproblem => exact .pure (.mk hlead h hproblem) rfl

omit [∀ least, Steady (expr least)] in
lemma propertyMember :
    K.Reads before [] (propertyMember expr body members) (PropertyPhrase Λ body members) := by
  refine .peek_bind fun start _ => ahead ?_
  rw [propertyKind, bind_assoc]
  refine .eat_bind ?_ fun t ht => ?_
  · rw [if_neg Bool.false_ne_true, pure_bind]
    exact propertyRest hΛ hexpr .absent rfl
  · rw [if_pos rfl, pure_bind]
    exact propertyRest hΛ hexpr (.present ht) rfl

lemma memberItem {scope : Scope} {visibility : Visibility} :
    K.Reads before [] (memberItem expr body scope visibility members)
      (ItemPhrase Λ body scope visibility members) := by
  refine .eat_bind (.eat_bind ?_ fun keyword hkeyword => ?_) fun keyword hkeyword => ?_
  · refine .bind_part (propertyMember hΛ fun least => (hexpr least).past _)
      fun ts declared h => ?_
    exact .pure (.property h) rfl
  · refine .bind_part (operatorOverload hΛ fun least => (hexpr least).past _)
      fun ts overloaded h => ?_
    exact .pure (.overload hkeyword h) rfl
  · refine .bind_part (namedFunction hΛ fun least => (hexpr least).past _) ?_
    rintro _ function ⟨name, us, hname, rfl, h⟩
    exact .pure (.method hkeyword hname h) rfl

lemma member :
    K.Reads before [] (member expr body blocks members) (MemberPhrase Λ body blocks members) := by
  refine .peek_bind fun first _ => ahead (.checkMemberStart_bind ?_)
  have hread : K.Reads before [] (Production.privacy body blocks) (PrivacyPhrase body blocks) :=
    privacy
  refine .bind hread fun ts m hprivacy => ?_
  cases m with
  | opened inner => exact .pure (.privacyBlock hprivacy) rfl
  | member visibility =>
    refine .bind_part staticness fun us m hstatic => ?_
    cases m with
    | opened inner => exact .pure (.staticBlock hprivacy hstatic) rfl
    | member scope =>
      refine .bind_part (memberItem hΛ fun least => (hexpr least).past _) fun vs added h => ?_
      exact .pure (.item hprivacy hstatic h) rfl

omit hΛ hexpr [∀ least, Steady (expr least)] in
lemma memberEnd_then {α : Type} {m : Parse α} {P : List Token → α → Prop}
    (h : K.ReadsPast before m P)
    (hclose : K.ReadsIf (·.kind = .rightBrace) before [] m fun ts a =>
      P ts a ∧ ∃ right rest, right.kind = .rightBrace ∧ ts = right :: rest) :
    K.Reads before [] (do memberEnd; m) fun ts a =>
      ∃ sep us, Separator sep us ∧ ts = sep ++ us ∧ P us a := by
  refine enumItemEnd_bind (fun comma hcomma => ?_) (hclose.mono ?_)
  · exact .part (h _) fun us a ha => ⟨[comma], us, .comma hcomma, rfl, ha⟩
  · rintro _ a ⟨ha, right, rest, hright, rfl⟩
    exact ⟨[], _, .closing hright, rfl, ha⟩

omit hΛ hexpr [∀ least, Steady (expr least)] in
lemma closingBrace {fuel : Nat} {right : Token} (hright : right.kind = .rightBrace)
    (hnext : ∀ outer, K.Reads (before ++ [right]) [] (do
      memberEnd
      membersWithin expr body fuel outer members) fun ts result =>
        ∃ sep us, Separator sep us ∧ ts = sep ++ us ∧
          MembersPhrase Λ body outer members us result) :
    K.Reads before [right] (match blocks with
      | [] => return members
      | _ :: outer => do
        memberEnd
        membersWithin expr body fuel outer members) fun ts result =>
          MembersPhrase Λ body blocks members ts result ∧
            ∃ right rest, right.kind = .rightBrace ∧ ts = right :: rest := by
  cases blocks with
  | nil => exact .pure ⟨.done hright, right, [], hright, rfl⟩ rfl
  | cons block outer =>
    refine .part (hnext outer) ?_
    rintro _ result ⟨sep, us, hsep, rfl, h⟩
    have hleave : MembersPhrase Λ body (block :: outer) members (right :: (sep ++ us)) result :=
      .leave hright hsep h
    exact ⟨hleave, right, _, hright, rfl⟩

/-- The rest of a body is a phrase, and so it is where a brace comes first, which is then the first
token of the phrase. -/
lemma membersWithin_and_ahead {fuel : Nat}
    (hfuel : K.Affords before fuel) :
    K.Reads before [] (membersWithin expr body fuel blocks members)
        (MembersPhrase Λ body blocks members) ∧
      K.ReadsIf (·.kind = .rightBrace) before []
        (membersWithin expr body fuel blocks members) fun ts result =>
          MembersPhrase Λ body blocks members ts result ∧
            ∃ right rest, right.kind = .rightBrace ∧ ts = right :: rest := by
  induction fuel generalizing before blocks members with
  | zero => exact ⟨.exhausted (by simpa using hfuel), .exhausted (by simpa using hfuel)⟩
  | succ fuel ih =>
    have hlater : ∀ {since : List Token}, since ≠ [] →
        K.Affords (before ++ since) fuel :=
      hfuel.append
    have hnext : ∀ {since : List Token}, since ≠ [] → ∀ blocks members,
        K.Reads (before ++ since) [] (do
          memberEnd
          membersWithin expr body fuel blocks members) fun ts result =>
            ∃ sep us, Separator sep us ∧ ts = sep ++ us ∧
              MembersPhrase Λ body blocks members us result := by
      intro since hne blocks members
      refine memberEnd_then (fun us => ?_) (ih (fun least => (hexpr least).past _) (hlater hne)).2
      rw [List.append_assoc]
      exact (ih (fun least => (hexpr least).past _)
        (hlater (List.append_ne_nil_of_left_ne_nil hne us))).1
    have hclose : ∀ right : Token, ∀ outer, _ := fun right outer =>
      hnext (List.cons_ne_nil right []) outer members
    constructor
    · refine .eat_bind ?_ fun right hright =>
        (closingBrace hright (hclose right)).mono fun _ _ h => h.1
      have hmember : K.ReadsPast before (Production.member expr body blocks members)
          (MemberPhrase Λ body blocks members) :=
        fun since => .member hΛ fun least => (hexpr least).past since
      refine .bind_past hmember.ne_nil ?_
      rintro ts m ⟨hm, hne⟩
      cases m with
      | opened inner =>
        refine .part (ih (fun least => (hexpr least).past _) (hlater hne)).1 fun us result h => ?_
        exact .enter hm h
      | member added =>
        refine .part (hnext hne blocks added) ?_
        rintro _ result ⟨sep, us, hsep, rfl, h⟩
        rw [List.nil_append, ← List.append_assoc]
        exact .member hm hsep h
    · refine .eat_bind ?_ fun right hright _ => closingBrace hright (hclose right)
      rintro ⟨_, ht, hne⟩
      exact absurd ht hne

lemma memberList :
    K.Reads before [] (memberList expr body) (MembersPhrase Λ body [] .empty) :=
  .read_bind (membersWithin_and_ahead hΛ hexpr (K.affords_limit _)).1

end Members

/-! ## Classes and traits -/

section Definitions

variable (hΛ : Λ.Grounded K)
include hΛ

/-- Where no pattern is read that is a name, the parser goes back and fails. -/
lemma definitionName {body : BodyKind} :
    K.Reads before [] (definitionName body) fun ts name =>
      ∃ t : Token, t.kind = .identifier ∧ ts = [t] ∧ name = t.ident := by
  intro s hs
  have hpattern := pattern_phrase hΛ s hs
  rw [List.append_nil] at hs
  have hback : ∀ {s' : Stream}, K.Holds before s' →
      K.Outcome before [] (fun ts name => ∃ t : Token, t.kind = .identifier ∧ ts = [t] ∧
        name = t.ident)
        ((Parse.refuseNext body.badName.1 body.badName.2 : Parse Ident) K.session
          { s' with index := s.index }) := by
    intro s' hholds
    refine Reads.refuseNext { s' with index := s.index } ⟨?_, ?_⟩
    · rw [List.append_nil]
      exact hholds.moved _
    · rw [List.append_nil]
      exact hs.index
  rw [definitionName_apply]
  cases hrun : Production.pattern K.session s with
  | ok p s' =>
    rw [hrun] at hpattern
    obtain ⟨ts, hat, hp⟩ := hpattern
    dsimp only
    cases hp with
    | name hname => exact ⟨_, hat, _, hname, rfl, rfl⟩
    | named => exact hback (hat.toHolds.of_prefix (List.prefix_append _ _))
    | list => exact hback (hat.toHolds.of_prefix (List.prefix_append _ _))
    | object => exact hback (hat.toHolds.of_prefix (List.prefix_append _ _))
  | error d s' =>
    rw [hrun] at hpattern
    dsimp only
    by_cases hstage : d.stage = .parser
    · rw [if_pos hstage]
      rcases hpattern with hfailed | ⟨hholds, -⟩
      · exact hfailed.refuseNext
      · rw [List.append_nil] at hholds
        exact hback hholds
    · rw [if_neg hstage]
      exact hpattern

lemma definitionParams :
    K.Reads before [] definitionParams fun ts params =>
      ∃ us left, left.kind = .leftBrace ∧ ts = us ++ [left] ∧ TypeParams Λ us params := by
  refine .nextIs_bind (ahead ?_) (ahead ?_)
  · refine .bind_part (typeParams hΛ) fun us params hparams => ?_
    exact .expect_bind fun left hleft => .pure ⟨us, left, hleft, rfl, hparams⟩ rfl
  · exact .expect_bind fun left hleft => .pure ⟨[], left, hleft, rfl, .absent⟩ rfl

variable (hexpr : ∀ least, K.ReadsWithin before (expr least) (Λ.expr least))
variable [∀ least, Steady (expr least)]
include hexpr

lemma classDef : K.Reads before [token] (classDef expr token) (Spelled (Opened Λ .classDef)) := by
  refine .bind_part (definitionName hΛ) ?_
  rintro _ _ ⟨name, hname, rfl, rfl⟩
  refine .bind_part (definitionParams hΛ) ?_
  rintro _ params ⟨ts, left, hleft, rfl, hparams⟩
  refine .bind_part (memberList hΛ fun least => (hexpr least).past (by simp))
    fun us members hmembers => ?_
  exact .spanned_token ⟨.classDef hname hparams hleft hmembers, rfl⟩ rfl (by simp)

omit hΛ hexpr [∀ least, Steady (expr least)] in
lemma traitKeyword {isStructural : Bool} :
    K.Reads before [] (traitKeyword isStructural) fun ts _ =>
      Keyword .kwTrait ts isStructural := by
  rw [Production.traitKeyword]
  split
  · next h =>
    subst h
    rw [discard_eq]
    exact .consume_bind fun keyword hkeyword => .pure (.present hkeyword) rfl
  · next h =>
    rw [Bool.eq_false_iff.mpr h]
    exact .pure .absent rfl

lemma traitDef : K.Reads before [token] (traitDef expr token) (Spelled (Opened Λ .traitDef)) := by
  refine .bind_part traitKeyword fun lead _ hlead => ?_
  refine .bind_part (definitionName hΛ) ?_
  rintro _ _ ⟨name, hname, rfl, rfl⟩
  refine .bind_part (definitionParams hΛ) ?_
  rintro _ params ⟨ts, left, hleft, rfl, hparams⟩
  refine .bind_part (memberList hΛ fun least => (hexpr least).past (by simp))
    fun us members hmembers => ?_
  exact .spanned_token ⟨.traitDef hlead hname hparams hleft hmembers, rfl⟩ rfl (by simp)

end Definitions

end FrontEnd.Setting.Reads
