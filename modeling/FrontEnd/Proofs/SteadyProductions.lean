import FrontEnd.Proofs.Steady

/-!
# Every production is steady

Instances of `Steady` and `Consuming` for the productions of the language. Those of `Consuming` are
given where a loop repeats a production or where a production is looked past.
-/

namespace FrontEnd.Production

open Parse

/-! ## Lists with commas -/

section Comma

variable {α : Type} (close : TokenKind) [Fact close.Inner] (rules : CommaRules)
  (element : Parse α) [Steady element]

instance : Steady (separated close) := by
  unfold separated
  infer_instance

instance (fuel : Nat) : Steady (elements close rules element fuel) := by
  induction fuel with
  | zero => unfold elements; infer_instance
  | succ fuel ih => unfold elements; infer_instance

instance : Steady (commaSeparated close rules element) := by
  unfold commaSeparated
  infer_instance

instance [Consuming element] (fuel : Nat) :
    Consuming (elements close rules element fuel) := by
  cases fuel with
  | zero => unfold elements; infer_instance
  | succ fuel =>
    unfold elements
    exact .eat_else inferInstance (inferInstanceAs (Consuming (_ >>= _)))

instance [Consuming element] : Consuming (commaSeparated close rules element) := by
  unfold commaSeparated
  infer_instance

end Comma

/-! ## Types -/

section Types

variable (param : Parse TypeExpr) [Steady param]

instance : Steady (typeArguments param) := by
  unfold typeArguments
  infer_instance

instance : Steady (typeLayer param) := by
  unfold typeLayer
  infer_instance

instance : Consuming (typeLayer param) := by
  unfold typeLayer
  infer_instance

instance (fuel : Nat) : Steady (typeWithin fuel) := by
  induction fuel with
  | zero => unfold typeWithin; infer_instance
  | succ fuel ih => unfold typeWithin; infer_instance

instance (fuel : Nat) : Consuming (typeWithin fuel) := by
  cases fuel <;> (unfold typeWithin; infer_instance)

instance : Steady typeExpr := by
  unfold typeExpr
  infer_instance

instance : Consuming typeExpr := by
  unfold typeExpr
  infer_instance

instance : Steady implementedBounds := by
  unfold implementedBounds
  infer_instance

instance : Steady extendingBounds := by
  unfold extendingBounds
  infer_instance

instance : Steady implementingBounds := by
  unfold implementingBounds
  infer_instance

instance : Steady typeParam := by
  unfold typeParam
  infer_instance

instance : Consuming typeParam := by
  unfold typeParam
  infer_instance

instance : Steady typeParams := by
  unfold typeParams
  infer_instance

instance : Steady optionalTypeParams := by
  unfold optionalTypeParams
  infer_instance

instance : Steady optionalType := by
  unfold optionalType
  infer_instance

end Types

/-! ## Patterns -/

section Patterns

variable (sub : Parse Pattern) [Steady sub]

instance : Steady (objectField sub) := by
  unfold objectField
  infer_instance

instance : Consuming (objectField sub) := by
  unfold objectField
  infer_instance

instance (opening : PatternOpening) (token : Token) :
    Steady (openedPattern sub opening token) := by
  cases opening <;> (unfold openedPattern; infer_instance)

lemma spares_pattern {σ : Session} (hσ : σ.grammar = .standard) :
    Spares fun t => (σ.grammar.pattern? t.kind).map (t, ·) where
  end_eq_none t ht := by
    have hkind : t.kind = .endOfInput := by simpa [Token.isEnd] using ht
    rw [hσ, hkind]
    rfl

instance : Steady patternOpener where
  keeps {σ _} hσ hinv _ _ _ hI h := by
    have hspares := spares_pattern hσ
    unfold patternOpener at h
    obtain ⟨σ', s₁, hread, haccept⟩ := bind_eq_ok h
    rw [read_apply] at hread
    cases hread
    exact Steady.keeps hσ hinv hI haccept

instance : Consuming patternOpener := by
  unfold patternOpener
  infer_instance

instance : Steady (patternLayer sub) := by
  unfold patternLayer
  infer_instance

instance : Consuming (patternLayer sub) := by
  unfold patternLayer
  infer_instance

instance (fuel : Nat) : Steady (patternWithin fuel) := by
  induction fuel with
  | zero => unfold patternWithin; infer_instance
  | succ fuel ih => unfold patternWithin; infer_instance

instance (fuel : Nat) : Consuming (patternWithin fuel) := by
  cases fuel <;> (unfold patternWithin; infer_instance)

instance : Steady pattern := by
  unfold pattern
  infer_instance

instance : Consuming pattern := by
  unfold pattern
  infer_instance

end Patterns

/-! ## Imports and enumerations -/

section Imports

variable (inner : Parse ImportSection) [Steady inner]

instance : Steady (importList inner) := by
  unfold importList
  infer_instance

instance (name : Ident) : Steady (importName inner name) := by
  unfold importName
  infer_instance

instance : Spares importOpening? where
  end_eq_none t ht := by
    have hkind : t.kind = .endOfInput := by simpa [Token.isEnd] using ht
    simp [importOpening?, hkind]

instance : Steady (importLayer inner) := by
  unfold importLayer
  exact .andThen fun o => by cases o <;> infer_instance

instance : Consuming (importLayer inner) := by
  unfold importLayer
  exact .before fun o => by cases o <;> infer_instance

instance (fuel : Nat) : Steady (importWithin fuel) := by
  induction fuel with
  | zero => unfold importWithin; infer_instance
  | succ fuel ih => unfold importWithin; infer_instance

instance (fuel : Nat) : Consuming (importWithin fuel) := by
  cases fuel <;> (unfold importWithin; infer_instance)

instance (token : Token) : Steady (importing token) := by
  unfold importing
  infer_instance

end Imports

/-! ## Blocks and control flow -/

section Blocks

variable (expr : Precedence → Parse Expr) [∀ p, Steady (expr p)]

instance (token : Token) : Steady (literal token) := by
  unfold literal
  split <;> infer_instance

instance (op : UnaryOp) (token : Token) : Steady (unary expr op token) := by
  unfold unary
  infer_instance

instance (token : Token) : Steady (typeCast expr token) := by
  unfold typeCast
  infer_instance

instance : Steady (blockContent expr) := by
  unfold blockContent
  infer_instance

instance (opened : Token) : Steady (blockBody expr opened) := by
  unfold blockBody
  infer_instance

instance (opened : Token) : Consuming (blockBody expr opened) := by
  unfold blockBody
  infer_instance

instance (context : String) : Steady (expectBlock expr context) := by
  unfold expectBlock
  infer_instance

instance (token : Token) : Steady (block expr token) := by
  unfold block
  infer_instance

instance (token : Token) : Steady (group expr token) := by
  unfold group
  infer_instance

instance (token : Token) : Steady (list expr token) := by
  unfold list
  infer_instance

instance : Steady (entry expr) := by
  unfold entry
  infer_instance

instance : Consuming (entry expr) := by
  unfold entry
  infer_instance

instance (token : Token) : Steady (mapping expr token) := by
  unfold mapping
  infer_instance

instance (nested : Token → Parse Expr) [∀ t, Steady (nested t)] :
    Steady (afterElse expr nested) := by
  unfold afterElse
  exact .andThen fun o => by cases o <;> infer_instance

instance (nested : Token → Parse Expr) [∀ t, Steady (nested t)] :
    Steady (otherwise expr nested) := by
  unfold otherwise
  infer_instance

instance (fuel : Nat) (token : Token) : Steady (conditional expr fuel token) := by
  induction fuel generalizing token with
  | zero => unfold conditional; infer_instance
  | succ fuel ih => unfold conditional; infer_instance

instance (token : Token) : Steady (whileLoop expr token) := by
  unfold whileLoop
  infer_instance

instance (token : Token) : Steady (endlessLoop expr token) := by
  unfold endlessLoop
  infer_instance

instance (kind : TokenKind) (span : Span) : Steady (orTrue expr kind span) := by
  unfold orTrue
  infer_instance

instance (init : Expr) : Steady (iteratingHead expr init) := by
  unfold iteratingHead
  split <;> infer_instance

instance (token : Token) (init : Expr) : Steady (countingHead expr token init) := by
  unfold countingHead
  infer_instance

instance (token : Token) : Steady (forHead expr token) := by
  unfold forHead
  infer_instance

instance (token : Token) : Steady (forLoop expr token) := by
  unfold forLoop
  infer_instance

instance : Steady (optionalValue expr) := by
  unfold optionalValue
  infer_instance

instance : Steady optionalLabel := by
  unfold optionalLabel
  infer_instance

instance (token : Token) : Steady (returning expr token) := by
  unfold returning
  infer_instance

instance (token : Token) : Steady (breaking expr token) := by
  unfold breaking
  infer_instance

instance (token : Token) : Steady (continuing token) := by
  unfold continuing
  infer_instance

instance (token : Token) : Steady (label expr token) := by
  unfold label
  refine .andThen fun _ => .andThen fun target => ?_
  split <;> infer_instance

instance (token : Token) : Steady (binding expr token) := by
  unfold binding
  infer_instance

end Blocks

/-! ## Declarations and functions -/

section Functions

variable (expr : Precedence → Parse Expr) [∀ p, Steady (expr p)]

instance (least : Precedence) : Steady (optionalInit expr least) := by
  unfold optionalInit
  infer_instance

instance (kind : DeclKind) : Steady (declarationBody expr kind) := by
  unfold declarationBody
  refine .andThen fun _ => .andThen fun _ => .andThen fun _ => ?_
  split <;> infer_instance

instance (kind : DeclKind) : Consuming (declarationBody expr kind) := by
  unfold declarationBody
  refine .before fun _ => .andThen fun _ => .andThen fun _ => ?_
  split <;> infer_instance

instance (token : Token) : Steady (declaration expr token) := by
  unfold declaration
  infer_instance

instance : Steady (lambdaParam expr) := by
  unfold lambdaParam
  infer_instance

instance : Consuming (lambdaParam expr) := by
  unfold lambdaParam
  infer_instance

instance (token : Token) : Steady (lambdaParams expr token) := by
  unfold lambdaParams
  infer_instance

instance (token : Token) : Steady (lambda expr token) := by
  unfold lambda
  infer_instance

instance : Steady (parameter expr) := by
  unfold parameter
  infer_instance

instance : Consuming (parameter expr) := by
  unfold parameter
  infer_instance

instance : Steady (parameters expr) := by
  unfold parameters
  infer_instance

instance : Steady returnType := by
  unfold returnType
  infer_instance

instance (allowSignature : Bool) : Steady (signatureEnd allowSignature) := by
  unfold signatureEnd
  infer_instance

instance (allowSignature : Bool) (opened : Token) :
    Steady (functionBody expr allowSignature opened) := by
  unfold functionBody
  infer_instance

instance (name : Ident) (allowSignature : Bool) :
    Steady (functionRest expr name allowSignature) := by
  unfold functionRest
  infer_instance

instance (name : Ident) (allowSignature : Bool) :
    Consuming (functionRest expr name allowSignature) := by
  unfold functionRest
  infer_instance

instance (allowSignature : Bool) : Steady (namedFunction expr allowSignature) := by
  unfold namedFunction
  infer_instance

instance (allowSignature : Bool) : Consuming (namedFunction expr allowSignature) := by
  unfold namedFunction
  infer_instance

instance (token : Token) : Steady (function expr token) := by
  unfold function
  infer_instance

end Functions

/-! ## Enumerations -/

section Enums

instance : Steady checkEnumComma := by
  unfold checkEnumComma
  infer_instance

instance (close : TokenKind) (context : String) : Steady (enumItemEnd close context) := by
  unfold enumItemEnd
  infer_instance

instance {α : Type} (close : TokenKind) [Fact close.Inner] (context : String) (item : Parse α)
    [Steady item] (fuel : Nat) : Steady (enumItems close context item fuel) := by
  induction fuel with
  | zero => unfold enumItems; infer_instance
  | succ fuel ih => unfold enumItems; infer_instance

instance {α : Type} (close : TokenKind) [Fact close.Inner] (context : String) (item : Parse α)
    [Steady item] [Consuming item] (fuel : Nat) :
    Consuming (enumItems close context item fuel) := by
  cases fuel with
  | zero => unfold enumItems; infer_instance
  | succ fuel =>
    unfold enumItems
    exact .eat_else inferInstance (inferInstanceAs (Consuming (_ >>= _)))

instance : Steady variantFields := by
  unfold variantFields
  infer_instance

instance : Steady optionalFields := by
  unfold optionalFields
  infer_instance

instance : Steady variant := by
  unfold variant
  infer_instance

instance : Consuming variant := by
  unfold variant
  infer_instance

instance : Steady enumVariants := by
  unfold enumVariants
  infer_instance

instance (token : Token) : Steady (enumDef token) := by
  unfold enumDef
  infer_instance

end Enums

/-! ## Classes and traits -/

section Members

variable (expr : Precedence → Parse Expr) [∀ p, Steady (expr p)]

instance (blocks : OpenBlocks) (opening : ModifierBlock) (brace : Token) :
    Steady (openBlock blocks opening brace) := by
  unfold openBlock
  infer_instance

instance (body : BodyKind) (first : Token) : Steady (checkMemberStart body first) := by
  unfold checkMemberStart
  infer_instance

instance (blocks : OpenBlocks) (keyword : Token) : Steady (checkPrivacy blocks keyword) := by
  unfold checkPrivacy
  infer_instance

instance (blocks : OpenBlocks) (keyword : Token) (opening : ModifierBlock)
    (visibility : Visibility) : Steady (afterPrivacy blocks keyword opening visibility) := by
  unfold afterPrivacy
  exact .andThen fun o => by cases o <;> infer_instance

instance (body : BodyKind) (blocks : OpenBlocks) (keyword : Token) :
    Steady (afterPrivate body blocks keyword) := by
  unfold afterPrivate
  infer_instance

instance : Spares privacyKeyword? where
  end_eq_none t ht := by
    have hkind : t.kind = .endOfInput := by simpa [Token.isEnd] using ht
    simp [privacyKeyword?, hkind]

instance (body : BodyKind) (blocks : OpenBlocks) : Steady (privacy body blocks) := by
  unfold privacy
  refine .andThen fun o => ?_
  split <;> infer_instance

instance (blocks : OpenBlocks) (keyword : Token) : Steady (afterStatic blocks keyword) := by
  unfold afterStatic
  exact .andThen fun o => by cases o <;> infer_instance

instance (blocks : OpenBlocks) : Steady (staticness blocks) := by
  unfold staticness
  exact .andThen fun o => by cases o <;> infer_instance

instance : Spares fun t : Token => if t.kind.isOperator then some t else none where
  end_eq_none t ht := by
    have hkind : t.kind = .endOfInput := by simpa [Token.isEnd] using ht
    rw [hkind]
    rfl

instance : Steady overloadedOperator := by
  unfold overloadedOperator
  infer_instance

instance : Consuming overloadedOperator := by
  unfold overloadedOperator
  infer_instance

instance (allowSignature : Bool) : Steady (operatorOverload expr allowSignature) := by
  unfold operatorOverload
  refine .andThen fun _ => .andThen fun _ => .andThen fun _ => .andThen fun _ => ?_
  split <;> infer_instance

instance (allowSignature : Bool) : Consuming (operatorOverload expr allowSignature) := by
  unfold operatorOverload
  refine .before fun _ => .andThen fun _ => .andThen fun _ => .andThen fun _ => ?_
  split <;> infer_instance

instance : Steady propertyKind := by
  unfold propertyKind
  infer_instance

instance (body : BodyKind) (members : MemberList Expr) :
    Steady (propertyMember expr body members) := by
  unfold propertyMember
  refine .andThen fun _ => .andThen fun _ => .andThen fun _ => ?_
  split <;> infer_instance

instance (body : BodyKind) (members : MemberList Expr) :
    Consuming (propertyMember expr body members) := by
  unfold propertyMember
  refine .andThen fun _ => .andThen fun _ => .before fun _ => ?_
  split <;> infer_instance

instance (body : BodyKind) (scope : Scope) (visibility : Visibility)
    (members : MemberList Expr) : Steady (memberItem expr body scope visibility members) := by
  unfold memberItem
  infer_instance

instance (body : BodyKind) (scope : Scope) (visibility : Visibility)
    (members : MemberList Expr) : Consuming (memberItem expr body scope visibility members) := by
  unfold memberItem
  infer_instance

instance (body : BodyKind) (blocks : OpenBlocks) (members : MemberList Expr) :
    Steady (modifiedMember expr body blocks members) := by
  unfold modifiedMember
  refine .andThen fun m => ?_
  split
  · infer_instance
  · refine .andThen fun m => ?_
    split <;> infer_instance

instance (body : BodyKind) (blocks : OpenBlocks) (members : MemberList Expr) :
    Steady (member expr body blocks members) := by
  unfold member
  infer_instance

lemma privacy_opened_lt {body : BodyKind} {blocks opened : OpenBlocks} {σ : Session}
    (hσ : σ.grammar = .standard) {s s' : Stream}
    (h : privacy body blocks σ s = .ok (.opened opened) s') : s.index < s'.index := by
  unfold privacy at h
  obtain ⟨o, s₁, htake, hrest⟩ := bind_eq_ok h
  cases o with
  | none =>
    obtain ⟨heq, -⟩ := pure_eq_ok hrest
    cases heq
  | some keyword =>
    have hlt := lt_of_takeIf htake
    obtain ⟨keyword, visibility⟩ := keyword
    have hle : s₁.index ≤ s'.index := by
      cases visibility with
      | personal => exact Steady.index_le (afterPrivate body blocks keyword) hσ hrest
      | family => exact Steady.index_le (afterPrivacy blocks keyword _ _) hσ hrest
      | everyone => exact Steady.index_le (afterPrivacy blocks keyword _ _) hσ hrest
    omega

lemma staticness_opened_lt {blocks opened : OpenBlocks} {σ : Session}
    (hσ : σ.grammar = .standard) {s s' : Stream}
    (h : staticness blocks σ s = .ok (.opened opened) s') : s.index < s'.index := by
  unfold staticness at h
  obtain ⟨o, s₁, htake, hrest⟩ := bind_eq_ok h
  cases o with
  | none =>
    obtain ⟨heq, -⟩ := pure_eq_ok hrest
    cases heq
  | some keyword =>
    have hlt := lt_of_takeIf htake
    have hle := Steady.index_le (afterStatic blocks keyword) hσ hrest
    omega

/-- A member consumes a token: one of its own, or that of the modifier that opens a block. -/
instance (body : BodyKind) (blocks : OpenBlocks) (members : MemberList Expr) :
    Consuming (modifiedMember expr body blocks members) where
  lt {σ s m s'} hσ h := by
    unfold modifiedMember at h
    obtain ⟨p, s₁, hprivacy, h⟩ := bind_eq_ok h
    cases p with
    | opened blocks' =>
      have hlt := privacy_opened_lt hσ hprivacy
      obtain ⟨-, rfl⟩ := pure_eq_ok h
      exact hlt
    | member visibility =>
      have h₁ := Steady.index_le _ hσ hprivacy
      obtain ⟨q, s₂, hstatic, h⟩ := bind_eq_ok h
      cases q with
      | opened blocks' =>
        have h₂ := staticness_opened_lt hσ hstatic
        obtain ⟨-, rfl⟩ := pure_eq_ok h
        omega
      | member scope =>
        have h₂ := Steady.index_le _ hσ hstatic
        obtain ⟨added, s₃, hitem, h⟩ := bind_eq_ok h
        have h₃ := Consuming.lt hσ hitem
        obtain ⟨-, rfl⟩ := pure_eq_ok h
        omega

instance (body : BodyKind) (blocks : OpenBlocks) (members : MemberList Expr) :
    Consuming (member expr body blocks members) := by
  unfold member
  infer_instance

instance : Steady memberEnd := by
  unfold memberEnd
  infer_instance

instance (body : BodyKind) (fuel : Nat) (blocks : OpenBlocks) (members : MemberList Expr) :
    Steady (membersWithin expr body fuel blocks members) := by
  induction fuel generalizing blocks members with
  | zero => unfold membersWithin; infer_instance
  | succ fuel ih =>
    unfold membersWithin
    refine .andThen fun closed => ?_
    split
    · split <;> infer_instance
    · refine .andThen fun m => ?_
      split <;> infer_instance

instance (body : BodyKind) (fuel : Nat) (blocks : OpenBlocks) (members : MemberList Expr) :
    Consuming (membersWithin expr body fuel blocks members) := by
  cases fuel with
  | zero => unfold membersWithin; infer_instance
  | succ fuel =>
    unfold membersWithin
    refine .eat_else ?_ ?_
    · simp only [if_true]
      split <;> infer_instance
    · simp only [Bool.false_eq_true, if_false]
      refine .before fun m => ?_
      split <;> infer_instance

instance (body : BodyKind) : Steady (memberList expr body) := by
  unfold memberList
  infer_instance

lemma definitionName_apply (body : BodyKind) (σ : Session) (s : Stream) :
    definitionName body σ s =
      match pattern σ s with
      | .ok p s₁ =>
        match p.simpleName? with
        | some name => .ok name s₁
        | none => refuseNext body.badName.1 body.badName.2 σ { s₁ with index := s.index }
      | .error d s₁ =>
        if d.stage = .parser then
          refuseNext body.badName.1 body.badName.2 σ { s₁ with index := s.index }
        else .error d s₁ := by
  unfold definitionName
  rw [bind_apply]
  change (patternName? >>= _) σ s = _
  rw [bind_apply, patternName?]
  cases pattern σ s with
  | ok p s₁ =>
    dsimp only
    cases p.simpleName? <;> rfl
  | error d s₁ =>
    dsimp only
    by_cases hstage : d.stage = .parser
    · rw [if_pos hstage, if_pos hstage]
      rfl
    · rw [if_neg hstage, if_neg hstage]

lemma definitionName_eq_ok {body : BodyKind} {σ : Session} {s s' : Stream} {name : Ident}
    (h : definitionName body σ s = .ok name s') :
    ∃ p, pattern σ s = .ok p s' ∧ p.simpleName? = some name := by
  have hrefuse (s₁ : Stream) :
      (refuseNext body.badName.1 body.badName.2 : Parse Ident) σ s₁ ≠ .ok name s' := by
    intro hrun
    rw [refuseNext_apply] at hrun
    cases hpeek : peek σ s₁ <;> rw [hpeek] at hrun <;> cases hrun
  rw [definitionName_apply] at h
  cases hpattern : pattern σ s with
  | error d s₁ =>
    simp only [hpattern] at h
    split at h
    · exact absurd h (hrefuse _)
    · cases h
  | ok p s₁ =>
    simp only [hpattern] at h
    cases hname : p.simpleName? with
    | none =>
      simp only [hname] at h
      exact absurd h (hrefuse _)
    | some found =>
      simp only [hname, EStateM.Result.ok.injEq] at h
      obtain ⟨rfl, rfl⟩ := h
      exact ⟨p, rfl, hname⟩

lemma definitionName_of_ok {body : BodyKind} {σ : Session} {s s' : Stream} {p : Pattern}
    {name : Ident} (hpattern : pattern σ s = .ok p s') (hname : p.simpleName? = some name) :
    definitionName body σ s = .ok name s' := by
  rw [definitionName_apply, hpattern]
  dsimp only
  rw [hname]

instance (body : BodyKind) : Steady (definitionName body) where
  keeps hσ hinv _ _ _ hI h := by
    obtain ⟨p, hpattern, -⟩ := definitionName_eq_ok h
    exact Steady.keeps hσ hinv hI hpattern

instance : Steady definitionParams := by
  unfold definitionParams
  infer_instance

instance (token : Token) : Steady (classDef expr token) := by
  unfold classDef
  infer_instance

instance (isStructural : Bool) : Steady (traitKeyword isStructural) := by
  unfold traitKeyword
  infer_instance

instance (token : Token) : Steady (traitDef expr token) := by
  unfold traitDef
  infer_instance

end Members

/-! ## Continuations -/

section Operators

variable (expr : Precedence → Parse Expr) [∀ p, Steady (expr p)]

instance (op : BinaryOp) (left : Expr) : Steady (binary expr op left) := by
  unfold binary
  infer_instance

instance (op : PostOp) (operand : Expr) : Steady (post op operand) := by
  unfold post
  infer_instance

instance (object : Expr) : Steady (property object) := by
  unfold property
  infer_instance

instance : Steady argumentName where
  keeps hσ hinv s o s' hI h := by
    rw [argumentName_apply] at h
    cases hpeek : peek _ s with
    | error d s₁ => rw [hpeek] at h; cases h
    | ok t s₁ =>
      have hI₁ := Steady.keeps hσ hinv hI hpeek
      obtain ⟨-, lexed, hlexed, rfl⟩ := peek_eq_ok hpeek
      simp only [hpeek] at h
      by_cases hname : lexed.token.kind = .identifier
      · rw [if_pos hname] at h
        cases hahead : peekAhead 1 _ s₁ with
        | error d s₂ => rw [hahead] at h; cases h
        | ok t' s₂ =>
          have hI₂ := Steady.keeps hσ hinv hI₁ hahead
          obtain ⟨hindex, lexed', hlexed', rfl⟩ := peekAhead_eq_ok hahead
          simp only [hahead] at h
          by_cases hcolon : lexed'.token.kind = .colon
          · rw [if_pos hcolon] at h
            cases h
            have hfirst : s₂.buffer[s₂.index]? = some lexed := by
              rw [hindex]
              exact peekAhead_buffer hahead hlexed
            have hI₃ := hinv.step hI₂ hfirst (by simp [Token.isEnd, hname])
            exact hinv.step hI₃ hlexed' (by simp [Token.isEnd, hcolon])
          · rw [if_neg hcolon] at h
            cases h
            exact hI₂
      · rw [if_neg hname] at h
        cases h
        exact hI₁

instance : Steady (argument expr) := by
  unfold argument
  infer_instance

instance [∀ p, Consuming (expr p)] : Consuming (argument expr) := by
  unfold argument
  infer_instance

instance (callee : Expr) : Steady (call expr callee) := by
  unfold call
  infer_instance

instance (object : Expr) : Steady (element expr object) := by
  unfold element
  infer_instance

instance : Steady (moreStatements expr) := by
  unfold moreStatements
  infer_instance

instance (first : Expr) : Steady (statement expr first) := by
  unfold statement
  infer_instance

instance (target : Expr) (token : Token) : Steady (assignment expr target token) := by
  unfold assignment
  infer_instance

instance (continuation : Continuation) (left : Expr) (token : Token) :
    Steady (continued expr continuation left token) := by
  cases continuation <;> (unfold continued; infer_instance)

end Operators

/-! ## Expressions -/

section Expressions

variable (expr : Precedence → Parse Expr) [∀ p, Steady (expr p)]

instance (opening : Opening) (token : Token) : Steady (opened expr opening token) := by
  cases opening <;> (unfold opened; infer_instance)

lemma spares_opening {σ : Session} (hσ : σ.grammar = .standard) :
    Spares fun t =>
      ((σ.grammar.opening? t.kind).filter (·.accepts t)).map (t, ·) where
  end_eq_none t ht := by
    have hkind : t.kind = .endOfInput := by simpa [Token.isEnd] using ht
    rw [hσ, hkind]
    rfl

instance : Steady opener where
  keeps hσ hinv _ _ _ hI h := by
    have hspares := spares_opening hσ
    unfold opener at h
    obtain ⟨σ', s₁, hread, haccept⟩ := bind_eq_ok h
    rw [read_apply] at hread
    cases hread
    exact Steady.keeps hσ hinv hI haccept

instance : Consuming opener := by
  unfold opener
  infer_instance

lemma spares_continuation {σ : Session} (hσ : σ.grammar = .standard) (least : Precedence) :
    Spares fun t =>
      ((σ.grammar.continuation? t.kind).filter (·.level.exceeds least)).map (t, ·) where
  end_eq_none t ht := by
    have hkind : t.kind = .endOfInput := by simpa [Token.isEnd] using ht
    rw [hσ, hkind]
    rfl

instance (least : Precedence) : Steady (continuer least) where
  keeps hσ hinv _ _ _ hI h := by
    have hspares := spares_continuation hσ least
    unfold continuer at h
    obtain ⟨σ', s₁, hread, htake⟩ := bind_eq_ok h
    rw [read_apply] at hread
    cases hread
    exact Steady.keeps hσ hinv hI htake

instance (least : Precedence) (fuel : Nat) (left : Expr) :
    Steady (extend expr least fuel left) := by
  induction fuel generalizing left with
  | zero => unfold extend; infer_instance
  | succ fuel ih =>
    unfold extend
    refine .andThen fun o => ?_
    split <;> infer_instance

instance (least : Precedence) (token : Token) (opening : Opening) :
    Steady (expressionFrom expr least token opening) := by
  unfold expressionFrom
  infer_instance

instance (least : Precedence) : Steady (expressionLayer expr least) := by
  unfold expressionLayer
  infer_instance

instance (least : Precedence) : Consuming (expressionLayer expr least) := by
  unfold expressionLayer
  infer_instance

instance (fuel : Nat) (least : Precedence) : Steady (expressionWithin fuel least) := by
  induction fuel generalizing least with
  | zero => unfold expressionWithin; infer_instance
  | succ fuel ih => unfold expressionWithin; infer_instance

instance (fuel : Nat) (least : Precedence) : Consuming (expressionWithin fuel least) := by
  cases fuel <;> (unfold expressionWithin; infer_instance)

instance (least : Precedence) : Steady (expression least) := by
  unfold expression
  infer_instance

instance (least : Precedence) : Consuming (expression least) := by
  unfold expression
  infer_instance

end Expressions

end FrontEnd.Production
