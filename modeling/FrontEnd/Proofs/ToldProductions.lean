import FrontEnd.Proofs.Told

/-!
# Every production is told of

Instances of `Told` for the productions of the language. The messages of lists with commas and of
members have codes for errors that have nothing to do with names of definitions. The places where a
production warns, looks past a token or reads the name of a definition are those that an account is
asked about. A name is read right behind its keyword, so what is opened by a keyword is told of
where that was consumed last. Only expressions read names of definitions, not types and patterns.
-/

namespace FrontEnd.Production

open Parse

variable {names : Prop}

/-! ## Lists with commas -/

/-- Messages of a list with commas that have codes for errors. -/
class CommaRules.Plain (rules : CommaRules) : Prop where
  leading : rules.leading.1.Plain
  separator : rules.separator.1.Plain

section Comma

variable {α : Type} (close : TokenKind) (rules : CommaRules) [hrules : rules.Plain]
  (element : Parse α) [Told names element]

instance : Told names (separated close) := by
  unfold separated
  infer_instance

instance (fuel : Nat) : Told names (elements close rules element fuel) := by
  have hleading : Fact rules.leading.1.Plain := ⟨hrules.leading⟩
  have hseparator : Fact rules.separator.1.Plain := ⟨hrules.separator⟩
  induction fuel with
  | zero => unfold elements; infer_instance
  | succ fuel ih => unfold elements; infer_instance

instance : Told names (commaSeparated close rules element) := by
  unfold commaSeparated
  infer_instance

end Comma

instance : typeRules.Plain := ⟨trivial, trivial⟩

instance : listPatternRules.Plain := ⟨trivial, trivial⟩

instance : objectPatternRules.Plain := ⟨trivial, trivial⟩

instance : importRules.Plain := ⟨trivial, trivial⟩

instance : listRules.Plain := ⟨trivial, trivial⟩

instance : mapRules.Plain := ⟨trivial, trivial⟩

instance : parameterRules.Plain := ⟨trivial, trivial⟩

instance : lambdaRules.Plain := ⟨trivial, trivial⟩

instance : argumentRules.Plain := ⟨trivial, trivial⟩

instance : indexRules.Plain := ⟨trivial, trivial⟩

/-! ## Types -/

section Types

variable (param : Parse TypeExpr) [Told names param]

instance : Told names (typeArguments param) := by
  unfold typeArguments
  infer_instance

instance : Told names (typeLayer param) := by
  unfold typeLayer
  infer_instance

instance (fuel : Nat) : Told names (typeWithin fuel) := by
  induction fuel with
  | zero => unfold typeWithin; infer_instance
  | succ fuel ih => unfold typeWithin; infer_instance

instance : Told names typeExpr := by
  unfold typeExpr
  infer_instance

instance : Told names implementedBounds := by
  unfold implementedBounds
  infer_instance

instance : Told names extendingBounds := by
  unfold extendingBounds
  infer_instance

instance : Told names implementingBounds := by
  unfold implementingBounds
  infer_instance

instance : Told names typeParam := by
  unfold typeParam
  infer_instance

instance : Told names typeParams := by
  unfold typeParams
  infer_instance

instance : Told names optionalTypeParams := by
  unfold optionalTypeParams
  infer_instance

instance : Told names optionalType := by
  unfold optionalType
  infer_instance

end Types

/-! ## Patterns -/

section Patterns

variable (sub : Parse Pattern) [Told names sub]

instance : Told names (objectField sub) := by
  unfold objectField
  infer_instance

instance (opening : PatternOpening) (token : Token) :
    Told names (openedPattern sub opening token) := by
  cases opening <;> (unfold openedPattern; infer_instance)

instance : Blames noPattern where
  fault _ := .grammatical trivial _ _

instance : Told names patternOpener := by
  unfold patternOpener
  infer_instance

instance : Told names (patternLayer sub) := by
  unfold patternLayer
  infer_instance

instance (fuel : Nat) : Told names (patternWithin fuel) := by
  induction fuel with
  | zero => unfold patternWithin; infer_instance
  | succ fuel ih => unfold patternWithin; infer_instance

instance : Told names pattern := by
  unfold pattern
  infer_instance

end Patterns

/-! ## Imports and enumerations -/

section Imports

variable (inner : Parse ImportSection) [Told names inner]

instance : Told names (importList inner) := by
  unfold importList
  infer_instance

instance (name : Ident) : Told names (importName inner name) := by
  unfold importName
  infer_instance

instance : Told names (importLayer inner) := by
  unfold importLayer
  exact .andThen fun o => by cases o <;> infer_instance

instance (fuel : Nat) : Told names (importWithin fuel) := by
  induction fuel with
  | zero => unfold importWithin; infer_instance
  | succ fuel ih => unfold importWithin; infer_instance

instance (token : Token) : Told names (importing token) := by
  unfold importing
  infer_instance

end Imports

/-! ## Blocks and control flow -/

section Blocks

variable (expr : Precedence → Parse Expr) [∀ p, Told names (expr p)]

instance (token : Token) : Told names (literal token) := by
  unfold literal
  split <;> infer_instance

instance (op : UnaryOp) (token : Token) : Told names (unary expr op token) := by
  unfold unary
  infer_instance

instance (token : Token) : Told names (typeCast expr token) := by
  unfold typeCast
  infer_instance

instance : Told names (blockContent expr) := by
  unfold blockContent
  infer_instance

instance (opened : Token) : Told names (blockBody expr opened) := by
  unfold blockBody
  infer_instance

instance (context : String) : Told names (expectBlock expr context) := by
  unfold expectBlock
  infer_instance

instance (token : Token) : Told names (block expr token) := by
  unfold block
  infer_instance

instance (token : Token) : Told names (group expr token) := by
  unfold group
  infer_instance

instance (token : Token) : Told names (list expr token) := by
  unfold list
  infer_instance

instance : Told names (entry expr) := by
  unfold entry
  infer_instance

instance (token : Token) : Told names (mapping expr token) := by
  unfold mapping
  infer_instance

instance (nested : Token → Parse Expr) [∀ t, Told names (nested t)] :
    Told names (afterElse expr nested) := by
  unfold afterElse
  exact .andThen fun o => by cases o <;> infer_instance

instance (nested : Token → Parse Expr) [∀ t, Told names (nested t)] :
    Told names (otherwise expr nested) := by
  unfold otherwise
  infer_instance

instance (fuel : Nat) (token : Token) : Told names (conditional expr fuel token) := by
  induction fuel generalizing token with
  | zero => unfold conditional; infer_instance
  | succ fuel ih => unfold conditional; infer_instance

instance (token : Token) : Told names (whileLoop expr token) := by
  unfold whileLoop
  infer_instance

instance (token : Token) : Told names (endlessLoop expr token) := by
  unfold endlessLoop
  infer_instance

instance (kind : TokenKind) (span : Span) : Told names (orTrue expr kind span) := by
  unfold orTrue
  infer_instance

instance (init : Expr) : Told names (iteratingHead expr init) := by
  unfold iteratingHead
  split <;> infer_instance

instance (token : Token) (init : Expr) : Told names (countingHead expr token init) := by
  unfold countingHead
  infer_instance

instance (token : Token) : Told names (forHead expr token) := by
  unfold forHead
  infer_instance

instance (token : Token) : Told names (forLoop expr token) := by
  unfold forLoop
  infer_instance

instance : Told names (optionalValue expr) := by
  unfold optionalValue
  infer_instance

instance : Told names optionalLabel := by
  unfold optionalLabel
  infer_instance

instance (token : Token) : Told names (returning expr token) := by
  unfold returning
  infer_instance

instance (token : Token) : Told names (breaking expr token) := by
  unfold breaking
  infer_instance

instance (token : Token) : Told names (continuing token) := by
  unfold continuing
  infer_instance

instance (token : Token) : Told names (label expr token) := by
  unfold label
  refine .andThen fun _ => .andThen fun target => ?_
  split <;> infer_instance

instance (token : Token) : Told names (binding expr token) := by
  unfold binding
  infer_instance

end Blocks

/-! ## Declarations and functions -/

section Functions

variable (expr : Precedence → Parse Expr) [∀ p, Told names (expr p)]

instance (least : Precedence) : Told names (optionalInit expr least) := by
  unfold optionalInit
  infer_instance

instance (kind : DeclKind) : Told names (declarationBody expr kind) := by
  unfold declarationBody
  refine .andThen fun _ => .andThen fun _ => .andThen fun _ => ?_
  split <;> infer_instance

instance (token : Token) : Told names (declaration expr token) := by
  unfold declaration
  infer_instance

instance : Told names (lambdaParam expr) := by
  unfold lambdaParam
  infer_instance

instance (token : Token) : Told names (lambdaParams expr token) := by
  unfold lambdaParams
  infer_instance

instance (token : Token) : Told names (lambda expr token) := by
  unfold lambda
  infer_instance

instance : Told names (parameter expr) := by
  unfold parameter
  infer_instance

instance : Blames noParameters where
  fault _ := .grammatical trivial _ _

instance : Told names (parameters expr) := by
  unfold parameters
  infer_instance

instance : Told names returnType := by
  unfold returnType
  infer_instance

instance (allowSignature : Bool) : Told names (signatureEnd allowSignature) := by
  unfold signatureEnd
  infer_instance

instance (allowSignature : Bool) (opened : Token) :
    Told names (functionBody expr allowSignature opened) := by
  unfold functionBody
  infer_instance

instance (name : Ident) (allowSignature : Bool) :
    Told names (functionRest expr name allowSignature) := by
  unfold functionRest
  infer_instance

instance (allowSignature : Bool) : Told names (namedFunction expr allowSignature) := by
  unfold namedFunction
  infer_instance

instance (token : Token) : Told names (function expr token) := by
  unfold function
  infer_instance

end Functions

/-! ## Enumerations -/

section Enums

instance : Told names checkEnumComma := by
  unfold checkEnumComma
  infer_instance

instance (close : TokenKind) (context : String) : Told names (enumItemEnd close context) := by
  unfold enumItemEnd
  infer_instance

instance {α : Type} (close : TokenKind) (context : String) (item : Parse α)
    [Told names item] (fuel : Nat) : Told names (enumItems close context item fuel) := by
  induction fuel with
  | zero => unfold enumItems; infer_instance
  | succ fuel ih => unfold enumItems; infer_instance

instance : Told names variantFields := by
  unfold variantFields
  infer_instance

instance : Told names optionalFields := by
  unfold optionalFields
  infer_instance

instance : Told names variant := by
  unfold variant
  infer_instance

instance : Told names enumVariants := by
  unfold enumVariants
  infer_instance

instance (token : Token) : Told names (enumDef token) := by
  unfold enumDef
  infer_instance

end Enums

/-! ## Classes and traits -/

section Members

variable (expr : Precedence → Parse Expr) [∀ p, Told names (expr p)]

instance (blocks : OpenBlocks) (opening : ModifierBlock) (brace : Token) :
    Told names (openBlock blocks opening brace) := by
  unfold openBlock
  infer_instance

instance (body : BodyKind) (first : Token) : Told names (checkMemberStart body first) := by
  have hcomma : Fact body.leadingComma.1.Plain := ⟨by cases body <;> trivial⟩
  have hmember : Fact body.unexpectedMember.Plain := ⟨by cases body <;> trivial⟩
  unfold checkMemberStart
  infer_instance

instance (blocks : OpenBlocks) (keyword : Token) : Told names (checkPrivacy blocks keyword) := by
  unfold checkPrivacy
  infer_instance

instance (blocks : OpenBlocks) (keyword : Token) (opening : ModifierBlock)
    (visibility : Visibility) : Told names (afterPrivacy blocks keyword opening visibility) := by
  unfold afterPrivacy
  exact .andThen fun o => by cases o <;> infer_instance

lemma privacyKeyword?_eq_personal {t keyword : Token}
    (h : privacyKeyword? t = some (keyword, .personal)) : keyword = t ∧ t.kind = .kwPrivate := by
  unfold privacyKeyword? at h
  split at h <;> cases h
  exact ⟨rfl, ‹_›⟩

/-- The keyword that is warned of has just been consumed. -/
instance (body : BodyKind) (blocks : OpenBlocks) : Told names (privacy body blocks) where
  bears {σ A} hA s := by
    rw [Account.Bears, privacy, bind_apply, takeIf_apply]
    obtain ⟨d, s₁, hpeek, hm⟩ | ⟨s₁, lexed, hpeek, hlexed, hm⟩ := hA.peek_cases s
    · rw [hpeek]
      exact hm
    · rw [hpeek]
      have hstep := hA.trans hm (hA.step hlexed)
      dsimp only
      cases hselect : privacyKeyword? lexed.token with
      | none => exact hm
      | some found =>
        obtain ⟨keyword, visibility⟩ := found
        cases visibility with
        | personal =>
          obtain ⟨rfl, hkind⟩ := privacyKeyword?_eq_personal hselect
          dsimp only
          rw [afterPrivate, checkPrivacy, bind_apply]
          by_cases hblocks : blocks.isPrivacy
          · rw [if_pos hblocks]
            exact hA.lose hstep (hA.fault _ (.grammatical trivial _ _))
          · rw [if_neg hblocks]
            exact hA.trans hm (hA.warned body hlexed hkind)
        | everyone =>
          exact hA.after hstep (Told.bears (m := afterPrivacy blocks keyword _ _) hA _)
        | family =>
          exact hA.after hstep (Told.bears (m := afterPrivacy blocks keyword _ _) hA _)

instance (blocks : OpenBlocks) (keyword : Token) : Told names (afterStatic blocks keyword) := by
  unfold afterStatic
  exact .andThen fun o => by cases o <;> infer_instance

instance (blocks : OpenBlocks) : Told names (staticness blocks) := by
  unfold staticness
  exact .andThen fun o => by cases o <;> infer_instance

instance : Blames noOperator where
  fault _ := .grammatical trivial _ _

instance : Told names overloadedOperator := by
  unfold overloadedOperator
  infer_instance

lemma arityProblem?_plain {op : TokenKind} {arity : Nat} {code : Code} {message : String}
    (h : arityProblem? op arity = some (code, message)) : code.Plain := by
  unfold arityProblem? at h
  split at h
  · cases h; trivial
  split at h
  · cases h; trivial
  split at h <;> cases h
  trivial

instance (allowSignature : Bool) : Told names (operatorOverload expr allowSignature) := by
  unfold operatorOverload
  refine .andThen fun _ => .andThen fun _ => .andThen fun _ => .andThen fun _ => ?_
  split
  · next code message hproblem =>
    have hplain : Fact code.Plain := ⟨arityProblem?_plain hproblem⟩
    infer_instance
  · infer_instance

instance : Told names propertyKind := by
  unfold propertyKind
  infer_instance

lemma propertyProblem?_plain {body : BodyKind} {members : MemberList Expr}
    {declared : Declaration Expr} {code : Code} {message : String}
    (h : propertyProblem? body members declared = some (code, message)) : code.Plain := by
  unfold propertyProblem? at h
  split at h
  · cases h; trivial
  split at h <;> cases h
  trivial

instance (body : BodyKind) (members : MemberList Expr) :
    Told names (propertyMember expr body members) := by
  unfold propertyMember
  refine .andThen fun _ => .andThen fun _ => .andThen fun _ => ?_
  split
  · next code message hproblem =>
    have hplain : Fact code.Plain := ⟨propertyProblem?_plain hproblem⟩
    infer_instance
  · infer_instance

instance (body : BodyKind) (scope : Scope) (visibility : Visibility)
    (members : MemberList Expr) : Told names (memberItem expr body scope visibility members) := by
  unfold memberItem
  infer_instance

instance (body : BodyKind) (blocks : OpenBlocks) (members : MemberList Expr) :
    Told names (modifiedMember expr body blocks members) := by
  unfold modifiedMember
  refine .andThen fun m => ?_
  split
  · infer_instance
  · refine .andThen fun m => ?_
    split <;> infer_instance

instance (body : BodyKind) (blocks : OpenBlocks) (members : MemberList Expr) :
    Told names (member expr body blocks members) := by
  unfold member
  infer_instance

instance : Told names memberEnd := by
  unfold memberEnd
  infer_instance

instance (body : BodyKind) (fuel : Nat) (blocks : OpenBlocks) (members : MemberList Expr) :
    Told names (membersWithin expr body fuel blocks members) := by
  induction fuel generalizing blocks members with
  | zero => unfold membersWithin; infer_instance
  | succ fuel ih =>
    unfold membersWithin
    refine .andThen fun closed => ?_
    split
    · split <;> infer_instance
    · refine .andThen fun m => ?_
      split <;> infer_instance

instance (body : BodyKind) : Told names (memberList expr body) := by
  unfold memberList
  infer_instance

instance : Told names definitionParams := by
  unfold definitionParams
  infer_instance

instance (isStructural : Bool) : Told names (traitKeyword isStructural) := by
  unfold traitKeyword
  infer_instance

end Members

/-! ## Names of definitions -/

section Names

variable {σ : Session} {A : Account} {s : Stream} {first keyword : Token}

/-- An account of everything but names also tells of names, if what was read in search of a name may
be read again up to the place of a refusal. -/
lemma lawful_of_refuses (hA : A.Lawful σ False)
    (hrefuses : ∀ {s s₁ : Stream} (body : BodyKind),
      (A.ok s s₁ ∨ ∃ d, d.stage = .parser ∧ A.error s d s₁) →
        A.Tells s ((refuseNext body.badName.1 body.badName.2 : Parse Ident) σ
          { s₁ with index := s.index })) : A.Lawful σ True := by
  refine { hA with name := fun _ {s _ _} body _ _ _ => ?_ }
  have hm := Told.bears (m := pattern) hA s
  unfold Account.Bears at hm ⊢
  rw [definitionName_apply]
  cases hpattern : pattern σ s with
  | ok p s₁ =>
    rw [hpattern] at hm
    dsimp only
    cases p.simpleName? with
    | some name => exact hm
    | none => exact hrefuses body (.inl hm)
  | error d s₁ =>
    rw [hpattern] at hm
    dsimp only
    by_cases hstage : d.stage = .parser
    · rw [if_pos hstage]
      exact hrefuses body (.inr ⟨d, hstage, hm⟩)
    · rw [if_neg hstage]
      exact hm

lemma bears_definition (hA : A.Lawful σ True) {α : Type} {body : BodyKind} {f : Ident → Parse α}
    [∀ name, Told True (f name)] (hs : s.Behind keyword) (hheads : σ.grammar.Heads body keyword)
    (hentered : s.Entered σ first keyword) : A.Bears σ s (definitionName body >>= f) :=
  hA.bind (hA.name trivial body hs hheads hentered) fun _ s₁ _ => Told.bears hA s₁

variable (expr : Precedence → Parse Expr) [∀ p, Told True (expr p)]
variable (hA : A.Lawful σ True) (hs : s.Behind first) (production : String)
include hA hs

lemma bears_classDef (hopening : σ.grammar.opening? first.kind = some .classDef) :
    A.Bears σ (s.record (.enter production first.lexeme first.span)) (classDef expr first) :=
  bears_definition hA hs (show σ.grammar.Heads .ofClass first from hopening) .keyword

lemma bears_traitDef (hopening : σ.grammar.opening? first.kind = some .traitDef) :
    A.Bears σ (s.record (.enter production first.lexeme first.span)) (traitDef expr first) := by
  refine hA.bind (Told.bears hA _) fun _ s₁ hkeyword => ?_
  by_cases hstructural : first.kind = .kwStructural
  · rw [hstructural, beq_self_eq_true] at hkeyword
    have hread := hkeyword
    rw [traitKeyword, if_pos rfl, discard_eq] at hread
    obtain ⟨t, s₂, hconsume, hpure⟩ := bind_eq_ok hread
    cases hpure
    obtain ⟨keyword, hbehind, hselect, hpassed⟩ := Told.behind_of_accept hconsume
    have hkind := (Token.ofKind?_eq_some hselect).1
    exact bears_definition hA hbehind (.inl hkind)
      (.structural hkeyword hstructural hkind (hpassed first hs))
  · rw [traitKeyword, if_neg (by simpa using hstructural)] at hkeyword
    cases hkeyword
    exact bears_definition hA hs (.inr ⟨hstructural, hopening⟩) .keyword

end Names

/-! ## Continuations -/

section Operators

variable (expr : Precedence → Parse Expr) [∀ p, Told names (expr p)]

instance (op : BinaryOp) (left : Expr) : Told names (binary expr op left) := by
  unfold binary
  infer_instance

instance (op : PostOp) (operand : Expr) : Told names (post op operand) := by
  unfold post
  infer_instance

instance (object : Expr) : Told names (property object) := by
  unfold property
  infer_instance

/-- The token behind a name is looked at to tell whether the name is that of an argument. -/
instance : Told names argumentName where
  bears {σ A} hA s := by
    rw [Account.Bears, argumentName_apply]
    obtain ⟨d, s₁, hpeek, hm⟩ | ⟨s₁, lexed, hpeek, hlexed, hm⟩ := hA.peek_cases s
    · rw [hpeek]
      exact hm
    · rw [hpeek]
      dsimp only
      by_cases hname : lexed.token.kind = .identifier
      · have hpast := hA.peekPast hlexed hname
        unfold Account.Bears at hpast
        rw [if_pos hname]
        cases hahead : peekAhead 1 σ s₁ with
        | error d s₂ =>
          rw [hahead] at hpast
          exact hA.lose hm hpast
        | ok t' s₂ =>
          rw [hahead] at hpast
          obtain ⟨hindex, lexed', hlexed', rfl⟩ := peekAhead_eq_ok hahead
          have hfirst : s₂.buffer[s₂.index]? = some lexed := by
            rw [hindex]
            exact peekAhead_buffer hahead hlexed
          dsimp only
          by_cases hcolon : lexed'.token.kind = .colon
          · rw [if_pos hcolon]
            have hstep : A.ok s₂ s₂.step.step := hA.trans (hA.step hfirst) (hA.step hlexed')
            exact hA.trans hm (hA.trans hpast hstep)
          · rw [if_neg hcolon]
            exact hA.trans hm hpast
      · rw [if_neg hname]
        exact hm

instance : Told names (argument expr) := by
  unfold argument
  infer_instance

instance (callee : Expr) : Told names (call expr callee) := by
  unfold call
  infer_instance

instance (object : Expr) : Told names (element expr object) := by
  unfold element
  infer_instance

instance : Told names (moreStatements expr) := by
  unfold moreStatements
  infer_instance

instance (first : Expr) : Told names (statement expr first) := by
  unfold statement
  infer_instance

instance (target : Expr) (token : Token) : Told names (assignment expr target token) := by
  unfold assignment
  infer_instance

instance (continuation : Continuation) (left : Expr) (token : Token) :
    Told names (continued expr continuation left token) := by
  cases continuation <;> (unfold continued; infer_instance)

end Operators

/-! ## Expressions -/

section Expressions

variable (expr : Precedence → Parse Expr) [∀ p, Told True (expr p)]

lemma bears_opened {σ : Session} {A : Account} (hA : A.Lawful σ True) {s : Stream} {token : Token}
    {opening : Opening} (hs : s.Behind token)
    (hopening : σ.grammar.opening? token.kind = some opening) (production : String) :
    A.Bears σ (s.record (.enter production token.lexeme token.span))
      (opened expr opening token) := by
  by_cases hclass : opening = .classDef
  · subst hclass
    exact bears_classDef expr hA hs production hopening
  by_cases htrait : opening = .traitDef
  · subst htrait
    exact bears_traitDef expr hA hs production hopening
  · have htold : Told True (opened expr opening token) := by
      cases opening <;> first | contradiction | (unfold opened; infer_instance)
    exact htold.bears hA _

instance : Blames noExpression where
  fault _ := .grammatical trivial _ _

instance : Told True opener := by
  unfold opener
  infer_instance

instance (least : Precedence) : Told True (continuer least) := by
  unfold continuer
  infer_instance

instance (least : Precedence) (fuel : Nat) (left : Expr) :
    Told True (extend expr least fuel left) := by
  induction fuel generalizing left with
  | zero => unfold extend; infer_instance
  | succ fuel ih =>
    unfold extend
    refine .andThen fun o => ?_
    split <;> infer_instance

instance (least : Precedence) : Told True (expressionLayer expr least) where
  bears {σ A} hA s := by
    refine hA.bind (Told.bears hA s) fun ⟨token, opening⟩ s₁ hopener => ?_
    obtain ⟨t, hbehind, hselect, -⟩ := Told.behind_of_accept hopener
    obtain ⟨opening', hfilter, hpair⟩ := Option.map_eq_some_iff.mp hselect
    cases hpair
    have hopening := (Option.filter_eq_some_iff.mp hfilter).1
    exact hA.bind (hA.traces (bears_opened expr hA hbehind hopening _)) fun _ s₂ _ =>
      Told.bears hA s₂

instance (fuel : Nat) (least : Precedence) : Told True (expressionWithin fuel least) := by
  induction fuel generalizing least with
  | zero => unfold expressionWithin; infer_instance
  | succ fuel ih => unfold expressionWithin; infer_instance

instance (least : Precedence) : Told True (expression least) := by
  unfold expression
  infer_instance

instance : Told True program := by
  unfold program
  infer_instance

end Expressions

end FrontEnd.Production
