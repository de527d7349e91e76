import FrontEnd.Proofs.Coverage

/-!
# Brackets nest

The brackets among the tokens of an expression, a pattern or a type make up a well-nested word. A
body is read behind the brace that opens it, with a stack of modifier blocks: its tokens close all
of them, each with the brace that matches its own, and end with the brace that closes the body.
-/

namespace FrontEnd

open Parse Production

/-! ## Words of brackets -/

/-- The kind of bracket that closes what one of a kind opens. -/
def TokenKind.closer? : TokenKind → Option TokenKind
  | leftParen => some rightParen
  | leftBracket => some rightBracket
  | leftBrace => some rightBrace
  | _ => none

def TokenKind.isBracket : TokenKind → Bool
  | leftParen | rightParen | leftBracket | rightBracket | leftBrace | rightBrace => true
  | _ => false

/-- Words in which every bracket that opens is closed by one of its own sort. -/
inductive WellNested : List TokenKind → Prop where
  | nil : WellNested []
  | enclose {left right inner rest} (hleft : left.closer? = some right) (hinner : WellNested inner)
    (hrest : WellNested rest) : WellNested (left :: (inner ++ right :: rest))

lemma WellNested.append {xs ys : List TokenKind} (h : WellNested xs) (h' : WellNested ys) :
    WellNested (xs ++ ys) := by
  induction h with
  | nil => exact h'
  | @enclose left right inner rest hleft hinner hrest ih ih' =>
    have hword := WellNested.enclose hleft hinner ih'
    simpa only [List.cons_append, List.append_assoc] using hword

def brackets (ts : List Token) : List TokenKind :=
  (ts.map Token.kind).filter TokenKind.isBracket

/-- The brackets among some tokens are well nested. -/
def Balanced (ts : List Token) : Prop :=
  WellNested (brackets ts)

/-- Tokens through one of a kind, behind which nothing is open that was opened before it. -/
def ClosedBy (close : TokenKind) (ts : List Token) : Prop :=
  ∃ inside right, ts = inside ++ [right] ∧ right.kind = close ∧ Balanced inside

section Words

variable {t left : Token} {ts us : List Token} {kind close : TokenKind}

lemma brackets_append : brackets (ts ++ us) = brackets ts ++ brackets us := by
  simp [brackets]

lemma brackets_plain (ht : t.kind = kind) (hkind : kind.isBracket = false) :
    brackets (t :: ts) = brackets ts := by
  simp [brackets, ht, hkind]

lemma TokenKind.isBracket_of_closer? {right : TokenKind} (h : kind.closer? = some right) :
    kind.isBracket = true ∧ right.isBracket = true := by
  cases kind <;> cases h <;> exact ⟨rfl, rfl⟩

namespace Balanced

lemma nil : Balanced [] :=
  WellNested.nil

lemma append (h : Balanced ts) (h' : Balanced us) : Balanced (ts ++ us) := by
  rw [Balanced, brackets_append]
  exact WellNested.append h h'

lemma plain (ht : t.kind = kind) (hkind : kind.isBracket = false) (h : Balanced ts) :
    Balanced (t :: ts) := by
  rwa [Balanced, brackets_plain ht hkind]

lemma enclose (ht : left.kind = kind) (hleft : kind.closer? = some close)
    (h : ClosedBy close ts) : Balanced (left :: ts) := by
  obtain ⟨inside, right, rfl, rfl, hinside⟩ := h
  obtain ⟨hkind, hclose⟩ := TokenKind.isBracket_of_closer? hleft
  have hword : brackets (left :: (inside ++ [right])) =
      kind :: (brackets inside ++ right.kind :: []) := by
    simp [brackets, ht, hkind, hclose]
  rw [Balanced, hword]
  exact .enclose hleft hinside WellNested.nil

end Balanced

namespace ClosedBy

lemma mk {right : Token} (h : Balanced ts) (hright : right.kind = close) :
    ClosedBy close (ts ++ [right]) :=
  ⟨ts, right, rfl, hright, h⟩

lemma after (h : ClosedBy close us) (hts : Balanced ts) : ClosedBy close (ts ++ us) := by
  obtain ⟨inside, right, rfl, hright, hinside⟩ := h
  rw [← List.append_assoc]
  exact .mk (hts.append hinside) hright

lemma balanced (h : ClosedBy close ts) (hclose : close.isBracket = false) : Balanced ts := by
  obtain ⟨inside, right, rfl, hright, hinside⟩ := h
  exact hinside.append (.plain hright hclose .nil)

end ClosedBy

/-- Tokens that close a number of blocks, each with a brace of its own, and then the body around
them. -/
inductive Unwinds : Nat → List Token → Prop where
  | body {xs} (h : ClosedBy .rightBrace xs) : Unwinds 0 xs
  | block {n xs ys} (h : ClosedBy .rightBrace xs) (hrest : Unwinds n ys) :
    Unwinds (n + 1) (xs ++ ys)

lemma Unwinds.after {n : Nat} (h : Unwinds n us) (hts : Balanced ts) :
    Unwinds n (ts ++ us) := by
  cases h with
  | body h => exact .body (h.after hts)
  | block h hrest =>
    rw [← List.append_assoc]
    exact .block (h.after hts) hrest

lemma Unwinds.enter {n : Nat} (h : Unwinds (n + 1) ts)
    (hleft : left.kind = .leftBrace) : Unwinds n (left :: ts) := by
  cases h with
  | block h hrest => exact hrest.after (.enclose hleft rfl h)

end Words

/-! ## Phrases -/

/-- The language of all expressions, patterns, types and paths with balanced tokens. -/
def Language.balanced : Language where
  token _ := True
  expr _ ts _ := Balanced ts
  type ts _ := Balanced ts
  pattern ts _ := Balanced ts
  path ts _ := Balanced ts

section Phrases

variable {ts : List Token}

section Parts

variable {α : Type} {R : List Token → α → Prop} {left close : TokenKind}

lemma Listed.closedBy {as : List α} (h : Listed close R ts as)
    (hR : ∀ {ts a}, R ts a → Balanced ts) : ClosedBy close ts := by
  induction h with
  | done hright => exact .mk .nil hright
  | last ha hright => exact .mk (hR ha) hright
  | more ha hcomma h ih =>
    rw [← List.singleton_append, ← List.append_assoc]
    exact ih.after ((hR ha).append (.plain hcomma rfl .nil))

lemma Bracketed.balanced {as : List α} (h : Bracketed left close R ts as)
    (hleft : left.closer? = some close) (hR : ∀ {ts a}, R ts a → Balanced ts) : Balanced ts := by
  cases h with
  | absent => exact .nil
  | present hopener h => exact .enclose hopener hleft (h.closedBy hR)

lemma Optionally.balanced {o : Option α} (h : Optionally R ts o)
    (hR : ∀ {ts a}, R ts a → Balanced ts) : Balanced ts := by
  cases h with
  | absent => exact .nil
  | present h => exact hR h

lemma Announced.balanced {lead : TokenKind} {o : Option α} (h : Announced lead R ts o)
    (hlead : lead.isBracket = false) (hR : ∀ {ts a}, R ts a → Balanced ts) : Balanced ts := by
  cases h with
  | absent => exact .nil
  | present ht h => exact .plain ht hlead (hR h)

end Parts

/-! ### Types, patterns and paths -/

lemma isBracket_of_isOperator {kind : TokenKind} (h : kind.isOperator = true) :
    kind.isBracket = false := by
  cases kind <;> cases h <;> rfl

lemma TypePhrase.balanced {type : TypeExpr} (h : TypePhrase .balanced ts type) : Balanced ts := by
  obtain ⟨hname, h⟩ := h
  refine .plain hname rfl ?_
  cases h with
  | absent => exact .nil
  | present hleft h hne => exact .enclose hleft rfl (h.closedBy id)

lemma Traits.balanced {types : List TypeExpr} (h : Traits .balanced ts types) : Balanced ts := by
  cases h with
  | single h => exact h
  | several hleft h hne => exact .enclose hleft rfl (h.closedBy id)

lemma TypeParamPhrase.balanced {param : TypeParam} (h : TypeParamPhrase .balanced ts param) :
    Balanced ts := by
  obtain ⟨hname, hextending, himplementing⟩ := h
  exact .plain hname rfl
    (.append (hextending.balanced rfl id) (himplementing.balanced rfl Traits.balanced))

lemma TypeParams.balanced {params : List TypeParam} (h : TypeParams .balanced ts params) :
    Balanced ts :=
  Bracketed.balanced h rfl TypeParamPhrase.balanced

lemma FieldPhrase.balanced {field : Field Pattern} (h : FieldPhrase .balanced ts field) :
    Balanced ts := by
  obtain ⟨hname, h⟩ := h
  exact .plain hname rfl (h.balanced rfl id)

lemma PatternPhrase.balanced {pattern : Pattern} (h : PatternPhrase .balanced ts pattern) :
    Balanced ts := by
  cases h with
  | name hname => exact .plain hname rfl .nil
  | named hsign hname h => exact .plain hsign rfl (.plain hname rfl h)
  | list hleft h => exact .enclose hleft rfl (h.closedBy id)
  | object hleft h => exact .enclose hleft rfl (h.closedBy FieldPhrase.balanced)

lemma PathPhrase.balanced {path : ImportSection} (h : PathPhrase .balanced ts path) :
    Balanced ts := by
  cases h with
  | terminal hname => exact .plain hname rfl .nil
  | renamed hname hkeyword hlocal =>
    exact .plain hname rfl (.plain hkeyword rfl (.plain hlocal rfl .nil))
  | element hname hdot h => exact .plain hname rfl (.plain hdot rfl h)
  | list hleft h hne => exact .enclose hleft rfl (h.closedBy id)

/-! ### Blocks, declarations and functions -/

lemma BlockPhrase.balanced {block : Block Expr} (h : BlockPhrase .balanced ts block) :
    Balanced ts := by
  obtain ⟨hleft, h, hright⟩ := h
  exact .enclose hleft rfl (.mk (h.balanced id) hright)

lemma DeclarationPhrase.balanced {kind : DeclKind} {declared : Declaration Expr}
    (h : DeclarationPhrase .balanced kind ts declared) : Balanced ts := by
  obtain ⟨hpattern, htype, hvalue, -⟩ := h
  exact .append (.append hpattern (htype.balanced rfl id)) (hvalue.balanced rfl id)

lemma ParamPhrase.balanced {param : Param Expr} (h : ParamPhrase .balanced ts param) :
    Balanced ts := by
  obtain ⟨hpattern, hcolon, htype, hvalue⟩ := h
  exact .append (.append hpattern (.plain hcolon rfl htype)) (hvalue.balanced rfl id)

lemma LambdaParamPhrase.balanced {param : Param Expr} (h : LambdaParamPhrase .balanced ts param) :
    Balanced ts := by
  obtain ⟨hpattern, htype, hvalue⟩ := h
  exact .append (.append hpattern (htype.balanced rfl id)) (hvalue.balanced rfl id)

lemma LambdaParams.balanced {params : List (Param Expr)} (h : LambdaParams .balanced ts params)
    (hhead : ∀ t us, ts = t :: us → t.kind.isBracket = false) : Balanced ts := by
  cases h with
  | absent hsign => exact .plain rfl (hhead _ _ rfl) .nil
  | present hsign h =>
    exact .plain hsign rfl ((h.closedBy LambdaParamPhrase.balanced).balanced rfl)

lemma FunctionPhrase.balanced {name : Ident} {allowSignature : Bool} {function : FunctionDef Expr}
    (h : FunctionPhrase .balanced name allowSignature ts function) : Balanced ts := by
  obtain ⟨htypeParams, hleft, hparams, hreturned, hbody⟩ := h
  refine .append (.append (.append htypeParams.balanced ?_) (hreturned.balanced id)) ?_
  · exact .enclose hleft rfl (hparams.closedBy ParamPhrase.balanced)
  · cases hbody with
    | signature hallowed hleft hright => exact .enclose hleft rfl (.mk .nil hright)
    | block h => exact h.balanced

/-! ### Control flow and literals -/

lemma ConditionalPhrase.balanced {e : Expr} (h : ConditionalPhrase .balanced ts e) :
    Balanced ts := by
  induction h with
  | alone hkeyword hcondition hconsequence =>
    exact .plain hkeyword rfl (.append hcondition hconsequence.balanced)
  | otherwise hkeyword hcondition hconsequence hother halternative =>
    exact .plain hkeyword rfl (.append (.append hcondition hconsequence.balanced)
      (.plain hother rfl halternative.balanced))
  | chained hkeyword hcondition hconsequence hother hnested ih =>
    exact .plain hkeyword rfl (.append (.append hcondition hconsequence.balanced)
      (.plain hother rfl ih))

lemma OrTrue.balanced {span : Span} {e : Expr} (h : OrTrue .balanced span ts e) :
    Balanced ts := by
  cases h with
  | omitted => exact .nil
  | written h => exact h

lemma ForHeadPhrase.balanced {span : Span} {head : ForHead Expr}
    (h : ForHeadPhrase .balanced span ts head) : Balanced ts := by
  cases h with
  | iterating hinit hbinding hkeyword hiterable =>
    exact .append hinit.balanced (.plain hkeyword rfl hiterable)
  | counting hinit hcomma hcondition hcomma' hstep =>
    exact .append (.append hinit.balanced (.plain hcomma rfl hcondition.balanced))
      (.plain hcomma' rfl hstep.balanced)

lemma EntryPhrase.balanced {entry : Expr × Expr} (h : EntryPhrase .balanced ts entry) :
    Balanced ts := by
  obtain ⟨hkey, hcolon, hvalue⟩ := h
  exact .append hkey (.plain hcolon rfl hvalue)

lemma ArgumentPhrase.balanced {arg : Argument Expr} (h : ArgumentPhrase .balanced ts arg) :
    Balanced ts := by
  cases h with
  | plain h => exact h
  | named hname hcolon h => exact .plain hname rfl (.plain hcolon rfl h)

lemma VariantPhrase.balanced {variant : Variant} (h : VariantPhrase .balanced ts variant) :
    Balanced ts := by
  obtain ⟨hname, h⟩ := h
  exact .plain hname rfl (h.balanced rfl id)

lemma LabelPhrase.balanced {label : Option String} (h : LabelPhrase ts label) : Balanced ts := by
  cases h with
  | absent => exact .nil
  | present hlabel => exact .plain hlabel rfl .nil

/-! ### Members -/

variable {body : BodyKind} {blocks : OpenBlocks} {members : MemberList Expr}

lemma Keyword.balanced {kind : TokenKind} {present : Bool} (h : Keyword kind ts present)
    (hkind : kind.isBracket = false) : Balanced ts := by
  cases h with
  | absent => exact .nil
  | present hkeyword => exact .plain hkeyword hkind .nil

lemma isBracket_of_privacyBlock? {kind : TokenKind} {block : ModifierBlock × Visibility}
    (h : privacyBlock? kind = some block) : kind.isBracket = false := by
  cases kind <;> cases h <;> rfl

lemma PrivacyPhrase.balanced {visibility : Visibility}
    (h : PrivacyPhrase body blocks ts (.member visibility)) : Balanced ts := by
  cases h with
  | absent => exact .nil
  | personal hkeyword hplain => exact .plain hkeyword rfl .nil
  | shared hkeyword hplain => exact .plain rfl (isBracket_of_privacyBlock? hkeyword) .nil

lemma StaticPhrase.balanced {scope : Scope} (h : StaticPhrase blocks ts (.member scope)) :
    Balanced ts := by
  cases h with
  | absent => exact .nil
  | written hkeyword hplain => exact .plain hkeyword rfl .nil

lemma ItemPhrase.balanced {scope : Scope} {visibility : Visibility} {added : MemberList Expr}
    (h : ItemPhrase .balanced body scope visibility members ts added) : Balanced ts := by
  cases h with
  | method hkeyword hname h => exact .plain hkeyword rfl (.plain hname rfl h.balanced)
  | overload hkeyword h =>
    obtain ⟨-, hop, hlead, h, -⟩ := h
    refine .plain hkeyword rfl (.plain rfl ?_ (.append (hlead.balanced rfl) h.balanced))
    exact isBracket_of_isOperator hop
  | property h =>
    obtain ⟨hlead, h, -⟩ := h
    exact .append (hlead.balanced rfl) h.balanced

/-- Tokens through the brace that opens a modifier block inside those that are open. -/
def OpensBlock (blocks inner : OpenBlocks) (ts : List Token) : Prop :=
  ∃ front left block, ts = front ++ [left] ∧ left.kind = .leftBrace ∧ Balanced front ∧
    inner = block :: blocks

lemma MemberPhrase.opensBlock {inner : OpenBlocks}
    (h : MemberPhrase .balanced body blocks members ts (.opened inner)) :
    OpensBlock blocks inner ts := by
  cases h with
  | privacyBlock h =>
    cases h with
    | opened hkeyword hleft hdepth hnew =>
      exact ⟨[_], _, _, rfl, hleft, .plain rfl (isBracket_of_privacyBlock? hkeyword) .nil, rfl⟩
  | @staticBlock ts _ _ _ hprivacy h =>
    cases h with
    | @opened keyword left hkeyword hleft hdepth hnew =>
      exact ⟨ts ++ [keyword], left, _, by simp, hleft,
        hprivacy.balanced.append (.plain hkeyword rfl .nil), rfl⟩

lemma MemberPhrase.balanced {added : MemberList Expr}
    (h : MemberPhrase .balanced body blocks members ts (.member added)) : Balanced ts := by
  cases h with
  | item hprivacy hstatic h =>
    exact .append (.append hprivacy.balanced hstatic.balanced) h.balanced

lemma Separator.balanced {us : List Token} (h : Separator ts us) : Balanced ts := by
  cases h with
  | comma hcomma => exact .plain hcomma rfl .nil
  | closing hright => exact .nil

lemma MembersPhrase.unwinds {result : MemberList Expr}
    (h : MembersPhrase .balanced body blocks members ts result) : Unwinds blocks.length ts := by
  induction h with
  | done hright => exact .body (.mk .nil hright)
  | leave hright hsep h ih => exact .block (.mk .nil hright) (ih.after hsep.balanced)
  | enter hmember h ih =>
    obtain ⟨front, left, block, rfl, hleft, hfront, rfl⟩ := hmember.opensBlock
    rw [List.append_assoc]
    exact (ih.enter hleft).after hfront
  | member hmember hsep h ih => exact ih.after (.append hmember.balanced hsep.balanced)

lemma MembersPhrase.closedBy {result : MemberList Expr}
    (h : MembersPhrase .balanced body [] members ts result) : ClosedBy .rightBrace ts := by
  have hunwinds := h.unwinds
  cases hunwinds with
  | body h => exact h

/-! ### Expressions -/

lemma bracket_of_opening {kind : TokenKind} {opening : Opening}
    (h : Grammar.standard.opening? kind = some opening) :
    match opening with
    | .block => kind = .leftBrace
    | .group => kind = .leftParen
    | .list => kind = .leftBracket
    | _ => kind.isBracket = false := by
  change Grammar.standardOpening? kind = _ at h
  unfold Grammar.standardOpening? at h
  split at h <;> cases h <;> rfl

lemma bracket_of_continuation {kind : TokenKind} {continuation : Continuation}
    (h : Grammar.standard.continuation? kind = some continuation) :
    match continuation with
    | .call => kind = .leftParen
    | .element => kind = .leftBracket
    | _ => kind.isBracket = false := by
  change Grammar.standardContinuation? kind = _ at h
  unfold Grammar.standardContinuation? at h
  split at h <;> cases h <;> rfl

lemma Opened.balanced {opening : Opening} {form : Form Expr} (h : Opened .balanced opening ts form)
    (hhead : ∀ t us, ts = t :: us → Grammar.standard.opening? t.kind = some opening) :
    Balanced ts := by
  have hopening := fun t us hts => bracket_of_opening (hhead t us hts)
  cases h with
  | identifier => exact .plain rfl (hopening _ _ rfl) .nil
  | unary h => exact .plain rfl (hopening _ _ rfl) h
  | literal => exact .plain rfl (hopening _ _ rfl) .nil
  | block h => exact h.balanced
  | group h hright => exact .enclose (hopening _ _ rfl) rfl (.mk h hright)
  | conditional h => exact h.balanced
  | typeCast htype hright hvalue =>
    exact .plain rfl (hopening _ _ rfl) (.append htype (.plain hright rfl hvalue))
  | declaration h => exact .plain rfl (hopening _ _ rfl) h.balanced
  | whileLoop hcondition hbody =>
    exact .plain rfl (hopening _ _ rfl) (.append hcondition hbody.balanced)
  | forLoop hloop hbody =>
    exact .plain rfl (hopening _ _ rfl) (.append hloop.balanced hbody.balanced)
  | endlessLoop h => exact .plain rfl (hopening _ _ rfl) h.balanced
  | lambda hparams hbody =>
    refine .append (hparams.balanced fun t us hts => ?_) hbody
    subst hts
    exact hopening t _ rfl
  | function hname h => exact .plain rfl (hopening _ _ rfl) (.plain hname rfl h.balanced)
  | classDef hname hparams hleft hmembers =>
    exact .plain rfl (hopening _ _ rfl) (.plain hname rfl
      (.append hparams.balanced (.enclose hleft rfl hmembers.closedBy)))
  | traitDef hlead hname hparams hleft hmembers =>
    exact .plain rfl (hopening _ _ rfl) (.append (hlead.balanced rfl) (.plain hname rfl
      (.append hparams.balanced (.enclose hleft rfl hmembers.closedBy))))
  | enumDef hname hparams hleft hvariants =>
    exact .plain rfl (hopening _ _ rfl) (.plain hname rfl (.append hparams.balanced
      (.enclose hleft rfl (hvariants.closedBy VariantPhrase.balanced))))
  | importing h => exact .plain rfl (hopening _ _ rfl) h
  | returning h => exact .plain rfl (hopening _ _ rfl) (h.balanced id)
  | breaking hlabel hvalue =>
    exact .plain rfl (hopening _ _ rfl) (.append hlabel.balanced (hvalue.balanced id))
  | continuing h => exact .plain rfl (hopening _ _ rfl) h.balanced
  | label hcolon h hlabelled => exact .plain rfl (hopening _ _ rfl) (.plain hcolon rfl h)
  | list h => exact .enclose (hopening _ _ rfl) rfl (h.closedBy id)
  | binding hname h => exact .plain rfl (hopening _ _ rfl) (.plain hname rfl h)
  | mapping hleft h =>
    exact .plain rfl (hopening _ _ rfl) (.enclose hleft rfl (h.closedBy EntryPhrase.balanced))

lemma Continued.balanced {t : Token} {left : Expr} {continuation : Continuation}
    {form : Form Expr} (h : Continued .balanced left continuation (t :: ts) form)
    (hcontinuation : Grammar.standard.continuation? t.kind = some continuation) :
    Balanced (t :: ts) := by
  have hkind := bracket_of_continuation hcontinuation
  cases h with
  | binary h => exact .plain rfl hkind h
  | post => exact .plain rfl hkind .nil
  | property hname => exact .plain rfl hkind (.plain hname rfl .nil)
  | call h => exact .enclose hkind rfl (h.closedBy ArgumentPhrase.balanced)
  | element h => exact .enclose hkind rfl (h.closedBy id)
  | statement h => exact .plain rfl hkind (h.balanced id)
  | assignment h hassignable => exact .plain rfl hkind h

lemma Phrase.balanced {least : Precedence} {e : Expr} (h : Phrase .balanced least ts e) :
    Balanced ts := by
  induction h with
  | opened hopening haccepts h =>
    refine h.balanced fun t us hts => ?_
    cases hts
    exact hopening
  | continued hleft hcontinuation hlevel hgrip h ih => exact ih.append (h.balanced hcontinuation)

lemma Language.closed_balanced (K : Setting) : Language.balanced.Closed K where
  token _ := trivial
  expr := Phrase.balanced
  type := TypePhrase.balanced
  pattern := PatternPhrase.balanced
  path := PathPhrase.balanced

end Phrases

/-! ## Modifier blocks -/

namespace Setting

variable {K : Setting} {before : List Token} {s s' : Stream}

lemma Reads.eat {kind : TokenKind} [Fact kind.Inner] :
    K.Reads before [] (Parse.eat kind) (Keyword kind) := by
  rw [← bind_pure (Parse.eat kind)]
  exact .eat_bind (.pure .absent rfl) fun t ht => .pure (.present ht) rfl

lemma Reads.memberEnd_balanced :
    K.Reads before [] memberEnd fun ts _ => Balanced ts := by
  refine .nextIs_bind (ahead (.pure .nil rfl)) (ahead ?_)
  rw [discard_eq]
  exact .consume_bind fun comma hcomma => .pure (.plain hcomma rfl .nil) rfl

variable {expr : Precedence → Parse Expr} {body : BodyKind} {outer : OpenBlocks}
variable {members result : MemberList Expr} {fuel rest : Nat}

variable (K expr body outer result s') in
/-- Behind the given tokens come those through a brace that closes the innermost block, and then a
body goes on, with less fuel, in the blocks around. -/
def LeavesBlock (fuel : Nat) (before : List Token) : Prop :=
  ∃ rest members s₁ ts, rest < fuel ∧ K.At (before ++ ts) s₁ ∧ ClosedBy .rightBrace ts ∧
    (do memberEnd; membersWithin expr body rest outer members) K.session s₁ = .ok result s'

lemma LeavesBlock.after {ts : List Token}
    (h : K.LeavesBlock s' expr body outer result rest (before ++ ts)) (hts : Balanced ts)
    (hrest : rest ≤ fuel) : K.LeavesBlock s' expr body outer result fuel before := by
  obtain ⟨rest', members', s₁, us, hlt, hat, hus, hrun⟩ := h
  rw [List.append_assoc] at hat
  exact ⟨rest', members', s₁, _, Nat.lt_of_lt_of_le hlt hrest, hat, hus.after hts, hrun⟩

/-- Where modifier blocks are open, a body goes on with tokens through the brace that closes the
innermost, and then in those around it. -/
lemma At.leavesBlock [∀ least, Steady (expr least)]
    (hexpr : ∀ before least, K.ReadsPast before (expr least) (Language.balanced.expr least))
    {block : ModifierBlock} (hs : K.At before s)
    (hrun : membersWithin expr body fuel (block :: outer) members K.session s = .ok result s') :
    K.LeavesBlock s' expr body outer result fuel before := by
  induction fuel using Nat.strong_induction_on generalizing block outer members before s with
  | _ fuel ih =>
    cases fuel with
    | zero => cases hrun
    | succ fuel =>
      -- Behind a member or a block that stands in the innermost block, the body goes on in that.
      have hcontinue {ts : List Token} {members : MemberList Expr} {rest : Nat} {s₁ : Stream}
          (hrest : rest < fuel + 1) (hat : K.At (before ++ ts) s₁) (hts : Balanced ts)
          (hrun : (do
            memberEnd
            membersWithin expr body rest (block :: outer) members) K.session s₁ =
              .ok result s') :
          K.LeavesBlock s' expr body outer result (fuel + 1) before := by
        obtain ⟨_, s₂, hend, hrun⟩ := bind_eq_ok hrun
        obtain ⟨sep, hat, hsep⟩ := Reads.memberEnd_balanced.eq_ok hat hend
        exact ((ih rest hrest hat hrun).after hsep (Nat.le_refl _)).after hts (Nat.le_of_lt hrest)
      unfold membersWithin at hrun
      obtain ⟨closed, s₁, heat, hrun⟩ := bind_eq_ok hrun
      obtain ⟨ts, hat, hts⟩ := Reads.eat.eq_ok hs heat
      cases hts with
      | present hright =>
        exact ⟨fuel, members, s₁, _, Nat.lt_succ_self fuel, hat, .mk .nil hright, hrun⟩
      | absent =>
        rw [List.append_nil] at hat
        rw [if_neg Bool.false_ne_true] at hrun
        obtain ⟨modified, s₂, hmember, hrun⟩ := bind_eq_ok hrun
        obtain ⟨us, hat, hphrase⟩ := (Reads.member (Language.closed_balanced K).toGrounded
          (hexpr before)).eq_ok hat hmember
        cases modified with
        | opened inner =>
          obtain ⟨front, left, block', rfl, hleft, hfront, rfl⟩ := hphrase.opensBlock
          obtain ⟨rest, members', s₃, vs, hlt, hat, hvs, hrun⟩ :=
            ih fuel (Nat.lt_succ_self fuel) hat hrun
          rw [List.append_assoc, List.append_assoc] at hat
          exact hcontinue (Nat.lt_succ_of_lt hlt) hat (hfront.append (.enclose hleft rfl hvs)) hrun
        | member added => exact hcontinue (Nat.lt_succ_self fuel) hat hphrase.balanced hrun

end Setting

/-! ## Calls -/

section Calls

variable {σ : Session} (hσ : σ.grammar = .standard) (hforward : Scan.ForwardWithin σ.embedded)
variable {s s' : Stream} (h : s.Reachable σ)
include hσ hforward h

lemma Stream.Reachable.balanced_expression {fuel : Nat} {least : Precedence} {e : Expr}
    (hrun : expressionWithin fuel least σ s = .ok e s') : Balanced (s.consumed s') :=
  (h.consumed hσ hforward
    (fun _ _ => Setting.Reads.expressionWithin (Language.closed_balanced _) False.elim)
    hrun).1.balanced

lemma Stream.Reachable.balanced_pattern {fuel : Nat} {p : Pattern}
    (hrun : patternWithin fuel σ s = .ok p s') : Balanced (s.consumed s') :=
  (h.consumed hσ hforward
    (fun _ _ => Setting.Reads.patternWithin (Language.closed_balanced _).toGrounded False.elim)
    hrun).1.balanced

lemma Stream.Reachable.balanced_type {fuel : Nat} {type : TypeExpr}
    (hrun : typeWithin fuel σ s = .ok type s') : Balanced (s.consumed s') :=
  (h.consumed hσ hforward
    (fun _ _ => Setting.Reads.typeWithin (Language.closed_balanced _).toGrounded False.elim)
    hrun).1.balanced

variable {fuel : Nat} {body : BodyKind}

omit h in
lemma Setting.readsPast_balanced (r : Reader) (before : List Token) (least : Precedence) :
    (Setting.lenient σ r hσ hforward).ReadsPast before (expressionWithin fuel least)
      (Language.balanced.expr least) := by
  intro since
  have hfuel : (Setting.lenient σ r hσ hforward).Affords (before ++ since) fuel := False.elim
  exact (Setting.Reads.expressionWithin (Language.closed_balanced _) hfuel).mono
    fun _ _ => Phrase.balanced

lemma Stream.Reachable.closes_memberList {members : MemberList Expr}
    (hrun : memberList (expressionWithin fuel) body σ s = .ok members s') :
    ClosedBy .rightBrace (s.consumed s') :=
  (h.consumed hσ hforward (fun r before => Setting.Reads.memberList
    (Language.closed_balanced _).toGrounded (Setting.readsPast_balanced hσ hforward r before))
    hrun).1.closedBy

lemma Stream.Reachable.opensBlock_member {blocks inner : OpenBlocks} {members : MemberList Expr}
    (hrun : member (expressionWithin fuel) body blocks members σ s = .ok (.opened inner) s') :
    OpensBlock blocks inner (s.consumed s') :=
  (h.consumed hσ hforward (fun r before => Setting.Reads.member
    (Language.closed_balanced _).toGrounded (Setting.readsPast_balanced hσ hforward r before))
    hrun).1.opensBlock

lemma Stream.Reachable.leavesBlock {steps : Nat} {block : ModifierBlock} {outer : OpenBlocks}
    {members result : MemberList Expr}
    (hrun : membersWithin (expressionWithin fuel) body steps (block :: outer) members σ s =
      .ok result s') :
    ∃ rest members' s₁, ClosedBy .rightBrace (s.consumed s₁) ∧
      (do memberEnd; membersWithin (expressionWithin fuel) body rest outer members') σ s₁ =
        .ok result s' := by
  obtain ⟨r, before, hat⟩ := h.exists_at hσ hforward
  obtain ⟨rest, members', s₁, ts, -, hat', hts, hrun⟩ :=
    Setting.At.leavesBlock (Setting.readsPast_balanced hσ hforward r) hat hrun
  refine ⟨rest, members', s₁, ?_, hrun⟩
  rwa [hat.consumed hat']

end Calls

/-- Brackets nest. Whatever stream a parser has come to, in a source or in a template string of it,
the tokens of the expression, the pattern or the type that it reads there are balanced. The rest of
a body, which is read behind the brace that opens it, ends with the brace that closes it; so a
modifier block, behind the brace that opens it, goes on to the brace that closes it, and then the
reading goes on in the blocks around. And the tokens of a source that is a program are balanced. -/
theorem brackets_nest (source : String) :
    (∀ depth limit s, s.Reachable ⟨.standard, embeddedReader .standard depth, limit⟩ →
      let σ : Session := ⟨.standard, embeddedReader .standard depth, limit⟩
      (∀ fuel least e s', expressionWithin fuel least σ s = .ok e s' → Balanced (s.consumed s')) ∧
      (∀ fuel p s', patternWithin fuel σ s = .ok p s' → Balanced (s.consumed s')) ∧
      (∀ fuel type s', typeWithin fuel σ s = .ok type s' → Balanced (s.consumed s')) ∧
      ∀ fuel body,
        (∀ members s', memberList (expressionWithin fuel) body σ s = .ok members s' →
          ClosedBy .rightBrace (s.consumed s') ∧
            ∀ left : Token, left.kind = .leftBrace → Balanced (left :: s.consumed s')) ∧
        (∀ blocks members inner s',
          member (expressionWithin fuel) body blocks members σ s = .ok (.opened inner) s' →
            OpensBlock blocks inner (s.consumed s')) ∧
        ∀ steps block outer members result s',
          membersWithin (expressionWithin fuel) body steps (block :: outer) members σ s =
              .ok result s' →
            ∃ rest members' s₁, ClosedBy .rightBrace (s.consumed s₁) ∧
              (do memberEnd; membersWithin (expressionWithin fuel) body rest outer members') σ s₁ =
                .ok result s') ∧
    ∀ program, (parse source).result = .ok program →
      ∃ tokens, (tokenize source).result = .ok tokens ∧ Balanced tokens := by
  refine ⟨fun depth limit s h => ?_, fun program h => ?_⟩
  · have hforward := forwardWithin_embeddedReader depth
    refine ⟨fun _ _ _ _ => h.balanced_expression rfl hforward,
      fun _ _ _ => h.balanced_pattern rfl hforward, fun _ _ _ => h.balanced_type rfl hforward,
      fun fuel body => ⟨fun members s' hrun => ?_, fun _ _ _ _ => h.opensBlock_member rfl hforward,
        fun _ _ _ _ _ _ => h.leavesBlock rfl hforward⟩⟩
    have hclosed := h.closes_memberList rfl hforward hrun
    exact ⟨hclosed, fun left hleft => .enclose hleft rfl hclosed⟩
  · obtain ⟨ts, htokens, -, hphrase⟩ := parse_eq_ok (Language.closed_balanced _) h
    refine ⟨ts, htokens, ?_⟩
    cases hphrase with
    | empty => exact .nil
    | expr hphrase => exact hphrase.balanced

/-- A class with blocks in one another: its parts, its members, and the first of its blocks. -/
theorem brackets_nest_class :
    let source := "let [a]: M[K] = class C \x7b static \x7b public \x7b b: T = [(1)] \x7d, " ++
      "fn f() \x7b\x7d \x7d, c: T = `\x7b${d[0]}` \x7d"
    let σ := Session.ofText .standard source.toList
    (∃ s s' p, s.Reachable σ ∧ pattern σ s = .ok p s' ∧ Balanced (s.consumed s')) ∧
    (∃ s s' type, s.Reachable σ ∧ typeExpr σ s = .ok type s' ∧ Balanced (s.consumed s')) ∧
    (∃ s s' e, s.Reachable σ ∧ expression .lowest σ s = .ok e s' ∧ Balanced (s.consumed s')) ∧
    (∃ s s' members, s.Reachable σ ∧
      memberList (expressionWithin σ.limit) .ofClass σ s = .ok members s' ∧
        ClosedBy .rightBrace (s.consumed s')) ∧
    (∃ s s₁ s₂ inner result rest members s', s.Reachable σ ∧
      member (expressionWithin σ.limit) .ofClass [] .empty σ s = .ok (.opened inner) s₁ ∧
        OpensBlock [] inner (s.consumed s₁) ∧ ClosedBy .rightBrace (s₁.consumed s₂) ∧
          (do memberEnd; membersWithin (expressionWithin σ.limit) .ofClass rest [] members) σ s₂ =
            .ok result s') ∧
    ∃ tokens, (tokenize source).result = .ok tokens ∧ Balanced tokens := by
  intro source σ
  let start := Stream.ofReader (.ofText source.toList)
  let front : Parse Token := do
    let _ ← consume .kwLet ""
    let _ ← pattern
    let _ ← consume .colon ""
    let _ ← typeExpr
    consume .equals ""
  let heading : Parse Token := do
    let _ ← consume .kwClass ""
    let _ ← identifier ""
    consume .leftBrace ""
  have hwhole : (expression .lowest).succeeds σ start = true := by decide +kernel
  have hlist : (do
      let _ ← front
      let _ ← heading
      memberList (expressionWithin σ.limit) .ofClass).succeeds σ start = true := by
    decide +kernel
  have hblock : (do
      let _ ← front
      let _ ← heading
      let first ← member (expressionWithin σ.limit) .ofClass [] .empty
      Modified.casesOn (motive := fun _ => Parse (MemberList Expr)) first
        (fun inner => membersWithin (expressionWithin σ.limit) .ofClass σ.limit inner .empty)
        fun _ => exhausted).succeeds σ start = true := by
    decide +kernel
  have hparse : (parse source).result.toOption.map Option.isSome = some true := by decide +kernel
  have hcalls := (brackets_nest source).1 source.toList.length (source.toList.length + 2)
  have hstart : start.Reachable σ := .start _
  obtain ⟨e, s, hwhole⟩ := eq_ok_of_succeeds hwhole
  obtain ⟨members, t, hlist⟩ := eq_ok_of_succeeds hlist
  obtain ⟨_, t₁, hfront, hlist⟩ := bind_eq_ok hlist
  obtain ⟨_, t₂, hheading, hlist⟩ := bind_eq_ok hlist
  obtain ⟨result, u, hblock⟩ := eq_ok_of_succeeds hblock
  obtain ⟨_, u₁, hfront', hblock⟩ := bind_eq_ok hblock
  obtain ⟨_, u₂, hheading', hblock⟩ := bind_eq_ok hblock
  obtain ⟨first, u₃, hfirst, hblock⟩ := bind_eq_ok hblock
  have hfrontSteady : Steady front := by unfold front; infer_instance
  have hheadingSteady : Steady heading := by unfold heading; infer_instance
  have ht₂ : t₂.Reachable σ := (hstart.keeps rfl hfront).keeps rfl hheading
  have hu₂ : u₂.Reachable σ := (hstart.keeps rfl hfront').keeps rfl hheading'
  have hu₃ : u₃.Reachable σ := hu₂.keeps rfl hfirst
  obtain ⟨_, s₁, hlet, hfront⟩ := bind_eq_ok hfront
  obtain ⟨p, s₂, hpattern, hfront⟩ := bind_eq_ok hfront
  obtain ⟨_, s₃, hcolon, hfront⟩ := bind_eq_ok hfront
  obtain ⟨type, s₄, htype, -⟩ := bind_eq_ok hfront
  have hs₁ : s₁.Reachable σ := hstart.keeps rfl hlet
  have hs₃ : s₃.Reachable σ := (hs₁.keeps rfl hpattern).keeps rfl hcolon
  refine ⟨⟨s₁, s₂, p, hs₁, hpattern, (hcalls s₁ hs₁).2.1 _ _ _ hpattern⟩,
    ⟨s₃, s₄, type, hs₃, htype, (hcalls s₃ hs₃).2.2.1 _ _ _ htype⟩,
    ⟨start, s, e, hstart, hwhole, (hcalls start hstart).1 _ _ _ _ hwhole⟩,
    ⟨t₂, t, members, ht₂, hlist, (((hcalls t₂ ht₂).2.2.2 _ _).1 _ _ hlist).1⟩, ?_, ?_⟩
  · cases first with
    | member added => cases hblock
    | opened inner =>
      have hopens := ((hcalls u₂ hu₂).2.2.2 _ _).2.1 _ _ _ _ hfirst
      obtain ⟨front, left, block, -, -, -, rfl⟩ := id hopens
      obtain ⟨rest, members, s', hcloses, hrest⟩ :=
        ((hcalls u₃ hu₃).2.2.2 _ _).2.2 _ _ _ _ _ _ hblock
      exact ⟨u₂, u₃, s', _, result, rest, members, u, hu₂, hfirst, hopens, hcloses, hrest⟩
  · obtain ⟨program, hprogram, -⟩ := Outcome.eq_ok_of_map hparse
    exact (brackets_nest source).2 program hprogram

end FrontEnd
