import FrontEnd.Proofs.Halting
import FrontEnd.Proofs.Setting

/-!
# Phrases

The grammar of the language, apart from the parser: which sequences of tokens spell which pieces of
a tree, production by production. Phrases nest through the relations of a `Language`, and
`Language.Closed` says that these hold of every phrase that is put together from smaller ones. What
is to be shown of all trees is chosen as such a language.
-/

namespace FrontEnd

open Production

/-- Relations between tokens and the trees that they spell. -/
structure Language where
  /-- What is known of the tokens whose value or text goes into a tree. -/
  token : Token → Prop
  /-- Expressions that are extended only by what binds tighter than the given level. -/
  expr : Precedence → List Token → Expr → Prop
  type : List Token → TypeExpr → Prop
  pattern : List Token → Pattern → Prop
  path : List Token → ImportSection → Prop

/-! ## Lists and optional parts -/

section Parts

variable {α : Type}

/-- Elements with commas between them, through the closing token. A comma may follow the last. -/
inductive Listed (close : TokenKind) (R : List Token → α → Prop) : List Token → List α → Prop where
  | done {right} (hright : right.kind = close) : Listed close R [right] []
  | last {ts a right} (ha : R ts a) (hright : right.kind = close) :
    Listed close R (ts ++ [right]) [a]
  | more {ts a comma us rest} (ha : R ts a) (hcomma : comma.kind = .comma)
    (h : Listed close R us rest) : Listed close R (ts ++ comma :: us) (a :: rest)

/-- A list in brackets, or nothing. -/
inductive Bracketed (left close : TokenKind) (R : List Token → α → Prop) :
    List Token → List α → Prop where
  | absent : Bracketed left close R [] []
  | present {opener ts elements} (hleft : opener.kind = left) (h : Listed close R ts elements) :
    Bracketed left close R (opener :: ts) elements

/-- Something, or nothing. -/
inductive Optionally (R : List Token → α → Prop) : List Token → Option α → Prop where
  | absent : Optionally R [] none
  | present {ts a} (h : R ts a) : Optionally R ts (some a)

/-- Something that a token of a kind announces, or nothing. -/
inductive Announced (lead : TokenKind) (R : List Token → α → Prop) :
    List Token → Option α → Prop where
  | absent : Announced lead R [] none
  | present {t ts a} (ht : t.kind = lead) (h : R ts a) : Announced lead R (t :: ts) (some a)

end Parts

variable (Λ : Language)

/-! ## Types, patterns and import paths -/

/-- The parameters of a type, of which there is at least one if there are brackets. -/
inductive TypeArguments : List Token → List TypeExpr → Prop where
  | absent : TypeArguments [] []
  | present {left ts types} (hleft : left.kind = .leftBracket)
    (h : Listed .rightBracket Λ.type ts types) (hne : types ≠ []) :
    TypeArguments (left :: ts) types

/-- A type: a name, possibly with parameters. -/
inductive TypePhrase : List Token → TypeExpr → Prop where
  | mk {name ts params} (hname : name.kind = .identifier) (h : TypeArguments Λ ts params) :
    TypePhrase (name :: ts) (.mk name.ident params (cover (name :: ts)))

/-- The traits that a bound asks for: one, or several in parentheses. -/
inductive Traits : List Token → List TypeExpr → Prop where
  | single {ts type} (h : Λ.type ts type) : Traits ts [type]
  | several {left ts types} (hleft : left.kind = .leftParen)
    (h : Listed .rightParen Λ.type ts types) (hne : types ≠ []) : Traits (left :: ts) types

/-- A type parameter with its bounds. -/
inductive TypeParamPhrase : List Token → TypeParam → Prop where
  | mk {name ts us extending implementing} (hname : name.kind = .identifier)
    (hextending : Announced .lessEqual Λ.type ts extending)
    (himplementing : Announced .colon (Traits Λ) us implementing) :
    TypeParamPhrase (name :: (ts ++ us))
      ⟨.mk name.ident [] name.span, Constraint.chain (extending.toList.map (.extending, ·) ++
        (implementing.getD []).map (.implementing, ·))⟩

/-- Type parameters in brackets, or none. -/
abbrev TypeParams : List Token → List TypeParam → Prop :=
  Bracketed .leftBracket .rightBracket (TypeParamPhrase Λ)

/-- A field of an object pattern. -/
inductive FieldPhrase : List Token → Field Pattern → Prop where
  | mk {name ts pattern} (hname : name.kind = .identifier)
    (h : Announced .colon Λ.pattern ts pattern) :
    FieldPhrase (name :: ts) ⟨name.ident, pattern⟩

/-- A pattern after the shape that its first token opens. -/
inductive PatternPhrase : List Token → Pattern → Prop where
  | name {name} (hname : name.kind = .identifier) :
    PatternPhrase [name] ⟨.name name.ident, cover [name]⟩
  | named {sign name ts pattern} (hsign : sign.kind = .atSign) (hname : name.kind = .identifier)
    (h : Λ.pattern ts pattern) :
    PatternPhrase (sign :: name :: ts)
      ⟨.named name.ident pattern, cover (sign :: name :: ts)⟩
  | list {left ts elements} (hleft : left.kind = .leftBracket)
    (h : Listed .rightBracket Λ.pattern ts elements) :
    PatternPhrase (left :: ts) ⟨.list elements, cover (left :: ts)⟩
  | object {left ts fields} (hleft : left.kind = .leftBrace)
    (h : Listed .rightBrace (FieldPhrase Λ) ts fields) :
    PatternPhrase (left :: ts) ⟨.object fields, cover (left :: ts)⟩

/-- A section of an import path. A list names something. -/
inductive PathPhrase : List Token → ImportSection → Prop where
  | terminal {name} (hname : name.kind = .identifier) :
    PathPhrase [name] (.terminal name.ident none)
  | renamed {name keyword local'} (hname : name.kind = .identifier)
    (hkeyword : keyword.kind = .kwAs) (hlocal : local'.kind = .identifier) :
    PathPhrase [name, keyword, local'] (.terminal name.ident (some local'.ident))
  | element {name dot ts rest} (hname : name.kind = .identifier) (hdot : dot.kind = .dot)
    (h : Λ.path ts rest) : PathPhrase (name :: dot :: ts) (.element name.ident rest)
  | list {left ts sections} (hleft : left.kind = .leftBrace)
    (h : Listed .rightBrace Λ.path ts sections) (hne : sections ≠ []) :
    PathPhrase (left :: ts) (.list sections)

/-! ## Blocks and declarations -/

/-- A block in braces. -/
inductive BlockPhrase : List Token → Block Expr → Prop where
  | mk {left ts content right} (hleft : left.kind = .leftBrace)
    (h : Optionally (Λ.expr .lowest) ts content) (hright : right.kind = .rightBrace) :
    BlockPhrase (left :: (ts ++ [right])) ⟨content, none, cover (left :: (ts ++ [right]))⟩

/-- A declaration without its keyword. -/
inductive DeclarationPhrase (kind : DeclKind) : List Token → Declaration Expr → Prop where
  | mk {ts us vs pattern type value} (hpattern : Λ.pattern ts pattern)
    (htype : Announced .colon Λ.type us type)
    (hvalue : Announced .equals (Λ.expr .lowest) vs value)
    (hvalued : missingValue? kind type value = none) :
    DeclarationPhrase kind (ts ++ us ++ vs) ⟨kind, pattern, type, value⟩

/-- A parameter of a function, which is typed. -/
inductive ParamPhrase : List Token → Param Expr → Prop where
  | mk {ts pattern colon us type vs value} (hpattern : Λ.pattern ts pattern)
    (hcolon : colon.kind = .colon) (htype : Λ.type us type)
    (hvalue : Announced .equals (Λ.expr .lowest) vs value) :
    ParamPhrase (ts ++ colon :: us ++ vs)
      ⟨pattern, some type, value, cover (ts ++ colon :: us ++ vs)⟩

/-- A parameter of a lambda. -/
inductive LambdaParamPhrase : List Token → Param Expr → Prop where
  | mk {ts pattern us type vs value} (hpattern : Λ.pattern ts pattern)
    (htype : Announced .colon Λ.type us type)
    (hvalue : Announced .equals (Λ.expr .conditional) vs value) :
    LambdaParamPhrase (ts ++ us ++ vs) ⟨pattern, type, value, cover (ts ++ us ++ vs)⟩

/-- The parameters of a lambda with the token that opens it. -/
inductive LambdaParams : List Token → List (Param Expr) → Prop where
  | absent {sign} (hsign : sign.kind ≠ .pipe) : LambdaParams [sign] []
  | present {sign ts params} (hsign : sign.kind = .pipe)
    (h : Listed .pipe (LambdaParamPhrase Λ) ts params) : LambdaParams (sign :: ts) params

/-- The body of a function; where signatures are allowed, empty braces are none. -/
inductive BodyPhrase (allowSignature : Bool) : List Token → Option (Block Expr) → Prop where
  | signature {left right} (hallowed : allowSignature = true) (hleft : left.kind = .leftBrace)
    (hright : right.kind = .rightBrace) : BodyPhrase allowSignature [left, right] none
  | block {ts body} (h : BlockPhrase Λ ts body) : BodyPhrase allowSignature ts (some body)

/-- A function behind its name. -/
inductive FunctionPhrase (name : Ident) (allowSignature : Bool) :
    List Token → FunctionDef Expr → Prop where
  | mk {ts typeParams left us params vs returned ws body} (htypeParams : TypeParams Λ ts typeParams)
    (hleft : left.kind = .leftParen) (hparams : Listed .rightParen (ParamPhrase Λ) us params)
    (hreturned : Optionally Λ.type vs returned) (hbody : BodyPhrase Λ allowSignature ws body) :
    FunctionPhrase name allowSignature (ts ++ left :: us ++ vs ++ ws)
      ⟨name, typeParams, params, returned, body⟩

/-! ## Control flow and literals -/

/-- The value of a token as a literal. -/
def Token.literal? (t : Token) : Option (Literal Expr) :=
  match t.value with
  | .none => none
  | .number value => some (.number value)
  | .bool value => some (.bool value)
  | .char value => some (.char value)
  | .text value => some (.string value)
  | .template parts => some (.template parts)

/-- A condition with its blocks, from its `if` on. -/
inductive ConditionalPhrase : List Token → Expr → Prop where
  | alone {keyword ts condition us consequence} (hkeyword : keyword.kind = .kwIf)
    (hcondition : Λ.expr .lowest ts condition) (hconsequence : BlockPhrase Λ us consequence) :
    ConditionalPhrase (keyword :: (ts ++ us))
      ⟨.conditional condition consequence none, cover (keyword :: (ts ++ us))⟩
  | otherwise {keyword ts condition us consequence other vs alternative}
    (hkeyword : keyword.kind = .kwIf) (hcondition : Λ.expr .lowest ts condition)
    (hconsequence : BlockPhrase Λ us consequence) (hother : other.kind = .kwElse)
    (halternative : BlockPhrase Λ vs alternative) :
    ConditionalPhrase (keyword :: (ts ++ us ++ other :: vs))
      ⟨.conditional condition consequence (some (blockExpr alternative)),
        cover (keyword :: (ts ++ us ++ other :: vs))⟩
  | chained {keyword ts condition us consequence other vs nested}
    (hkeyword : keyword.kind = .kwIf) (hcondition : Λ.expr .lowest ts condition)
    (hconsequence : BlockPhrase Λ us consequence) (hother : other.kind = .kwElse)
    (hnested : ConditionalPhrase vs nested) :
    ConditionalPhrase (keyword :: (ts ++ us ++ other :: vs))
      ⟨.conditional condition consequence (some nested),
        cover (keyword :: (ts ++ us ++ other :: vs))⟩

/-- An expression of a loop's head, for which `true` stands at the given place if it is left out. -/
inductive OrTrue (span : Span) : List Token → Expr → Prop where
  | omitted : OrTrue span [] ⟨.literal (.bool true), span⟩
  | written {ts e} (h : Λ.expr .lowest ts e) : OrTrue span ts e

/-- The head of a `for` loop whose keyword stands at the given place. -/
inductive ForHeadPhrase (span : Span) : List Token → ForHead Expr → Prop where
  | iterating {ts init binding keyword us iterable} (hinit : OrTrue Λ span ts init)
    (hbinding : patternOfExpr init = .ok binding) (hkeyword : keyword.kind = .kwIn)
    (hiterable : Λ.expr .lowest us iterable) :
    ForHeadPhrase span (ts ++ keyword :: us) (.iterating binding iterable)
  | counting {ts init comma us condition comma' vs step} (hinit : OrTrue Λ span ts init)
    (hcomma : comma.kind = .comma) (hcondition : OrTrue Λ span us condition)
    (hcomma' : comma'.kind = .comma) (hstep : OrTrue Λ span vs step) :
    ForHeadPhrase span (ts ++ comma :: us ++ comma' :: vs) (.counting init condition step)

/-- A key and its value. -/
inductive EntryPhrase : List Token → Expr × Expr → Prop where
  | mk {ts key colon us value} (hkey : Λ.expr .lowest ts key) (hcolon : colon.kind = .colon)
    (hvalue : Λ.expr .lowest us value) : EntryPhrase (ts ++ colon :: us) (key, value)

/-- An argument of a call. -/
inductive ArgumentPhrase : List Token → Argument Expr → Prop where
  | plain {ts value} (h : Λ.expr .lowest ts value) : ArgumentPhrase ts ⟨none, value⟩
  | named {name colon ts value} (hname : name.kind = .identifier) (hcolon : colon.kind = .colon)
    (h : Λ.expr .lowest ts value) : ArgumentPhrase (name :: colon :: ts) ⟨some name.ident, value⟩

/-- A variant of an enumeration. -/
inductive VariantPhrase : List Token → Variant → Prop where
  | mk {name ts fields} (hname : name.kind = .identifier)
    (h : Bracketed .leftParen .rightParen Λ.type ts fields) :
    VariantPhrase (name :: ts) ⟨name.ident, fields⟩

/-- A label, or none. -/
inductive LabelPhrase : List Token → Option String → Prop where
  | absent : LabelPhrase [] none
  | present {label} (hlabel : label.kind = .label) : LabelPhrase [label] (some label.text)

/-! ## Members of classes and traits -/

/-- The block that a privacy keyword may open, and the visibility that it stands for. -/
def privacyBlock? : TokenKind → Option (ModifierBlock × Visibility)
  | .kwPublic => some (.ofPublic, .everyone)
  | .kwProtected => some (.ofProtected, .family)
  | _ => none

/-- What is said of the privacy of a member, or the opening of a privacy block. -/
inductive PrivacyPhrase (body : BodyKind) (blocks : OpenBlocks) :
    List Token → Modified Visibility → Prop where
  | absent : PrivacyPhrase body blocks [] (.member body.defaultVisibility)
  | personal {keyword} (hkeyword : keyword.kind = .kwPrivate) (hplain : blocks.isPrivacy = false) :
    PrivacyPhrase body blocks [keyword] (.member .personal)
  | shared {keyword block visibility}
    (hkeyword : privacyBlock? keyword.kind = some (block, visibility))
    (hplain : blocks.isPrivacy = false) :
    PrivacyPhrase body blocks [keyword] (.member visibility)
  | opened {keyword left block visibility}
    (hkeyword : privacyBlock? keyword.kind = some (block, visibility))
    (hleft : left.kind = .leftBrace) (hdepth : blocks.length < 2) (hnew : block ∉ blocks) :
    PrivacyPhrase body blocks [keyword, left] (.opened (block :: blocks))

/-- What is said of the scope of a member, or the opening of a static block. -/
inductive StaticPhrase (blocks : OpenBlocks) : List Token → Modified Scope → Prop where
  | absent : StaticPhrase blocks [] (.member (if blocks.isStatic then .ofType else .ofInstance))
  | written {keyword} (hkeyword : keyword.kind = .kwStatic) (hplain : blocks.isStatic = false) :
    StaticPhrase blocks [keyword] (.member .ofType)
  | opened {keyword left} (hkeyword : keyword.kind = .kwStatic) (hleft : left.kind = .leftBrace)
    (hdepth : blocks.length < 2) (hnew : .ofStatic ∉ blocks) :
    StaticPhrase blocks [keyword, left] (.opened (.ofStatic :: blocks))

/-- A keyword, or nothing. -/
inductive Keyword (kind : TokenKind) : List Token → Bool → Prop where
  | absent : Keyword kind [] false
  | present {keyword} (hkeyword : keyword.kind = kind) : Keyword kind [keyword] true

/-- An overloaded operator behind its keyword. -/
inductive OverloadPhrase (allowSignature : Bool) : List Token → Overload Expr → Prop where
  | mk {op lead isFunction ts function} (htoken : Λ.token op) (hop : op.kind.isOperator = true)
    (hlead : Keyword .kwFn lead isFunction)
    (h : FunctionPhrase Λ op.ident allowSignature ts function)
    (harity : arityProblem? op.kind function.params.length = none) :
    OverloadPhrase allowSignature (op :: (lead ++ ts)) ⟨op.text, function⟩

/-- A property that may be added to members. -/
inductive PropertyPhrase (body : BodyKind) (members : MemberList Expr) :
    List Token → Declaration Expr → Prop where
  | mk {lead isConstant ts declared} (hlead : Keyword .kwConst lead isConstant)
    (h : DeclarationPhrase Λ (if isConstant then .constant else .variable) ts declared)
    (hproblem : propertyProblem? body members declared = none) :
    PropertyPhrase body members (lead ++ ts) declared

/-- A member without its modifiers, and the members with it added to those before. -/
inductive ItemPhrase (body : BodyKind) (scope : Scope) (visibility : Visibility)
    (members : MemberList Expr) : List Token → MemberList Expr → Prop where
  | method {keyword name ts function} (hkeyword : keyword.kind = .kwFn)
    (hname : name.kind = .identifier)
    (h : FunctionPhrase Λ name.ident body.allowsSignatures ts function) :
    ItemPhrase body scope visibility members (keyword :: name :: ts)
      (members.addMethod ⟨function, scope, visibility⟩)
  | overload {keyword ts overloaded} (hkeyword : keyword.kind = .kwOperator)
    (h : OverloadPhrase Λ body.allowsSignatures ts overloaded) :
    ItemPhrase body scope visibility members (keyword :: ts) (members.addOperator overloaded)
  | property {ts declared} (h : PropertyPhrase Λ body members ts declared) :
    ItemPhrase body scope visibility members ts
      (members.addProperty ⟨declared, scope, visibility⟩)

/-- A member with its modifiers, or the opening of a modifier block. -/
inductive MemberPhrase (body : BodyKind) (blocks : OpenBlocks) (members : MemberList Expr) :
    List Token → Modified (MemberList Expr) → Prop where
  | privacyBlock {ts inner} (h : PrivacyPhrase body blocks ts (.opened inner)) :
    MemberPhrase body blocks members ts (.opened inner)
  | staticBlock {ts visibility us inner}
    (hprivacy : PrivacyPhrase body blocks ts (.member visibility))
    (h : StaticPhrase blocks us (.opened inner)) :
    MemberPhrase body blocks members (ts ++ us) (.opened inner)
  | item {ts visibility us scope vs added}
    (hprivacy : PrivacyPhrase body blocks ts (.member visibility))
    (hstatic : StaticPhrase blocks us (.member scope))
    (h : ItemPhrase Λ body scope (blocks.visibility?.getD visibility) members vs added) :
    MemberPhrase body blocks members (ts ++ us ++ vs) (.member added)

/-- What stands between a member or modifier block and what follows: a comma, which may be left out
before a brace. -/
inductive Separator : List Token → List Token → Prop where
  | comma {comma rest} (hcomma : comma.kind = .comma) : Separator [comma] rest
  | closing {right rest} (hright : right.kind = .rightBrace) : Separator [] (right :: rest)

/-- The rest of a body in which modifier blocks are open and members are read already. -/
inductive MembersPhrase (body : BodyKind) :
    OpenBlocks → MemberList Expr → List Token → MemberList Expr → Prop where
  | done {members right} (hright : right.kind = .rightBrace) :
    MembersPhrase body [] members [right] members
  | leave {block outer members right sep ts result} (hright : right.kind = .rightBrace)
    (hsep : Separator sep ts) (h : MembersPhrase body outer members ts result) :
    MembersPhrase body (block :: outer) members (right :: (sep ++ ts)) result
  | enter {blocks inner members ts us result}
    (hmember : MemberPhrase Λ body blocks members ts (.opened inner))
    (h : MembersPhrase body inner members us result) :
    MembersPhrase body blocks members (ts ++ us) result
  | member {blocks members ts added sep us result}
    (hmember : MemberPhrase Λ body blocks members ts (.member added)) (hsep : Separator sep us)
    (h : MembersPhrase body blocks added us result) :
    MembersPhrase body blocks members (ts ++ sep ++ us) result

/-! ## Expressions -/

/-- What an expression may open with. The tokens begin with the one that the production is found
by. -/
inductive Opened : Opening → List Token → Form Expr → Prop where
  | identifier {name} : Opened .identifier [name] (.identifier name.ident)
  | unary {op sign ts operand} (h : Λ.expr .unary ts operand) :
    Opened (.unary op) (sign :: ts) (.unary op operand)
  | literal {t value} (ht : Λ.token t) (h : t.literal? = some value) :
    Opened .literal [t] (.literal value)
  | block {ts block} (h : BlockPhrase Λ ts block) : Opened .block ts (.block block)
  | group {left ts inside right} (h : Λ.expr .lowest ts inside)
    (hright : right.kind = .rightParen) :
    Opened .group (left :: (ts ++ [right])) (.group inside)
  | conditional {ts form span} (h : ConditionalPhrase Λ ts ⟨form, span⟩) :
    Opened .conditional ts form
  | typeCast {left ts type right us value} (htype : Λ.type ts type)
    (hright : right.kind = .rightAngle) (hvalue : Λ.expr .unary us value) :
    Opened .typeCast (left :: (ts ++ right :: us)) (.typeCast type value)
  | declaration {keyword ts declared}
    (h : DeclarationPhrase Λ (if keyword.kind = .kwConst then .constant else .variable) ts
      declared) :
    Opened .declaration (keyword :: ts) (.declaration declared)
  | whileLoop {keyword ts condition us body} (hcondition : Λ.expr .lowest ts condition)
    (hbody : BlockPhrase Λ us body) :
    Opened .whileLoop (keyword :: (ts ++ us)) (.whileLoop condition body)
  | forLoop {keyword ts head us body} (hhead : ForHeadPhrase Λ keyword.span ts head)
    (hbody : BlockPhrase Λ us body) :
    Opened .forLoop (keyword :: (ts ++ us)) (.forLoop head body none)
  | endlessLoop {keyword ts body} (h : BlockPhrase Λ ts body) :
    Opened .endlessLoop (keyword :: ts) (.endlessLoop body none)
  | lambda {ts params us body} (hparams : LambdaParams Λ ts params)
    (hbody : Λ.expr .lowest us body) : Opened .lambda (ts ++ us) (.lambda params body)
  | function {keyword name ts definition} (hname : name.kind = .identifier)
    (h : FunctionPhrase Λ name.ident false ts definition) :
    Opened .function (keyword :: name :: ts) (.function definition)
  | classDef {keyword name ts params left us members} (hname : name.kind = .identifier)
    (hparams : TypeParams Λ ts params) (hleft : left.kind = .leftBrace)
    (hmembers : MembersPhrase Λ .ofClass [] .empty us members) :
    Opened .classDef (keyword :: name :: (ts ++ left :: us))
      (.classDef ⟨name.ident, keyword.kind == .kwStruct, params, members⟩)
  | traitDef {keyword lead name ts params left us members}
    (hlead : Keyword .kwTrait lead (keyword.kind == .kwStructural))
    (hname : name.kind = .identifier) (hparams : TypeParams Λ ts params)
    (hleft : left.kind = .leftBrace)
    (hmembers : MembersPhrase Λ .ofTrait [] .empty us members) :
    Opened .traitDef (keyword :: (lead ++ name :: (ts ++ left :: us)))
      (.traitDef ⟨name.ident, keyword.kind == .kwStructural, params, members⟩)
  | enumDef {keyword name ts params left us variants} (hname : name.kind = .identifier)
    (hparams : TypeParams Λ ts params) (hleft : left.kind = .leftBrace)
    (hvariants : Listed .rightBrace (VariantPhrase Λ) us variants) :
    Opened .enumDef (keyword :: name :: (ts ++ left :: us))
      (.enumDef ⟨name.ident, params, variants⟩)
  | importing {keyword ts path} (h : Λ.path ts path) :
    Opened .importing (keyword :: ts) (.importing path)
  | returning {keyword ts value} (h : Optionally (Λ.expr .lowest) ts value) :
    Opened .returning (keyword :: ts) (.returning value)
  /-- A label behind `break` is its own, and opens no value. -/
  | breaking {keyword ts label us value} (hlabel : LabelPhrase ts label)
    (hvalue : Optionally (Λ.expr .lowest) us value)
    (hfresh : label = none → ∀ t ∈ us.head?, t.kind ≠ .label) :
    Opened .breaking (keyword :: (ts ++ us)) (.breaking value label)
  | continuing {keyword ts label} (h : LabelPhrase ts label) :
    Opened .continuing (keyword :: ts) (.continuing label)
  /-- A label replaces one that its target already has. -/
  | label {label colon ts target labelled} (hcolon : colon.kind = .colon)
    (h : Λ.expr .tightest ts target) (hlabelled : target.withLabel? label.text = some labelled) :
    Opened .label (label :: colon :: ts) labelled.form
  | list {left ts elements} (h : Listed .rightBracket (Λ.expr .lowest) ts elements) :
    Opened .list (left :: ts) (.list elements)
  | binding {sign name ts value} (hname : name.kind = .identifier) (h : Λ.expr .lowest ts value) :
    Opened .binding (sign :: name :: ts) (.binding name.ident value)
  | mapping {tag left ts entries} (hleft : left.kind = .leftBrace)
    (h : Listed .rightBrace (EntryPhrase Λ) ts entries) :
    Opened .mapping (tag :: left :: ts) (.mapping (entries.map (·.1)) (entries.map (·.2)))

/-- How an expression may go on. The tokens begin with the one that the production is found by. -/
inductive Continued (left : Expr) : Continuation → List Token → Form Expr → Prop where
  | binary {op level sign ts right} (h : Λ.expr .sum ts right) :
    Continued left (.binary op level) (sign :: ts) (.binary op left right)
  | post {op sign} : Continued left (.post op) [sign] (.post op left)
  | property {dot name} (hname : name.kind = .identifier) :
    Continued left .property [dot, name] (.property left name.ident)
  | call {sign ts args} (h : Listed .rightParen (ArgumentPhrase Λ) ts args) :
    Continued left .call (sign :: ts) (.call left args)
  | element {sign ts indices} (h : Listed .rightBracket (Λ.expr .post) ts indices) :
    Continued left .element (sign :: ts) (.element left indices)
  | statement {sign ts rest} (h : Optionally (Λ.expr .lowest) ts rest) :
    Continued left .statement (sign :: ts) (.statement left rest)
  | assignment {sign ts value} (h : Λ.expr .lowest ts value)
    (hleft : left.isAssignable = true) :
    Continued left .assignment (sign :: ts) (.assignment left value)

/-- An expression whose form is spelled by some tokens, and which has their range. -/
def Spelled (F : List Token → Form Expr → Prop) (ts : List Token) (e : Expr) : Prop :=
  F ts e.form ∧ e.span = cover ts

/-- An expression: an opening, and any number of continuations that bind tighter than `least`, each
of them out of reach for the sub-expression that stands last in what it continues. -/
inductive Phrase (least : Precedence) : List Token → Expr → Prop where
  | opened {opening t ts form} (hopening : Grammar.standard.opening? t.kind = some opening)
    (haccepts : opening.accepts t = true) (h : Opened Λ opening (t :: ts) form) :
    Phrase least (t :: ts) ⟨form, cover (t :: ts)⟩
  | continued {ts left continuation t us form} (hleft : Phrase least ts left)
    (hcontinuation : Grammar.standard.continuation? t.kind = some continuation)
    (hlevel : continuation.level.exceeds least = true)
    (hgrip : continuation.level.exceeds left.form.grip = false)
    (h : Continued Λ left continuation (t :: us) form) :
    Phrase least (ts ++ t :: us) ⟨form, cover (ts ++ t :: us)⟩

/-! ## Closed languages -/

/-- A language that holds of the tokens in a setting, and of types, patterns and import paths that
are put together of its own. -/
structure Language.Grounded (K : Setting) : Prop where
  token : ∀ {t : Token}, K.Found t → Λ.token t
  type : ∀ {ts type}, TypePhrase Λ ts type → Λ.type ts type
  pattern : ∀ {ts pattern}, PatternPhrase Λ ts pattern → Λ.pattern ts pattern
  path : ∀ {ts path}, PathPhrase Λ ts path → Λ.path ts path

/-- A language that holds of the phrases of its own phrases, and of the tokens in a setting. -/
structure Language.Closed (K : Setting) : Prop extends Λ.Grounded K where
  expr : ∀ {least ts e}, Phrase Λ least ts e → Λ.expr least ts e

/-- The language of which nothing is known. -/
def Language.any : Language :=
  ⟨fun _ => True, fun _ _ _ => True, fun _ _ => True, fun _ _ => True, fun _ _ => True⟩

lemma Language.closed_any (K : Setting) : Language.any.Closed K :=
  ⟨⟨fun _ => trivial, fun _ => trivial, fun _ => trivial, fun _ => trivial⟩, fun _ => trivial⟩

/-! ## Facts about phrases -/

section Facts

variable {Λ}

lemma BlockPhrase.span_eq {ts : List Token} {block : Block Expr} (h : BlockPhrase Λ ts block) :
    block.span = cover ts := by
  cases h; rfl

lemma BlockPhrase.ne_nil {ts : List Token} {block : Block Expr} (h : BlockPhrase Λ ts block) :
    ts ≠ [] := by
  cases h
  exact List.cons_ne_nil _ _

lemma ConditionalPhrase.span_eq {ts : List Token} {e : Expr} (h : ConditionalPhrase Λ ts e) :
    e.span = cover ts := by
  cases h <;> rfl

lemma PatternPhrase.span_eq {ts : List Token} {pattern : Pattern} (h : PatternPhrase Λ ts pattern) :
    pattern.span = cover ts := by
  cases h <;> rfl

lemma PatternPhrase.ne_nil {ts : List Token} {pattern : Pattern} (h : PatternPhrase Λ ts pattern) :
    ts ≠ [] := by
  cases h <;> simp

lemma Phrase.span_eq {least : Precedence} {ts : List Token} {e : Expr} (h : Phrase Λ least ts e) :
    e.span = cover ts := by
  cases h <;> rfl

lemma Phrase.ne_nil {least : Precedence} {ts : List Token} {e : Expr} (h : Phrase Λ least ts e) :
    ts ≠ [] := by
  cases h <;> simp

end Facts

end FrontEnd
