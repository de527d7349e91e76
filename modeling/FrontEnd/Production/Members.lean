import FrontEnd.Production.Functions

/-!
# Classes and traits

The bodies of classes and traits have one grammar. Members are separated by commas and may stand
in blocks that give all of them a modifier: `static`, `public` or `protected`. Such blocks nest at
most two deep, and no block stands in one of its own sort.
-/

namespace FrontEnd.Production

open Parse

/-- Whether a body belongs to a class (or struct) or to a trait. -/
inductive BodyKind where
  | ofClass
  | ofTrait
  deriving DecidableEq, Repr

namespace BodyKind

/-- The visibility of a member without a privacy keyword. -/
def defaultVisibility : BodyKind → Visibility
  | ofClass => .personal
  | ofTrait => .everyone

/-- Whether functions may be signatures without a body. -/
def allowsSignatures : BodyKind → Bool
  | ofClass => false
  | ofTrait => true

/-- The message for a definition whose name is no identifier. -/
def badName : BodyKind → Code × String
  | ofClass => (.classNameNotIdentifier, "Class names must be identifiers")
  | ofTrait => (.traitNameNotIdentifier, "Trait names must be identifiers")

/-- The message for a comma where a member should start. -/
def leadingComma : BodyKind → Code × String
  | ofClass => (.classComma, "Double / leading commas are not allowed in classes")
  | ofTrait => (.traitComma, "Double / leading commas are not allowed in traits")

/-- The code for a token that starts no member. -/
def unexpectedMember : BodyKind → Code
  | ofClass => .unexpectedClassMember
  | ofTrait => .unexpectedTraitMember

/-- The warning for a `private` keyword. -/
def privateWarning : BodyKind → Code × String
  | ofClass => (.redundantPrivate, Code.redundantPrivate.title)
  | ofTrait =>
    (.privateTraitMember, "Private members in traits can never be used by implementors")

end BodyKind

/-- A block of members with a modifier. -/
inductive ModifierBlock where
  | ofStatic
  | ofPublic
  | ofProtected
  deriving DecidableEq, Repr

/-- The open modifier blocks, innermost first. -/
abbrev OpenBlocks := List ModifierBlock

namespace OpenBlocks

/-- Whether a block gives its members a visibility. -/
def isPrivacy (blocks : OpenBlocks) : Bool :=
  blocks.contains .ofPublic || blocks.contains .ofProtected

/-- Whether a block makes its members static. -/
def isStatic (blocks : OpenBlocks) : Bool :=
  blocks.contains .ofStatic

/-- The visibility that the open blocks give, if they give one. -/
def visibility? (blocks : OpenBlocks) : Option Visibility :=
  if blocks.contains .ofProtected then some .family
  else if blocks.contains .ofPublic then some .everyone
  else none

end OpenBlocks

/-- Opens a modifier block at its brace. -/
def openBlock (blocks : OpenBlocks) (block : ModifierBlock) (brace : Token) :
    Parse OpenBlocks := do
  if 2 ≤ blocks.length ∨ block ∈ blocks then
    refuse .invalidModifierBlock brace.span Code.invalidModifierBlock.title
  else return block :: blocks

/-- Whether a kind of token can start a member. -/
def startsMember : TokenKind → Bool
  | .kwPublic | .kwFn | .identifier | .kwPrivate | .kwProtected | .kwConst | .kwStatic |
    .kwOperator => true
  | _ => false

/-- Refuses a token that starts no member. -/
def checkMemberStart (body : BodyKind) (first : Token) : Parse Unit := do
  if first.kind = .comma then
    refuse body.leadingComma.1 first.span body.leadingComma.2
  else if startsMember first.kind then return ()
  else
    refuse body.unexpectedMember first.span
      ("One of ('private', 'protected', 'public', 'const', 'static', <identifier>) was " ++
        "expected, found TokenType." ++ first.kind.name ++ " instead")

/-- Refuses a privacy keyword inside a privacy block. -/
def checkPrivacy (blocks : OpenBlocks) (keyword : Token) : Parse Unit := do
  if blocks.isPrivacy then
    refuse .nestedModifier keyword.span "Privacy specifiers are not allowed within privacy blocks"
  else return ()

/-- What the modifiers before a member turned out to be: the opening of a block, or a value for
the member itself. -/
inductive Modified (α : Type) where
  | opened (blocks : OpenBlocks)
  | member (value : α)

/-- Reads what follows `public` or `protected`: the brace of a block, or the member itself. -/
def afterPrivacy (blocks : OpenBlocks) (keyword : Token) (block : ModifierBlock)
    (visibility : Visibility) : Parse (Modified Visibility) := do
  match ← take? .leftBrace with
  | some brace => return .opened (← openBlock blocks block brace)
  | none =>
    checkPrivacy blocks keyword
    return .member visibility

/-- Reads what follows `private`, which is worth a warning. -/
def afterPrivate (body : BodyKind) (blocks : OpenBlocks) (keyword : Token) :
    Parse (Modified Visibility) := do
  checkPrivacy blocks keyword
  warn body.privateWarning.1 keyword.span body.privateWarning.2
  return .member .personal

/-- A token with the visibility that it stands for, if it is a privacy keyword. -/
def privacyKeyword? (token : Token) : Option (Token × Visibility) :=
  match token.kind with
  | .kwPrivate => some (token, .personal)
  | .kwPublic => some (token, .everyone)
  | .kwProtected => some (token, .family)
  | _ => none

/-- Reads the privacy keyword of a member or block, if it has one. -/
def privacy (body : BodyKind) (blocks : OpenBlocks) : Parse (Modified Visibility) := do
  match ← takeIf privacyKeyword? with
  | some (keyword, .personal) => afterPrivate body blocks keyword
  | some (keyword, .everyone) => afterPrivacy blocks keyword .ofPublic .everyone
  | some (keyword, .family) => afterPrivacy blocks keyword .ofProtected .family
  | none => return .member body.defaultVisibility

/-- Reads what follows `static`: the brace of a block, or the member itself. -/
def afterStatic (blocks : OpenBlocks) (keyword : Token) : Parse (Modified Scope) := do
  match ← take? .leftBrace with
  | some brace => return .opened (← openBlock blocks .ofStatic brace)
  | none =>
    if blocks.isStatic then
      refuse .nestedModifier keyword.span "'static' is not allowed within static blocks"
    else return .member .ofType

/-- Reads `static`, if it is there. -/
def staticness (blocks : OpenBlocks) : Parse (Modified Scope) := do
  match ← take? .kwStatic with
  | some keyword => afterStatic blocks keyword
  | none => return .member (if blocks.isStatic then .ofType else .ofInstance)

/-- The operators that the message for a missing one names. -/
def operatorHint : String :=
  "! * ** / + - | || & && ^ >> << < > >= <= == ~"

/-- Why an overload with a number of parameters is refused, if it is. -/
def arityProblem? (op : TokenKind) (arity : Nat) : Option (Code × String) :=
  if 1 < arity then
    some (.tooManyOverloadArguments,
      "Operator overloading functions can only have no arguments or one argument")
  else if arity = 0 ∧ !op.isUnaryOperator then
    some (.binaryOverloadArity, "Non-unary operator overloads must have exactly one argument")
  else if arity ≠ 0 ∧ op.isUnaryOnly then
    some (.unaryOverloadArity,
      "Unary only operator overloads (unary only operators are ~ ++ -- !) must have no arguments")
  else none

variable (expr : Precedence → Parse Expr)

/-- The failure to find an operator at a token. -/
def noOperator (token : Token) : Diagnostic :=
  Diagnostic.grammatical .expectedOperator token.span
    ("An operator was expected, got '" ++ token.lexeme ++ "' instead (valid operators are " ++
      operatorHint ++ ")")

/-- Reads the operator of an overload. -/
def overloadedOperator : Parse Token :=
  accept (fun t => if t.kind.isOperator then some t else none) noOperator

/-- Reads an overload after `operator`. The keyword `fn` may stand after the operator. -/
def operatorOverload (allowSignature : Bool) : Parse (Overload Expr) := do
  let op ← overloadedOperator
  discard (eat .kwFn)
  let start ← peek
  let function ← functionRest expr op.ident allowSignature
  match arityProblem? op.kind function.params.length with
  | some (code, message) => refuse code (← spanFrom start.span) message
  | none => return ⟨op.text, function⟩

/-- Why a property is refused, if it is: its plain name is not new, or it has no type in a
trait. -/
def propertyProblem? (body : BodyKind) (members : MemberList Expr) (declared : Declaration Expr) :
    Option (Code × String) :=
  if declared.simpleName?.any fun name => (members.property? name).isSome then
    some (.duplicateProperty, "A property with the same name has already been defined")
  else if body = .ofTrait ∧ declared.type.isNone then
    some (.untypedTraitProperty, "Trait properties must be explicitly typed")
  else none

/-- Consumes `const`, if it is there. -/
def propertyKind : Parse DeclKind := do
  if ← eat .kwConst then return .constant else return .variable

/-- Reads a property of a class or trait. -/
def propertyMember (body : BodyKind) (members : MemberList Expr) : Parse (Declaration Expr) := do
  let start ← peek
  let kind ← propertyKind
  let declared ← declarationBody expr kind
  match propertyProblem? body members declared with
  | some (code, message) => refuse code start.span message
  | none => return declared

/-- Reads the member itself, after its modifiers. -/
def memberItem (body : BodyKind) (scope : Scope) (visibility : Visibility)
    (members : MemberList Expr) : Parse (MemberList Expr) := do
  if ← eat .kwFn then
    let function ← namedFunction expr body.allowsSignatures
    return members.addMethod ⟨function, scope, visibility⟩
  else if ← eat .kwOperator then
    return members.addOperator (← operatorOverload expr body.allowsSignatures)
  else
    let declared ← propertyMember expr body members
    return members.addProperty ⟨declared, scope, visibility⟩

/-- Reads the modifiers of a member and the member itself, or the opening of a modifier block. -/
def modifiedMember (body : BodyKind) (blocks : OpenBlocks) (members : MemberList Expr) :
    Parse (Modified (MemberList Expr)) := do
  match ← privacy body blocks with
  | .opened blocks => return .opened blocks
  | .member visibility =>
    match ← staticness blocks with
    | .opened blocks => return .opened blocks
    | .member scope =>
      let visibility := blocks.visibility?.getD visibility
      return .member (← memberItem expr body scope visibility members)

/-- Reads a member with its modifiers, or the opening of a modifier block. -/
def member (body : BodyKind) (blocks : OpenBlocks) (members : MemberList Expr) :
    Parse (Modified (MemberList Expr)) := do
  let first ← peek
  checkMemberStart body first
  modifiedMember expr body blocks members

/-- Reads the comma after a member or a modifier block, which may be left out before a brace. -/
def memberEnd : Parse Unit := do
  if ← nextIs .rightBrace then return ()
  else discard (consume .comma "a comma is required after properties / methods")

/-- Reads members through the brace that closes the body, in at most `fuel` steps. -/
def membersWithin (body : BodyKind) :
    Nat → OpenBlocks → MemberList Expr → Parse (MemberList Expr)
  | 0, _, _ => exhausted
  | fuel + 1, blocks, members => do
    if ← eat .rightBrace then
      match blocks with
      | [] => return members
      | _ :: outer =>
        memberEnd
        membersWithin body fuel outer members
    else
      match ← member expr body blocks members with
      | .opened blocks => membersWithin body fuel blocks members
      | .member members =>
        memberEnd
        membersWithin body fuel blocks members

/-- Reads the members of a body after its opening brace. -/
def memberList (body : BodyKind) : Parse (MemberList Expr) := do
  membersWithin expr body (← read).limit [] .empty

/-- Reads a pattern where only a name will do, and gives back the name. A pattern of another shape,
or what the parser cannot read as a pattern, is no name. -/
def patternName? : Parse (Option Ident) := fun session s =>
  match pattern session s with
  | .ok p s => .ok p.simpleName? s
  | .error d s => if d.stage = .parser then .ok none s else .error d s

/-- Reads the name of a class or trait. Anything but a name is refused at its first token. -/
def definitionName (body : BodyKind) : Parse Ident := do
  let start ← checkpoint
  match ← patternName? with
  | some name => return name
  | none =>
    restore start
    refuseNext body.badName.1 body.badName.2

/-- Reads type parameters, if there are any, and the brace that opens a body. -/
def definitionParams : Parse (List TypeParam) := do
  if ← nextIs .leftBracket then
    let params ← typeParams
    discard (consume .leftBrace "expected a '\x7b' after the type parameters")
    return params
  else
    discard (consume .leftBrace "expected a '\x7b' after the class name")
    return []

/-- Reads a class or struct after its keyword. -/
def classDef (token : Token) : Parse Expr := do
  let name ← definitionName .ofClass
  let params ← definitionParams
  let members ← memberList expr .ofClass
  return ⟨.classDef ⟨name, token.kind == .kwStruct, params, members⟩, ← spanFrom token.span⟩

/-- Consumes the `trait` that has to follow `structural`. -/
def traitKeyword (isStructural : Bool) : Parse Unit :=
  if isStructural then discard (consume .kwTrait "expected 'trait' after 'structural'")
  else return ()

/-- Reads a trait after `trait` or `structural`. -/
def traitDef (token : Token) : Parse Expr := do
  let isStructural := token.kind == .kwStructural
  traitKeyword isStructural
  let name ← definitionName .ofTrait
  let params ← definitionParams
  let members ← memberList expr .ofTrait
  return ⟨.traitDef ⟨name, isStructural, params, members⟩, ← spanFrom token.span⟩

end FrontEnd.Production
