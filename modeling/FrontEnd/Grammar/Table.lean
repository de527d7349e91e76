import FrontEnd.Grammar.Precedence
import FrontEnd.Token.Basic

/-!
# The grammar as a table

A production is found by the kind of a token: the one that opens an expression, continues one, or
opens a pattern. The table says which production stands for which kind, and how tightly a
continuation binds; what a production reads is defined with the productions.
-/

namespace FrontEnd

/-- The productions that open an expression. -/
inductive Opening where
  | identifier
  | unary (op : UnaryOp)
  | literal
  | block
  | group
  | conditional
  | typeCast
  | declaration
  | whileLoop
  | forLoop
  | endlessLoop
  | lambda
  | function
  | classDef
  | traitDef
  | enumDef
  | importing
  | returning
  | breaking
  | continuing
  | label
  | list
  | binding
  | mapping
  deriving DecidableEq, Repr

/-- The productions that continue an expression. -/
inductive Continuation where
  | binary (op : BinaryOp) (level : Precedence)
  | post (op : PostOp)
  | property
  | call
  | element
  | statement
  | assignment
  deriving DecidableEq, Repr

/-- The productions that open a pattern. -/
inductive PatternOpening where
  | named
  | plain
  | list
  | object
  deriving DecidableEq, Repr

/-- What a production is called. -/
def Opening.name : Opening → String
  | identifier => "identifier"
  | unary _ => "prefix operator"
  | literal => "literal"
  | block => "block"
  | group => "group"
  | conditional => "if"
  | typeCast => "type cast"
  | declaration => "declaration"
  | whileLoop => "while"
  | forLoop => "for"
  | endlessLoop => "loop"
  | lambda => "lambda"
  | function => "function"
  | classDef => "class"
  | traitDef => "trait"
  | enumDef => "enum"
  | importing => "import"
  | returning => "return"
  | breaking => "break"
  | continuing => "continue"
  | label => "label"
  | list => "list"
  | binding => "at"
  | mapping => "map"

/-- Whether a production takes the token it was found by. Of the macros, only `map!` opens an
expression. -/
def Opening.accepts (o : Opening) (t : Token) : Bool :=
  match o with
  | mapping => t.text == "map!"
  | _ => true

/-- What a continuation is called. -/
def Continuation.name : Continuation → String
  | binary .. => "infix operator"
  | post _ => "postfix operator"
  | property => "property access"
  | call => "call"
  | element => "element access"
  | statement => "statement"
  | assignment => "assignment"

/-- How tightly a continuation binds. -/
def Continuation.level : Continuation → Precedence
  | binary _ level => level
  | post _ => .post
  | property => .property
  | call => .call
  | element => .post
  | statement => .statement
  | assignment => .assignment

/-- What a production of patterns is called. -/
def PatternOpening.name : PatternOpening → String
  | named => "named pattern"
  | plain => "name pattern"
  | list => "list pattern"
  | object => "object pattern"

/-- Which production stands for which kind of token. -/
structure Grammar where
  opening? : TokenKind → Option Opening
  continuation? : TokenKind → Option Continuation
  pattern? : TokenKind → Option PatternOpening

namespace Grammar

/-- The grammar without productions. -/
def empty : Grammar :=
  ⟨fun _ => none, fun _ => none, fun _ => none⟩

/-- The production that a kind of token opens an expression with. -/
def standardOpening? : TokenKind → Option Opening
  | .identifier => some .identifier
  | .plus => some (.unary .plus)
  | .minus => some (.unary .neg)
  | .tilde => some (.unary .bitNot)
  | .bang => some (.unary .not)
  | .booleanLiteral | .charLiteral | .stringLiteral | .numberLiteral | .templateStringLiteral =>
    some .literal
  | .leftBrace => some .block
  | .leftParen => some .group
  | .kwIf => some .conditional
  | .leftAngle => some .typeCast
  | .kwLet | .kwConst => some .declaration
  | .kwWhile => some .whileLoop
  | .kwFor => some .forLoop
  | .kwLoop => some .endlessLoop
  | .pipe | .doublePipe => some .lambda
  | .kwFn => some .function
  | .kwClass | .kwStruct => some .classDef
  | .kwTrait | .kwStructural => some .traitDef
  | .kwEnum => some .enumDef
  | .kwImport => some .importing
  | .kwReturn => some .returning
  | .kwBreak => some .breaking
  | .kwContinue => some .continuing
  | .label => some .label
  | .leftBracket => some .list
  | .atSign => some .binding
  | .macroTag => some .mapping
  | _ => none

/-- The production that a kind of token continues an expression with. -/
def standardContinuation? : TokenKind → Option Continuation
  | .ampersand => some (.binary .bitAnd .conditional)
  | .doubleAmpersand => some (.binary .and .sum)
  | .pipe => some (.binary .bitOr .conditional)
  | .doublePipe => some (.binary .or .sum)
  | .star => some (.binary .mul .product)
  | .doubleStar => some (.binary .pow .exponent)
  | .minus => some (.binary .sub .sum)
  | .plus => some (.binary .add .sum)
  | .slash => some (.binary .div .product)
  | .caret => some (.binary .xor .sum)
  | .doubleEquals => some (.binary .eq .conditional)
  | .greaterEqual => some (.binary .ge .conditional)
  | .lessEqual => some (.binary .le .conditional)
  | .notEquals => some (.binary .ne .conditional)
  | .leftShift => some (.binary .shl .sum)
  | .rightShift => some (.binary .shr .sum)
  | .leftAngle => some (.binary .lt .conditional)
  | .rightAngle => some (.binary .gt .conditional)
  | .dot => some .property
  | .leftParen => some .call
  | .leftBracket => some .element
  | .semicolon => some .statement
  | .equals => some .assignment
  | .doublePlus => some (.post .increment)
  | .doubleMinus => some (.post .decrement)
  | _ => none

/-- The production that a kind of token opens a pattern with. -/
def standardPattern? : TokenKind → Option PatternOpening
  | .atSign => some .named
  | .identifier => some .plain
  | .leftBracket => some .list
  | .leftBrace => some .object
  | _ => none

/-- The grammar of the language. -/
def standard : Grammar :=
  ⟨standardOpening?, standardContinuation?, standardPattern?⟩

end Grammar

end FrontEnd
