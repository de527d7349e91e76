/-!
# Kinds of tokens

What a token is, apart from its text. Keywords and symbols are given by their spellings
(`TokenKind.keyword?`, `TokenKind.symbol?`); the other kinds are families of spellings.
-/

namespace FrontEnd

/-- The kind of a token. -/
inductive TokenKind where
  | stringLiteral
  | templateStringLiteral
  | numberLiteral
  | booleanLiteral
  | charLiteral
  | identifier
  | macroTag
  | label
  | kwFn
  | kwWhile
  | kwFor
  | kwIf
  | kwElse
  | kwContinue
  | kwBreak
  | kwLet
  | kwConst
  | kwLoop
  | kwIn
  | kwStatic
  | kwClass
  | kwPrivate
  | kwProtected
  | kwPublic
  | kwImport
  | kwReturn
  | kwAs
  | kwTrait
  | kwStructural
  | kwStruct
  | kwOperator
  | kwEnum
  | plus
  | doublePlus
  | minus
  | doubleMinus
  | star
  | doubleStar
  | slash
  | equals
  | doubleEquals
  | notEquals
  | ampersand
  | doubleAmpersand
  | pipe
  | doublePipe
  | caret
  | leftAngle
  | rightAngle
  | lessEqual
  | greaterEqual
  | leftShift
  | rightShift
  | bang
  | tilde
  | leftParen
  | rightParen
  | leftBracket
  | rightBracket
  | leftBrace
  | rightBrace
  | comma
  | dot
  | semicolon
  | colon
  | atSign
  | raw
  | endOfInput
  deriving DecidableEq, Repr

namespace TokenKind

/-- The name of a kind. -/
def name : TokenKind → String
  | .stringLiteral => "StringLiteral"
  | .templateStringLiteral => "TemplateStringLiteral"
  | .numberLiteral => "NumberLiteral"
  | .booleanLiteral => "BooleanLiteral"
  | .charLiteral => "CharLiteral"
  | .identifier => "Identifier"
  | .macroTag => "Macro"
  | .label => "Label"
  | .kwFn => "Fn"
  | .kwWhile => "While"
  | .kwFor => "For"
  | .kwIf => "If"
  | .kwElse => "Else"
  | .kwContinue => "Continue"
  | .kwBreak => "Break"
  | .kwLet => "Let"
  | .kwConst => "Const"
  | .kwLoop => "Loop"
  | .kwIn => "In"
  | .kwStatic => "Static"
  | .kwClass => "Class"
  | .kwPrivate => "Private"
  | .kwProtected => "Protected"
  | .kwPublic => "Public"
  | .kwImport => "Import"
  | .kwReturn => "Return"
  | .kwAs => "As"
  | .kwTrait => "Trait"
  | .kwStructural => "Structural"
  | .kwStruct => "Struct"
  | .kwOperator => "Operator"
  | .kwEnum => "Enum"
  | .plus => "Plus"
  | .doublePlus => "DoublePlus"
  | .minus => "Minus"
  | .doubleMinus => "DoubleMinus"
  | .star => "Star"
  | .doubleStar => "DoubleStar"
  | .slash => "Slash"
  | .equals => "Equals"
  | .doubleEquals => "DoubleEquals"
  | .notEquals => "NotEquals"
  | .ampersand => "Ampersand"
  | .doubleAmpersand => "DoubleAmpersand"
  | .pipe => "Pipe"
  | .doublePipe => "DoublePipe"
  | .caret => "Caret"
  | .leftAngle => "LeftAngle"
  | .rightAngle => "RightAngle"
  | .lessEqual => "LessEqual"
  | .greaterEqual => "GreaterEqual"
  | .leftShift => "LeftShift"
  | .rightShift => "RightShift"
  | .bang => "Bang"
  | .tilde => "Tilde"
  | .leftParen => "LeftParen"
  | .rightParen => "RightParen"
  | .leftBracket => "LeftBracket"
  | .rightBracket => "RightBracket"
  | .leftBrace => "LeftBrace"
  | .rightBrace => "RightBrace"
  | .comma => "Comma"
  | .dot => "Dot"
  | .semicolon => "Semicolon"
  | .colon => "Colon"
  | .atSign => "At"
  | .raw => "Raw"
  | .endOfInput => "Eof"

/-- Every kind. -/
def all : List TokenKind :=
  [.stringLiteral, .templateStringLiteral, .numberLiteral, .booleanLiteral, .charLiteral,
    .identifier, .macroTag, .label, .kwFn, .kwWhile, .kwFor, .kwIf, .kwElse, .kwContinue,
    .kwBreak, .kwLet, .kwConst, .kwLoop, .kwIn, .kwStatic, .kwClass, .kwPrivate, .kwProtected,
    .kwPublic, .kwImport, .kwReturn, .kwAs, .kwTrait, .kwStructural, .kwStruct, .kwOperator,
    .kwEnum, .plus, .doublePlus, .minus, .doubleMinus, .star, .doubleStar, .slash, .equals,
    .doubleEquals, .notEquals, .ampersand, .doubleAmpersand, .pipe, .doublePipe, .caret,
    .leftAngle, .rightAngle, .lessEqual, .greaterEqual, .leftShift, .rightShift, .bang, .tilde,
    .leftParen, .rightParen, .leftBracket, .rightBracket, .leftBrace, .rightBrace, .comma, .dot,
    .semicolon, .colon, .atSign, .raw, .endOfInput]

/-- The kind with a given name. -/
def ofName? (name : String) : Option TokenKind :=
  all.find? (·.name == name)

/-- The keyword that a word spells. The words `true` and `false` are literals, not keywords. -/
def keyword? : String → Option TokenKind
  | "fn" => some .kwFn
  | "while" => some .kwWhile
  | "for" => some .kwFor
  | "if" => some .kwIf
  | "else" => some .kwElse
  | "continue" => some .kwContinue
  | "break" => some .kwBreak
  | "let" => some .kwLet
  | "const" => some .kwConst
  | "loop" => some .kwLoop
  | "in" => some .kwIn
  | "static" => some .kwStatic
  | "class" => some .kwClass
  | "private" => some .kwPrivate
  | "protected" => some .kwProtected
  | "public" => some .kwPublic
  | "import" => some .kwImport
  | "return" => some .kwReturn
  | "as" => some .kwAs
  | "trait" => some .kwTrait
  | "structural" => some .kwStructural
  | "struct" => some .kwStruct
  | "operator" => some .kwOperator
  | "enum" => some .kwEnum
  | _ => none

/-- The symbol that a text spells: an operator, a bracket or a punctuation mark. -/
def symbol? : List Char → Option TokenKind
  | ['+'] => some .plus
  | ['+', '+'] => some .doublePlus
  | ['-'] => some .minus
  | ['-', '-'] => some .doubleMinus
  | ['*'] => some .star
  | ['*', '*'] => some .doubleStar
  | ['/'] => some .slash
  | ['='] => some .equals
  | ['=', '='] => some .doubleEquals
  | ['!', '='] => some .notEquals
  | ['&'] => some .ampersand
  | ['&', '&'] => some .doubleAmpersand
  | ['|'] => some .pipe
  | ['|', '|'] => some .doublePipe
  | ['^'] => some .caret
  | ['<'] => some .leftAngle
  | ['>'] => some .rightAngle
  | ['<', '='] => some .lessEqual
  | ['>', '='] => some .greaterEqual
  | ['<', '<'] => some .leftShift
  | ['>', '>'] => some .rightShift
  | ['!'] => some .bang
  | ['~'] => some .tilde
  | ['('] => some .leftParen
  | [')'] => some .rightParen
  | ['['] => some .leftBracket
  | [']'] => some .rightBracket
  | ['{'] => some .leftBrace
  | ['}'] => some .rightBrace
  | [','] => some .comma
  | ['.'] => some .dot
  | [';'] => some .semicolon
  | [':'] => some .colon
  | ['@'] => some .atSign
  | _ => none

/-- Whether a kind is a keyword. -/
def isKeyword : TokenKind → Bool
  | .kwFn | .kwWhile | .kwFor | .kwIf | .kwElse | .kwContinue | .kwBreak | .kwLet | .kwConst |
    .kwLoop | .kwIn | .kwStatic | .kwClass | .kwPrivate | .kwProtected | .kwPublic | .kwImport |
    .kwReturn | .kwAs | .kwTrait | .kwStructural | .kwStruct | .kwOperator | .kwEnum => true
  | _ => false

/-- Whether a kind is an operator that types can overload. -/
def isOperator : TokenKind → Bool
  | .plus | .minus | .doublePlus | .doubleMinus | .star | .doubleStar | .slash | .doubleEquals |
    .pipe | .doublePipe | .ampersand | .doubleAmpersand | .caret | .leftAngle | .rightAngle |
    .greaterEqual | .lessEqual | .leftShift | .rightShift | .tilde | .bang => true
  | _ => false

/-- Whether an operator has a form with one operand. -/
def isUnaryOperator : TokenKind → Bool
  | .minus | .doublePlus | .doubleMinus | .tilde | .bang => true
  | _ => false

/-- Whether an operator has no form with two operands. -/
def isUnaryOnly : TokenKind → Bool
  | .doublePlus | .doubleMinus | .tilde | .bang => true
  | _ => false

/-- How messages describe a kind that was expected. -/
def explanation? : TokenKind → Option String
  | .identifier => some "'an identifier, e.g. myVariable'"
  | .leftBracket => some "'['"
  | .rightBracket => some "']'"
  | .leftBrace => some "'\x7b'"
  | .rightBrace => some "'\x7d'"
  | .leftAngle => some "'<'"
  | .rightAngle => some "'>'"
  | .leftParen => some "'('"
  | .rightParen => some "')'"
  | .ampersand => some "'&'"
  | .pipe => some "'|'"
  | .doubleAmpersand => some "'&&'"
  | .doublePipe => some "'||'"
  | _ => none

end TokenKind

end FrontEnd
