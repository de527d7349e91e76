import FrontEnd.Text.Blank

/-!
# Codes

Every message of the front end carries a code such as `E00004`, under which the catalog lists a
title and an explanation. Warnings have codes that start with `W`. One code stands outside the
catalog: `expectedExpression` shares its text with `leadingOrDoubleComma`, which the catalog lists.
-/

namespace FrontEnd

/-- What a message is about. -/
inductive Code where
  | unterminatedComment
  | emptyHexLiteral
  | emptyOctalLiteral
  | unterminatedString
  | unexpectedEof
  | invalidEscape
  | emptyBinaryLiteral
  | invalidCharacter
  | escapedNewlineInChar
  | unterminatedChar
  | invalidLabel
  | unexpectedToken
  | leadingOrDoubleComma
  | missingComma
  | emptyTypeParameters
  | missingArgumentList
  | untypedArgument
  | emptyConstraintList
  | classComma
  | invalidAssignmentTarget
  | unclosedTemplateExpression
  | unlabelableExpression
  | listComma
  | listSeparator
  | mapComma
  | mapSeparator
  | expectedPattern
  | importComma
  | importSeparator
  | emptyImport
  | listPatternComma
  | listPatternSeparator
  | objectPatternComma
  | objectPatternSeparator
  | classNameNotIdentifier
  | traitNameNotIdentifier
  | traitComma
  | unexpectedTraitMember
  | untypedTraitProperty
  | missingInitializer
  | invalidModifierBlock
  | nestedModifier
  | duplicateProperty
  | expectedOperator
  | tooManyOverloadArguments
  | binaryOverloadArity
  | unaryOverloadArity
  | enumComma
  | unexpectedClassMember
  | expectedExpression
  | internalFailure
  | leadingZero
  | redundantPrivate
  | unnecessaryDollarEscape
  | privateTraitMember
  deriving DecidableEq, Repr

namespace Code

/-- The codes of the catalog, in its order. -/
def catalog : List Code :=
  [.unterminatedComment, .emptyHexLiteral, .emptyOctalLiteral, .unterminatedString,
    .unexpectedEof, .invalidEscape, .emptyBinaryLiteral, .invalidCharacter, .escapedNewlineInChar,
    .unterminatedChar, .invalidLabel, .unexpectedToken, .leadingOrDoubleComma, .missingComma,
    .emptyTypeParameters, .missingArgumentList, .untypedArgument, .emptyConstraintList,
    .classComma, .invalidAssignmentTarget, .unclosedTemplateExpression, .unlabelableExpression,
    .listComma, .listSeparator, .mapComma, .mapSeparator, .expectedPattern, .importComma,
    .importSeparator, .emptyImport, .listPatternComma, .listPatternSeparator, .objectPatternComma,
    .objectPatternSeparator, .classNameNotIdentifier, .traitNameNotIdentifier, .traitComma,
    .unexpectedTraitMember, .untypedTraitProperty, .missingInitializer, .invalidModifierBlock,
    .nestedModifier, .duplicateProperty, .expectedOperator, .tooManyOverloadArguments,
    .binaryOverloadArity, .unaryOverloadArity, .enumComma, .unexpectedClassMember,
    .internalFailure, .leadingZero, .redundantPrivate, .unnecessaryDollarEscape,
    .privateTraitMember]

/-- The name of a code. -/
def name : Code → String
  | .unterminatedComment => "UnterminatedComment"
  | .emptyHexLiteral => "EmptyHexLiteral"
  | .emptyOctalLiteral => "EmptyOctalLiteral"
  | .unterminatedString => "UnterminatedString"
  | .unexpectedEof => "UnexpectedEof"
  | .invalidEscape => "InvalidEscape"
  | .emptyBinaryLiteral => "EmptyBinaryLiteral"
  | .invalidCharacter => "InvalidCharacter"
  | .escapedNewlineInChar => "EscapedNewlineInChar"
  | .unterminatedChar => "UnterminatedChar"
  | .invalidLabel => "InvalidLabel"
  | .unexpectedToken => "UnexpectedToken"
  | .leadingOrDoubleComma => "LeadingOrDoubleComma"
  | .missingComma => "MissingComma"
  | .emptyTypeParameters => "EmptyTypeParameters"
  | .missingArgumentList => "MissingArgumentList"
  | .untypedArgument => "UntypedArgument"
  | .emptyConstraintList => "EmptyConstraintList"
  | .classComma => "ClassComma"
  | .invalidAssignmentTarget => "InvalidAssignmentTarget"
  | .unclosedTemplateExpression => "UnclosedTemplateExpression"
  | .unlabelableExpression => "UnlabelableExpression"
  | .listComma => "ListComma"
  | .listSeparator => "ListSeparator"
  | .mapComma => "MapComma"
  | .mapSeparator => "MapSeparator"
  | .expectedPattern => "ExpectedPattern"
  | .importComma => "ImportComma"
  | .importSeparator => "ImportSeparator"
  | .emptyImport => "EmptyImport"
  | .listPatternComma => "ListPatternComma"
  | .listPatternSeparator => "ListPatternSeparator"
  | .objectPatternComma => "ObjectPatternComma"
  | .objectPatternSeparator => "ObjectPatternSeparator"
  | .classNameNotIdentifier => "ClassNameNotIdentifier"
  | .traitNameNotIdentifier => "TraitNameNotIdentifier"
  | .traitComma => "TraitComma"
  | .unexpectedTraitMember => "UnexpectedTraitMember"
  | .untypedTraitProperty => "UntypedTraitProperty"
  | .missingInitializer => "MissingInitializer"
  | .invalidModifierBlock => "InvalidModifierBlock"
  | .nestedModifier => "NestedModifier"
  | .duplicateProperty => "DuplicateProperty"
  | .expectedOperator => "ExpectedOperator"
  | .tooManyOverloadArguments => "TooManyOverloadArguments"
  | .binaryOverloadArity => "BinaryOverloadArity"
  | .unaryOverloadArity => "UnaryOverloadArity"
  | .enumComma => "EnumComma"
  | .unexpectedClassMember => "UnexpectedClassMember"
  | .expectedExpression => "ExpectedExpression"
  | .internalFailure => "InternalFailure"
  | .leadingZero => "LeadingZero"
  | .redundantPrivate => "RedundantPrivate"
  | .unnecessaryDollarEscape => "UnnecessaryDollarEscape"
  | .privateTraitMember => "PrivateTraitMember"

/-- The text of a code: a letter for its severity and five digits. -/
def text : Code → String
  | .unterminatedComment => "E00001"
  | .emptyHexLiteral => "E00002"
  | .emptyOctalLiteral => "E00003"
  | .unterminatedString => "E00004"
  | .unexpectedEof => "E00005"
  | .invalidEscape => "E00006"
  | .emptyBinaryLiteral => "E00007"
  | .invalidCharacter => "E00008"
  | .escapedNewlineInChar => "E00009"
  | .unterminatedChar => "E00013"
  | .invalidLabel => "E00021"
  | .unexpectedToken => "E00010"
  | .leadingOrDoubleComma => "E00011"
  | .missingComma => "E00012"
  | .emptyTypeParameters => "E00014"
  | .missingArgumentList => "E00015"
  | .untypedArgument => "E00016"
  | .emptyConstraintList => "E00017"
  | .classComma => "E00018"
  | .invalidAssignmentTarget => "E00019"
  | .unclosedTemplateExpression => "E00020"
  | .unlabelableExpression => "E00022"
  | .listComma => "E00023"
  | .listSeparator => "E00024"
  | .mapComma => "E00025"
  | .mapSeparator => "E00026"
  | .expectedPattern => "E00027"
  | .importComma => "E00028"
  | .importSeparator => "E00029"
  | .emptyImport => "E00030"
  | .listPatternComma => "E00031"
  | .listPatternSeparator => "E00032"
  | .objectPatternComma => "E00033"
  | .objectPatternSeparator => "E00034"
  | .classNameNotIdentifier => "E00035"
  | .traitNameNotIdentifier => "E00036"
  | .traitComma => "E00037"
  | .unexpectedTraitMember => "E00038"
  | .untypedTraitProperty => "E00039"
  | .missingInitializer => "E00040"
  | .invalidModifierBlock => "E00041"
  | .nestedModifier => "E00042"
  | .duplicateProperty => "E00043"
  | .expectedOperator => "E00044"
  | .tooManyOverloadArguments => "E00045"
  | .binaryOverloadArity => "E00046"
  | .unaryOverloadArity => "E00047"
  | .enumComma => "E00048"
  | .unexpectedClassMember => "E00049"
  | .expectedExpression => "E00011"
  | .internalFailure => "E99999"
  | .leadingZero => "W00001"
  | .redundantPrivate => "W00002"
  | .unnecessaryDollarEscape => "W00003"
  | .privateTraitMember => "W00004"

/-- Whether a code stands for a warning. -/
def isWarning : Code → Bool
  | .leadingZero | .redundantPrivate | .unnecessaryDollarEscape | .privateTraitMember => true
  | _ => false

/-- The bracketed tag that starts a rendered message. -/
def tag (code : Code) : String :=
  "[ESC" ++ code.text ++ "]"

/-- The short title of a code. -/
def title : Code → String
  | .unterminatedComment => "Comments opened with /* must be closed before EOF"
  | .emptyHexLiteral => "Hexadecimal numbers must contain at least one digit"
  | .emptyOctalLiteral => "Octal numbers must contain at least one digit"
  | .unterminatedString => "Endless string"
  | .unexpectedEof => "Trying to access a character past EOF"
  | .invalidEscape => "Invalid escape sequence"
  | .emptyBinaryLiteral => "Binary numbers must contain at least one digit"
  | .invalidCharacter => "Invalid character"
  | .escapedNewlineInChar => "Cannot escape a newline in a character literal"
  | .unterminatedChar => "Character literals must be closed"
  | .invalidLabel => "Malformed label"
  | .unexpectedToken => "Expected TokenType.<token type>, got <text> : <explanation>"
  | .leadingOrDoubleComma => "Could not parse (misplaced comma or missing expression)"
  | .missingComma => "(Arguments | Indices) should be separated by commas"
  | .emptyTypeParameters => "Unexpected empty type parameters"
  | .missingArgumentList => "A left parenthesis is required to start a function's argument list"
  | .untypedArgument => "Function arguments must be typed"
  | .emptyConstraintList => "Parentheses in ':' type constraints must contain something"
  | .classComma => "Leading or double commas are not allowed in classes"
  | .invalidAssignmentTarget =>
    "Left expression of an assignment must be either an identifier, a property access or an " ++
      "indexing expression"
  | .unclosedTemplateExpression => "Expected '\x7d' after expression in template string"
  | .unlabelableExpression =>
    "Cannot label anything that is not a for loop, a 'loop' loop, or a block"
  | .listComma => "Leading / double commas are not allowed within list literals"
  | .listSeparator => "A list literal's elements should be separated by commas"
  | .mapComma => "Leading / double commas are not allowed within map literals"
  | .mapSeparator => "A map literal's key/value pairs should be separated by commas"
  | .expectedPattern => "Could not parse (expected a pattern)"
  | .importComma => "No leading / double commas are allowed within imports"
  | .importSeparator => "Expected either '\x7d' or an import section"
  | .emptyImport => "Cannot import nothing from a module"
  | .listPatternComma => "Leading / double commas are not allowed within list patterns"
  | .listPatternSeparator => "A list pattern's elements should be separated by commas"
  | .objectPatternComma => "Leading / double commas are not allowed within object patterns"
  | .objectPatternSeparator => "An object pattern's property patterns should be separated by commas"
  | .classNameNotIdentifier => "Class names must be identifiers"
  | .traitNameNotIdentifier => "Trait names must be identifiers"
  | .traitComma => "Leading or double commas are not allowed in traits"
  | .unexpectedTraitMember => "Unexpected token in a trait body"
  | .untypedTraitProperty => "Trait properties must be explicitly typed"
  | .missingInitializer => "A const or type-inferred declaration must have a value"
  | .invalidModifierBlock =>
    "Privacy / staticness blocks cannot be nested more than two levels deep and there may not " ++
      "be two of the same type"
  | .nestedModifier => "Modifiers are not allowed within blocks of the same kind"
  | .duplicateProperty => "A property with the same name has already been defined"
  | .expectedOperator => "An operator was expected"
  | .tooManyOverloadArguments =>
    "Operator overloading functions can only have no arguments or one argument"
  | .binaryOverloadArity => "Non-unary operator overloads must have exactly one argument"
  | .unaryOverloadArity => "Unary only operator overloads must have no arguments"
  | .enumComma => "Double / leading commas are not allowed in enums"
  | .unexpectedClassMember => "Unexpected token in a class body"
  | .expectedExpression => "Could not parse (expected an expression)"
  | .internalFailure => "Internal parser failure"
  | .leadingZero => "Leading zero in number literal"
  | .redundantPrivate =>
    "The 'private' access specifier is not required, properties and methods are private by default"
  | .unnecessaryDollarEscape =>
    "Dollar signs '$' are not required to be escaped within template strings if they aren't " ++
      "followed by a '\x7b'"
  | .privateTraitMember => "Private members in traits are never visible to implementors"

/-- What the catalog says about a code. -/
def explanation : Code → String
  | .unterminatedComment =>
    "This error happens when there are more block comment starts (/*) than there are block " ++
      "comment ends (*/) in a source file. Block comments nest, so /* /* */ (which would be " ++
      "valid in many programming languages) is not valid here."
  | .emptyHexLiteral =>
    "A hexadecimal number start '0x' must be followed by a dot or at least one hexadecimal " ++
      "digit (0-9, A / a to F / f)."
  | .emptyOctalLiteral =>
    "An octal number start '0o' must be followed by a dot or at least one octal digit (0, 1, 2, " ++
      "3, 4, 5, 6, 7)."
  | .unterminatedString =>
    "A string has no terminating quote and thus runs to the end of the file. The diagnostic " ++
      "points at the quote that opened it."
  | .unexpectedEof =>
    "The tokenizer tried to read a character past the end of the file. This usually happens " ++
      "when a backslash is the last character of a file, or when a number prefix such as 0x " ++
      "ends the file."
  | .invalidEscape =>
    "A backslash in a string or character literal is not followed by a character that can be " ++
      "escaped. Valid escapes are: newline (strings only), 'n', '\\', ''', '\"' and '`'. " ++
      "Template strings additionally accept '$'."
  | .emptyBinaryLiteral =>
    "A binary number start '0b' must be followed by a dot or at least one binary digit (0, 1)."
  | .invalidCharacter => "An unrecognized character was read in the source code."
  | .escapedNewlineInChar =>
    "A newline is escaped within a character literal. Character literals hold exactly one " ++
      "character, so eliding a newline makes no sense there."
  | .unterminatedChar =>
    "A character literal holds exactly one (possibly escaped) character and must be closed by a " ++
      "single quote, e.g. 'a' or '\\n'."
  | .invalidLabel =>
    "A label started by '#' is required to contain at least one character except the '#', and " ++
      "the first of these characters is required to be an ASCII letter or underscore (/[A-Za-z_]/)."
  | .unexpectedToken =>
    "The compiler expected a particular token (e.g. a closing parenthesis) but another token " ++
      "was found instead."
  | .leadingOrDoubleComma =>
    "A token was found where an expression or a list element had to start. Lists of function " ++
      "arguments, parameters, indices or type parameters accept commas between elements and an " ++
      "optional trailing comma, but no leading comma (e.g. Map[,string, int]) and no double " ++
      "comma (e.g. f(1,, 8)). Apart from those lists, the token simply cannot start an " ++
      "expression; only the 'map!' macro is currently recognized as one."
  | .missingComma =>
    "A function is called, declared or indexed with several arguments / indices that aren't " ++
      "separated with commas (e.g. func(1 2)). Arguments and indices must always be " ++
      "comma-separated."
  | .emptyTypeParameters =>
    "A type has empty type parameters (e.g. Map[]). Add the missing type parameters or remove " ++
      "the [] if the type takes none."
  | .missingArgumentList =>
    "Function expressions (fn funcName(arg1: int, arg2: int) int \x7b\x7d) are required to have " ++
      "an argument list enclosed in parentheses, even when it is empty."
  | .untypedArgument =>
    "Function arguments always need to be typed (e.g. fn funcName(argName: Type) \x7b\x7d). " ++
      "Only lambda arguments may leave their types out."
  | .emptyConstraintList =>
    "In type constraints that require several traits (e.g. class Cls[T: (A, B)] \x7b...\x7d), " ++
      "the parentheses must contain something. Remove them if no trait is required."
  | .classComma =>
    "In classes (class Class \x7b ... \x7d), commas separate methods and properties and an " ++
      "optional trailing comma is allowed, but nothing else."
  | .invalidAssignmentTarget =>
    "Only identifiers (variable / constant names), property access expressions (e.g. obj.field) " ++
      "and indexing expressions (e.g. x[0]) can be assigned to. '1 + 1 = 2' is therefore invalid."
  | .unclosedTemplateExpression =>
    "In template strings (delimited by '`' characters), expressions inserted via $\x7bexpr\x7d " ++
      "must be closed by a closing curly bracket '\x7d' right after the expression."
  | .unlabelableExpression =>
    "Labels (#name: ...) can only be attached to 'for' loops, 'loop' loops and blocks, since " ++
      "those are the only constructs 'break' and 'continue' can target."
  | .listComma =>
    "List literals accept commas between elements and an optional trailing comma, but no " ++
      "leading or double comma (e.g. [1,, 2])."
  | .listSeparator =>
    "Elements of a list literal must be separated by commas (e.g. [1, 2] instead of [1 2])."
  | .mapComma =>
    "Map literals (map!\x7bkey: value, ...\x7d) accept commas between pairs and an optional " ++
      "trailing comma, but no leading or double comma."
  | .mapSeparator => "Key / value pairs of a map literal must be separated by commas."
  | .expectedPattern =>
    "A pattern (a name, @name pattern, [list pattern] or \x7bobject pattern\x7d) was expected, " ++
      "but the token found cannot start one."
  | .importComma =>
    "Brace lists in imports (import a.\x7bb, c\x7d) accept commas between sections and an " ++
      "optional trailing comma, but no leading or double comma."
  | .importSeparator =>
    "Inside an import brace list, each import section must be followed by either a comma or the " ++
      "closing '\x7d'."
  | .emptyImport =>
    "An import brace list must name at least one item: 'import a.\x7b\x7d' imports nothing."
  | .listPatternComma =>
    "List patterns accept commas between sub-patterns and an optional trailing comma, but no " ++
      "leading or double comma."
  | .listPatternSeparator => "Sub-patterns of a list pattern must be separated by commas."
  | .objectPatternComma =>
    "Object patterns accept commas between fields and an optional trailing comma, but no " ++
      "leading or double comma."
  | .objectPatternSeparator => "Fields of an object pattern must be separated by commas."
  | .classNameNotIdentifier =>
    "The name following 'class' or 'struct' must be a plain identifier; destructuring patterns " ++
      "cannot name a class."
  | .traitNameNotIdentifier =>
    "The name following 'trait' or 'structural trait' must be a plain identifier; destructuring " ++
      "patterns cannot name a trait."
  | .traitComma =>
    "In traits, commas separate methods and properties and an optional trailing comma is " ++
      "allowed, but nothing else."
  | .unexpectedTraitMember =>
    "A trait member must start with one of 'private', 'protected', 'public', 'const', 'static', " ++
      "'fn', 'operator' or an identifier."
  | .untypedTraitProperty =>
    "Trait properties describe what implementors must provide, so their type must always be " ++
      "written out (e.g. name: string)."
  | .missingInitializer =>
    "A 'const' declaration must always be given a value, and so must a 'let' declaration " ++
      "without a type annotation, since its type is inferred from that value."
  | .invalidModifierBlock =>
    "Privacy blocks (public \x7b ... \x7d, protected \x7b ... \x7d) and static blocks (static " ++
      "\x7b ... \x7d) can be nested at most two levels deep, and the same kind of block may not " ++
      "appear twice in one nesting chain."
  | .nestedModifier =>
    "Inside a privacy block, members cannot carry their own privacy specifier; inside a static " ++
      "block, members cannot be marked 'static' again."
  | .duplicateProperty => "Two properties of the same class or trait have the same name."
  | .expectedOperator =>
    "'operator' must be followed by the operator being overloaded. Valid operators are ! * ** / " ++
      "+ - | || & && ^ >> << < > >= <= == ~ ++ --."
  | .tooManyOverloadArguments =>
    "An operator overload receives its left operand as the instance itself, so it can take at " ++
      "most one argument (the right operand)."
  | .binaryOverloadArity =>
    "Binary-only operators (e.g. *, /, ==) need the right operand as their single argument."
  | .unaryOverloadArity =>
    "Unary-only operators (~ ++ -- !) operate on the instance alone and must take no arguments."
  | .enumComma =>
    "Enums accept commas between variants (and between a variant's types) and an optional " ++
      "trailing comma, but no leading or double comma."
  | .unexpectedClassMember =>
    "A class member must start with one of 'private', 'protected', 'public', 'const', 'static', " ++
      "'fn', 'operator' or an identifier."
  | .expectedExpression =>
    "The token found cannot start an expression. Only the 'map!' macro is currently recognized " ++
      "as an expression."
  | .internalFailure =>
    "An error happened inside the parser itself. Please report this to " ++
      "https://github.com/Astroide/escurieux/issues so that it can be fixed."
  | .leadingZero =>
    "A number literal starts with one or more extra zeroes, as in 0123, 0893.034 or 0023. If " ++
      "this was intended to be an octal literal, write 0o123 instead."
  | .redundantPrivate =>
    "Properties and methods of classes are private unless specified otherwise, so writing " ++
      "'private' is redundant."
  | .unnecessaryDollarEscape =>
    "In template strings, escaping a dollar sign is only useful when it is followed by an " ++
      "opening curly bracket, so that '$\x7b' is not read as the start of an embedded expression."
  | .privateTraitMember =>
    "Trait members are public by default and exist to be seen by implementors; nothing forbids " ++
      "a private member, but it is almost certainly a mistake."

/-- Every code: those of the catalog, and the one that shares its text with another. -/
def all : List Code :=
  catalog ++ [.expectedExpression]

/-- The code with a given name. -/
def ofName? (name : String) : Option Code :=
  all.find? (·.name == name)

/-- A code as the catalog is searched for it: without blanks and brackets around it, in capitals,
and without the letters that a tag puts before it. -/
def normalize (query : String) : List Char :=
  let unbracketed := ((Text.trimBlanks query.toList).dropWhile (· == '[')).reverse.dropWhile
    (· == ']') |>.reverse
  match unbracketed.map Char.toUpper with
  | 'E' :: 'S' :: 'C' :: code => code
  | code => code

/-- The catalog's entry for a code as a user writes it, such as `e00004` or `[ESCE00004]`. -/
def find? (query : String) : Option Code :=
  catalog.find? fun code => code.text.toList == normalize query

/-- What is said of a code that the catalog does not list. -/
def unknownMessage (query : String) : String :=
  "no error or warning has the code '" ++ query ++ "'"

end Code

end FrontEnd
