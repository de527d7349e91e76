import FrontEnd.Regex.Expression
import FrontEnd.Text.Bytes

/-!
# The filter of the log

An entry of the log has a level, the part of the program it comes from, and named fields. Which
entries are written is decided by rules, separated by commas: `debug` for every entry,
`part=debug` for the entries of one part, `part[{field}]=debug` for those that also have a field.
Of the rules that concern an entry the most specific one decides, and of equal ones the last.

A rule may also name a span of the program (`part[span]=debug`) or a value of a field
(`[{field=value}]=debug`), which is a number or a regular expression. As the program has no spans,
such a rule never concerns an entry.
-/

namespace FrontEnd.CommandLine

/-- How much is written to the log, least first; also how much an entry matters. -/
inductive Level where
  | off
  | error
  | warn
  | info
  | debug
  | trace
  deriving DecidableEq, Repr

namespace Level

/-- The levels, each at its number. -/
def all : List Level :=
  [off, error, warn, info, debug, trace]

/-- The place of a level on the scale. -/
def number : Level → Nat
  | off => 0
  | error => 1
  | warn => 2
  | info => 3
  | debug => 4
  | trace => 5

/-- The name of a level, in capitals. -/
def name : Level → String
  | off => "OFF"
  | error => "ERROR"
  | warn => "WARN"
  | info => "INFO"
  | debug => "DEBUG"
  | trace => "TRACE"

/-- The number that a text spells in digits, which a plus sign may precede. -/
def numeral? (text : List Char) : Option Nat :=
  let digits :=
    match text with
    | '+' :: rest => rest
    | _ => text
  if digits.isEmpty then none
  else digits.foldlM (fun n c => (Text.digitValue? 10 c).map (10 * n + ·)) 0

/-- The level that a text stands for: its number, or its name in any case. -/
def ofText? (text : List Char) : Option Level :=
  match numeral? text >>= fun n => all[n]? with
  | some level => some level
  | none => all.find? fun level => level.name.toList == text.map Char.toUpper

end Level

/-- A rule: what may be written at most of the entries that come from a part of the program, or
from one whose name starts with it, and that have the given field. -/
structure Rule where
  origin : String
  field : Option String
  level : Level
  deriving DecidableEq, Repr

namespace Rule

/-- Where the reader of a rule stands, with the offset at which the piece it reads starts. -/
inductive Reading where
  | start
  /-- In a part of the program or a level. -/
  | name (start : Nat)
  /-- In the name of a span, after the opening bracket. -/
  | span (start : Nat)
  /-- In a field, after the opening brace. -/
  | field (start : Nat)
  /-- After the closing brace. -/
  | fieldEnd
  /-- After the closing bracket. -/
  | spanEnd
  /-- In a level, after the equals sign. -/
  | level (start : Nat)

/-- What a rule says apart from its level. -/
structure Draft where
  origin : String := ""
  /-- A span is named. -/
  hasSpan : Bool := false
  field : Option String := none
  /-- A value of the field is given. -/
  hasValue : Bool := false

/-- Whether a character can start a part of the program or a level. -/
def startsName (c : Char) : Bool :=
  c == '-' || c == ':' || c == '_' || Text.isAlphanumeric c

/-- Whether a text is an exponent of a number, or empty. -/
def isExponent : List Char → Bool
  | [] => true
  | c :: text =>
    let digits := if text.head? == some '+' || text.head? == some '-' then text.tail else text
    (c == 'e' || c == 'E') && !digits.isEmpty && digits.all Char.isDigit

/-- Whether a text is a decimal number without a sign. -/
def isDecimal (text : List Char) : Bool :=
  let whole := text.takeWhile Char.isDigit
  let rest := text.dropWhile Char.isDigit
  if rest.head? == some '.' then
    let fraction := rest.tail.takeWhile Char.isDigit
    !(whole ++ fraction).isEmpty && isExponent (rest.tail.dropWhile Char.isDigit)
  else !whole.isEmpty && isExponent rest

/-- The numbers that have names, in any case. -/
def numberNames : List String :=
  ["INF", "INFINITY", "NAN"]

/-- Whether a text can be the value of a field: a regular expression or a number. Only a number with
a plus sign is not an expression as well. -/
def isValue (text : List Char) : Bool :=
  Regex.isUsable text || (text.head? == some '+' &&
    (isDecimal text.tail || numberNames.contains (String.ofList (text.tail.map Char.toUpper))))

/-- Reads the field between braces, a name that a value may follow. What follows a second equals
sign is of no matter. -/
def readField? (draft : Draft) (text : List Char) : Option Draft :=
  let field := some (String.ofList (text.takeWhile (· != '=')))
  if text.isEmpty then none
  else
    match text.dropWhile (· != '=') with
    | [] => some { draft with field }
    | _ :: value =>
      if isValue (value.takeWhile (· != '=')) then some { draft with field, hasValue := true }
      else none

/-- Takes the character at an offset. Pieces are cut out of the whole text by their offsets. -/
def step (text : List Char) (reading : Reading) (draft : Draft) (offset : Nat) (c : Char) :
    Option (Reading × Draft) :=
  let piece (start : Nat) : List Char := Text.slice text start offset
  match reading, c with
  | .start, '[' => some (.span (offset + 1), draft)
  | .start, c => if startsName c then some (.name offset, draft) else none
  | .name start, '=' =>
    some (.level (offset + 1), { draft with origin := String.ofList (piece start) })
  | .name start, '[' =>
    some (.span (offset + 1), { draft with origin := String.ofList (piece start) })
  | .name start, _ => some (.name start, draft)
  | .span _, ']' => some (.spanEnd, { draft with hasSpan := true })
  | .span start, '{' =>
    some (.field (offset + 1), { draft with hasSpan := !(piece start).isEmpty })
  | .span start, _ => some (.span start, draft)
  | .field start, '}' => (readField? draft (piece start)).map fun draft => (.fieldEnd, draft)
  | .field start, _ => some (.field start, draft)
  | .fieldEnd, ']' => some (.spanEnd, draft)
  | .spanEnd, '=' => some (.level (offset + 1), draft)
  | .level start, _ => some (.level start, draft)
  | _, _ => none

/-- Takes the characters from an offset on. -/
def steps (text : List Char) (reading : Reading) (draft : Draft) (offset : Nat) :
    List Char → Option (Reading × Draft)
  | [] => some (reading, draft)
  | c :: rest => do
    let (reading, draft) ← step text reading draft offset c
    steps text reading draft (offset + c.utf8Size) rest

/-- The rule of a draft, or none if it never concerns an entry. -/
def ofDraft (draft : Draft) (level : Level) : List Rule :=
  if draft.hasSpan || draft.hasValue then [] else [⟨draft.origin, draft.field, level⟩]

/-- Reads a rule that is not empty. A name alone is a level, or else a part of the program with
everything it writes. The outer result is none for a text that is no rule. Blanks around a rule are
skipped, but still count in the offsets of its pieces. -/
def read? (text : List Char) : Option (List Rule) := do
  let (reading, draft) ← steps text .start {} 0 (Text.trimBlanks text)
  let rest (start : Nat) : List Char := Text.slice text start (Text.byteSize text)
  match reading with
  | .name start =>
    match Level.ofText? (rest start) with
    | some level => return ofDraft {} level
    | none => return ofDraft { origin := String.ofList (rest start) } .trace
  | .level start =>
    if (rest start).isEmpty then return ofDraft draft .trace
    else return ofDraft draft (← Level.ofText? (rest start))
  | .spanEnd => return ofDraft draft .trace
  | _ => none

end Rule

/-- An entry of the log. -/
structure Entry where
  level : Level
  /-- The part of the program it comes from. -/
  origin : String
  message : String
  fields : List (String × String)

namespace Entry

/-- Whether an entry has a field. The message is one, too. -/
def hasField (e : Entry) (name : String) : Bool :=
  name == "message" || (e.fields.lookup name).isSome

/-- An entry as a line: its level in five columns, its message and its fields. -/
def text (e : Entry) : String :=
  let indent := String.ofList (List.replicate (5 - e.level.name.length) ' ')
  let fields := e.fields.map fun (name, value) => " " ++ name ++ "=" ++ value
  indent ++ e.level.name ++ " " ++ e.message ++ String.join fields

end Entry

/-- The rules of a log, in the order in which they are given. -/
structure Filter where
  rules : List Rule

namespace Filter

/-- The filter that lets everything up to a level through. -/
def upTo (level : Level) : Filter :=
  ⟨[⟨"", none, level⟩]⟩

/-- Reads rules with commas between them, all of which have to be rules. -/
def read? (text : String) : Option Filter := do
  let pieces := (text.splitOn ",").filter (· != "")
  let rules ← pieces.mapM fun piece => Rule.read? piece.toList
  return ⟨rules.flatten⟩

/-- Whether a rule concerns an entry. -/
def concerns (r : Rule) (e : Entry) : Bool :=
  e.origin.startsWith r.origin && r.field.all e.hasField

/-- Whether a rule is more specific than another that concerns the same entry: its part of the
program has the longer name, or else it alone names a field or names one that is later in the
alphabet. -/
def isMoreSpecific (r s : Rule) : Bool :=
  if r.origin.utf8ByteSize = s.origin.utf8ByteSize then
    match r.field, s.field with
    | some a, some b => b < a
    | some _, none => true
    | none, _ => false
  else s.origin.utf8ByteSize < r.origin.utf8ByteSize

/-- The rule that decides about an entry. -/
def rule? (f : Filter) (e : Entry) : Option Rule :=
  (f.rules.filter (concerns · e)).foldl
    (fun best r => if best.any (isMoreSpecific · r) then best else some r) none

/-- Whether an entry is written. -/
def allows (f : Filter) (e : Entry) : Bool :=
  (f.rule? e).any fun r => e.level.number ≤ r.level.number

end Filter

end FrontEnd.CommandLine
