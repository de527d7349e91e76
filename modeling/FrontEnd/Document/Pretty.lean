import FrontEnd.Document.Basic

/-!
# Writing documents

Every item of a list and every field of a record stands on a line of its own, two blanks further in
than what it belongs to. Empty lists and records stay on their line. Only quotes, backslashes and
control characters are escaped in texts.
-/

namespace FrontEnd.Document

/-- A digit of base sixteen. -/
def hexDigit (n : Nat) : Char :=
  ("0123456789abcdef".toList[n]?).getD '0'

/-- A character as it stands in a quoted text. -/
def escape (c : Char) : List Char :=
  match c with
  | '"' => ['\\', '"']
  | '\\' => ['\\', '\\']
  | '\n' => ['\\', 'n']
  | '\r' => ['\\', 'r']
  | '\t' => ['\\', 't']
  | '\x08' => ['\\', 'b']
  | '\x0c' => ['\\', 'f']
  | c =>
    if c.toNat < 0x20 then
      ['\\', 'u', '0', '0', hexDigit (c.toNat / 16), hexDigit (c.toNat % 16)]
    else [c]

/-- A text in quotes. -/
def quote (text : String) : String :=
  String.ofList ('"' :: text.toList.flatMap escape ++ ['"'])

/-- The start of a line that is `depth` levels in. -/
def newline (depth : Nat) : String :=
  String.ofList ('\n' :: List.replicate (2 * depth) ' ')

mutual

/-- A document, `depth` levels in. -/
def write (depth : Nat) : Document → String
  | .null => "null"
  | .bool value => if value then "true" else "false"
  | .natural value => toString value
  | .number value => (Decimal.text? value).getD "null"
  | .text value => quote value
  | .list [] => "[]"
  | .list (item :: items) =>
    "[" ++ newline (depth + 1) ++ write (depth + 1) item ++ writeItems (depth + 1) items ++
      newline depth ++ "]"
  | .record [] => "\x7b\x7d"
  | .record ((name, value) :: fields) =>
    "\x7b" ++ newline (depth + 1) ++ quote name ++ ": " ++ write (depth + 1) value ++
      writeFields (depth + 1) fields ++ newline depth ++ "\x7d"

/-- The items of a list after the first. -/
def writeItems (depth : Nat) : List Document → String
  | [] => ""
  | item :: items => "," ++ newline depth ++ write depth item ++ writeItems depth items

/-- The fields of a record after the first. -/
def writeFields (depth : Nat) : List (String × Document) → String
  | [] => ""
  | (name, value) :: fields =>
    "," ++ newline depth ++ quote name ++ ": " ++ write depth value ++ writeFields depth fields

end

/-- A document as a text. -/
def pretty (d : Document) : String :=
  write 0 d

end FrontEnd.Document
