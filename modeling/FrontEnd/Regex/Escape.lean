import FrontEnd.Regex.Mode

/-!
# Escapes of a regular expression

What a backslash starts. Punctuation after it stands for itself, and of the letters only those that
are listed here mean something. Back references and properties of characters are no part of the
language, and neither is anything in braces, as an expression stands between braces itself.
-/

namespace FrontEnd.Regex

/-- What an escape stands for. -/
inductive Escape where
  /-- A character, which may be given as the number of a byte. -/
  | char (c : Char) (isByte : Bool)
  /-- A shorthand for a class, such as `\d`. -/
  | shorthand (negated : Bool)
  /-- The start or the end of the text. -/
  | textEdge
  /-- The start, the end or either edge of a word, or a place that is none. -/
  | wordEdge
  deriving DecidableEq, Repr

/-- Reads hexadecimal digits, between which there may be gaps. -/
def readHex? (m : Mode) : (digits value : Nat) → List Char → Option (Nat × List Char)
  | 0, value, text => some (value, text)
  | _ + 1, _, [] => none
  | digits + 1, value, c :: rest => do
    let digit ← Text.digitValue? 16 c
    readHex? m digits (16 * value + digit) (m.skip rest)

/-- Reads a character that is given by its number. -/
def readNumbered? (m : Mode) (digits : Nat) (isByte : Bool) (text : List Char) :
    Option (Escape × List Char) := do
  let (value, rest) ← readHex? m digits 0 (m.skip text)
  if value.isValidChar then return (.char (Char.ofNat value) isByte, rest) else none

/-- Whether a character stands for itself after a backslash. -/
def isPunctuation (c : Char) : Bool :=
  c.toNat < 0x80 && !c.isAlphanum && c != '<' && c != '>'

/-- What a letter or an angle bracket stands for after a backslash, unless more has to follow. -/
def Escape.ofChar? : Char → Option Escape
  | 'a' => some (.char '\x07' false)
  | 'f' => some (.char '\x0c' false)
  | 't' => some (.char '\t' false)
  | 'n' => some (.char '\n' false)
  | 'r' => some (.char '\r' false)
  | 'v' => some (.char '\x0b' false)
  | 'd' | 's' | 'w' => some (.shorthand false)
  | 'D' | 'S' | 'W' => some (.shorthand true)
  | 'A' | 'z' => some .textEdge
  | 'b' | 'B' | '<' | '>' => some .wordEdge
  | _ => none

/-- Reads what follows a backslash. -/
def readEscape? (m : Mode) : List Char → Option (Escape × List Char)
  | [] => none
  | 'x' :: rest => readNumbered? m 2 true rest
  | 'u' :: rest => readNumbered? m 4 false rest
  | 'U' :: rest => readNumbered? m 8 false rest
  | c :: rest =>
    if isPunctuation c then some (.char c false, rest)
    else (Escape.ofChar? c).map fun escape => (escape, rest)

end FrontEnd.Regex
