import FrontEnd.Scan.Basic

/-!
# Number literals

A number is written in base ten, or in base 16, 8 or 2 after `0x`, `0o` or `0b`, with an optional
fraction. Its value is computed digit by digit in double precision, so long fractions are not
rounded as a whole.
-/

namespace FrontEnd.Scan

/-- A base other than ten: its size, the code for a number without digits, and its name. -/
structure Radix where
  base : Nat
  emptyCode : Code
  name : String

/-- The base that a letter after `0` selects. -/
def radix? : Char → Option Radix
  | 'x' => some ⟨16, .emptyHexLiteral, "Hexadecimal"⟩
  | 'o' => some ⟨8, .emptyOctalLiteral, "Octal"⟩
  | 'b' => some ⟨2, .emptyBinaryLiteral, "Binary"⟩
  | _ => none

/-- The product of `result` and `base` raised to `exponent`, by repeated squaring. -/
def power (result base : Float) (exponent : Nat) : Float :=
  let result := if exponent % 2 = 1 then result * base else result
  if exponent / 2 = 0 then result else power result (base * base) (exponent / 2)
termination_by exponent
decreasing_by omega

/-- The value of a number with the given digits before and after its point. -/
def digitsValue (base : Nat) (whole fraction : List Char) : Float :=
  let b := Float.ofNat base
  let wholeValue := (whole.filterMap (Text.digitValue? base)).foldl
    (fun acc d => acc * b + Float.ofNat d) 0.0
  (fraction.filterMap (Text.digitValue? base)).zipIdx.foldl
    (fun acc (d, i) => acc + Float.ofNat d / power 1.0 b (i + 1)) wholeValue

/-- Reads the digits of a fraction after their point, if there are any. -/
def decimalFraction : Scan (List Char) := do
  match (← cursor).rest with
  | '.' :: c :: _ =>
    if c.isDigit then
      skip 1
      takeWhile Char.isDigit
    else return []
  | _ => return []

/-- Reads the digits of a decimal number and, after a point that a digit follows, its fraction. -/
def decimalNumber (start : Cursor) : Scan Token := do
  let whole ← takeWhile Char.isDigit
  let fraction ← decimalFraction
  tokenFrom start .numberLiteral (.number (digitsValue 10 whole fraction))

/-- The failure to find a digit in a number. -/
def noDigits (radix : Radix) (span : Span) : Diagnostic :=
  Diagnostic.lexical radix.emptyCode span (radix.name ++ " numbers must contain at least one digit")

/-- Reads the digits after a point, if there is one. -/
def radixFraction (radix : Radix) : Scan (List Char) := do
  if (← cursor).peek? = some '.' then
    skip 1
    takeWhile (Text.isDigitOf radix.base)
  else return []

/-- Reads the digits of a number in another base, and its fraction after a point. There is at least
one digit, before or after the point. -/
def radixDigits (start : Cursor) (radix : Radix) : Scan Token := do
  let whole ← takeWhile (Text.isDigitOf radix.base)
  let fraction ← radixFraction radix
  if whole.isEmpty && fraction.isEmpty then
    throw (noDigits radix ((← cursor).spanFrom start.pos))
  else tokenFrom start .numberLiteral (.number (digitsValue radix.base whole fraction))

/-- Reads a number with its `0x`, `0o` or `0b`. A digit or a point has to follow that. -/
def radixNumber (start : Cursor) (radix : Radix) : Scan Token := do
  skip 2
  let here ← cursor
  match here.peek? with
  | none => throw (pastEnd here.pos)
  | some c =>
    if c = '.' || Text.isDigitOf radix.base c then radixDigits start radix
    else throw (noDigits radix here.spanOfNext)

/-- Reads a number literal. A zero before another digit is worth a warning. -/
def number : Scan Token := do
  let start ← cursor
  match start.rest with
  | '0' :: c :: _ =>
    match radix? c with
    | some radix => radixNumber start radix
    | none =>
      if c.isDigit then
        warn .leadingZero start.spanOfNext "Leading zero in number literal"
        decimalNumber start
      else decimalNumber start
  | _ => decimalNumber start

end FrontEnd.Scan
