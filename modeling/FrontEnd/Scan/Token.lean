import FrontEnd.Scan.Gap
import FrontEnd.Scan.Number
import FrontEnd.Scan.Template
import FrontEnd.Scan.Word

/-!
# Reading tokens

The first character of a token tells which kind of token it is. At the end of the source there is
a token for the end, as often as it is asked for.
-/

namespace FrontEnd.Scan

/-- Reads the token that starts at the reading place. -/
def tokenHere (embedded : Option (Scan Expr)) : Scan Token := do
  let here ← cursor
  match here.rest with
  | [] => tokenFrom here .endOfInput .none
  | '"' :: _ => stringLiteral
  | '\x60' :: _ => templateLiteral embedded
  | '\'' :: _ => charLiteral
  | '#' :: _ => label
  | '.' :: c :: _ => if c.isDigit then number else symbol '.'
  | c :: _ =>
    if c.isDigit then number
    else if Text.isNameStart c then word
    else symbol c

/-- Reads the next token. Expressions in template strings are read by the given action. -/
def token (embedded : Option (Scan Expr)) : Scan Token := do
  skipGap
  tokenHere embedded

/-- Reads one character as a token of its own. -/
def rawToken : Scan Token := do
  let start ← cursor
  match start.rest with
  | [] => tokenFrom start .endOfInput .none
  | c :: _ =>
    skip 1
    tokenFrom start .raw (.char c)

/-- Reads all tokens up to the end of the source, which is not one of them. Every token takes at
least one character, so `fuel` may be any number above that of the characters left. -/
def tokens (embedded : Option (Scan Expr)) : Nat → Scan (List Token)
  | 0 => do throw (Diagnostic.internal (Span.emptyAt (← cursor).pos) "the input does not end")
  | fuel + 1 => do
    let t ← token embedded
    if t.isEnd then return []
    else return t :: (← tokens embedded fuel)

end FrontEnd.Scan
