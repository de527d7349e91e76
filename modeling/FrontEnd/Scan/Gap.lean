import FrontEnd.Scan.Basic

/-!
# Gaps between tokens

Blanks and comments may stand between tokens. A line comment runs from `//` through the end of its
line; block comments are enclosed in `/*` and `*/` and nest, so each `/*` needs its own `*/`.
-/

namespace FrontEnd.Scan

/-- What a gap is being read as: blanks, a line comment, or a number of open block comments, of
which the outermost was opened at the given position. -/
inductive GapMode where
  | blank
  | lineComment
  | blockComment (opened : Position) (depth : Nat)

/-- The failure to close `depth` block comments. -/
def unterminatedComment (opened : Position) (depth : Nat) : Diagnostic :=
  let (verb, plural) := if depth = 1 then ("was", "") else ("were", "s")
  (Diagnostic.lexical .unterminatedComment (Span.new opened (opened.offset + 2))
    "Comments opened with /* must be closed before EOF.").withNote
    s!"there {verb} {depth} level{plural} of comment nesting when EOF was reached"

/-- Reads a gap up to the next token or the end of the source. -/
def gap : GapMode → List Char → Position → EStateM.Result Diagnostic Cursor Unit
  | .blank, [], pos => .ok () ⟨[], pos⟩
  | .blank, '/' :: '/' :: rest, pos => gap .lineComment rest (pos.after ['/', '/'])
  | .blank, '/' :: '*' :: rest, pos => gap (.blockComment pos 1) rest (pos.after ['/', '*'])
  | .blank, c :: rest, pos =>
    if Text.isBlank c then gap .blank rest (pos.advance c) else .ok () ⟨c :: rest, pos⟩
  | .lineComment, [], pos => .ok () ⟨[], pos⟩
  | .lineComment, c :: rest, pos =>
    gap (if c = '\n' then .blank else .lineComment) rest (pos.advance c)
  | .blockComment opened depth, [], pos => .error (unterminatedComment opened depth) ⟨[], pos⟩
  | .blockComment opened depth, '/' :: '*' :: rest, pos =>
    gap (.blockComment opened (depth + 1)) rest (pos.after ['/', '*'])
  | .blockComment opened depth, '*' :: '/' :: rest, pos =>
    gap (if depth ≤ 1 then .blank else .blockComment opened (depth - 1)) rest
      (pos.after ['*', '/'])
  | .blockComment opened depth, c :: rest, pos =>
    gap (.blockComment opened depth) rest (pos.advance c)

/-- Skips the blanks and comments before the next token. -/
def skipGap : Scan Unit :=
  walk fun c => gap .blank c.rest c.pos

end FrontEnd.Scan
