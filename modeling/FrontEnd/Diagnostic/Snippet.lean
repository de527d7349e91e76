import FrontEnd.Diagnostic.Basic
import FrontEnd.Source

/-!
# Snippets

A diagnostic is shown with the lines of the source around it. The line it is about has the
offending piece marked, in inverse video or by a line of carets below it.

The marked piece is computed once, as a division of the line into what stands before it, the piece
itself and what stands after it (`Snippet.mark`), and the two renderings draw that division.
-/

namespace FrontEnd.Snippet

/-- How a diagnostic is rendered. -/
structure Style where
  /-- Print the catalog's explanation in place of the hint. -/
  verbose : Bool := false
  /-- Mark the offending piece in inverse video instead of by carets. -/
  color : Bool := true
  /-- The command that the hint names. -/
  command : String := "escurieux"

/-- The style without colour. -/
def Style.plain : Style :=
  ⟨false, false, "escurieux"⟩

/-- The number of lines shown on each side of the offending one. -/
def contextLines : UInt32 := 2

/-- The number of the first line shown. Taking away stops at zero. -/
def firstLine (span : Span) : UInt32 :=
  max (if contextLines ≤ span.line then span.line - contextLines else 0) 1

/-- The number of the last line shown. Adding wraps around. -/
def lastLine (source : List Char) (span : Span) : UInt32 :=
  min (span.line + contextLines) (Source.totalLines source)

/-- The numbers of the lines shown, in order. -/
def lineNumbers (source : List Char) (span : Span) : List UInt32 :=
  let first := (firstLine span).toNat
  (List.range' first ((lastLine source span).toNat + 1 - first)).map UInt32.ofNat

/-- The number of characters to mark: those of the span on its own line, and at least one. -/
def markWidth (source : List Char) (span : Span) : Nat :=
  max ((span.slice source).takeWhile (· != '\n')).length 1

/-- A line divided at the piece to mark. -/
structure Marked where
  before : List Char
  piece : List Char
  after : List Char

/-- Divides a line at the piece that starts in column `column` and has at most `width`
characters. -/
def mark (line : List Char) (column width : Nat) : Marked :=
  let start := min (column - 1) line.length
  let tail := line.drop start
  ⟨line.take start, tail.take width, tail.drop width⟩

/-- A number or a blank, right aligned in the margin. -/
def margin (width : Nat) (label : String) : String :=
  String.ofList (List.replicate (width - label.length) ' ') ++ label ++ " | "

/-- The offending line with its piece in inverse video; where there is none, a blank is shown. -/
def inverse (m : Marked) : String :=
  let piece := if m.piece.isEmpty then [' '] else m.piece
  String.ofList m.before ++ "\x1b[7m" ++ String.ofList piece ++ "\x1b[0m" ++ String.ofList m.after

/-- The line of carets below the offending line. -/
def carets (m : Marked) (width : Nat) : String :=
  String.ofList (List.replicate m.before.length ' ' ++ List.replicate width '^')

/-- The rows drawn for the line numbered `number`. -/
def rows (source : List Char) (span : Span) (color : Bool) (gutter : Nat) (number : UInt32) :
    List String :=
  match Source.lineText? source number with
  | none => []
  | some line =>
    if number ≠ span.line then [margin gutter (toString number) ++ String.ofList line]
    else
      let width := markWidth source span
      let marked := mark line span.column.toNat width
      if color then [margin gutter (toString number) ++ inverse marked]
      else
        [margin gutter (toString number) ++ String.ofList line,
          margin gutter "" ++ carets marked width]

/-- The last row: the explanation of the code, or how to ask for it. -/
def footer (style : Style) (code : Code) : String :=
  if style.verbose then code.explanation
  else "Run \x60" ++ style.command ++ " -e " ++ code.text ++ "\x60 for more information."

/-- All rows of a rendered diagnostic. -/
def lines (d : Diagnostic) (source : List Char) (style : Style) : List String :=
  let gutter := (toString (lastLine source d.span)).length
  [d.headline] ++ d.notes.map ("Note: " ++ ·) ++
    [s!"On line {d.span.line} at character {d.span.column}:"] ++
    (lineNumbers source d.span).flatMap (rows source d.span style.color gutter) ++
    [footer style d.code, "----------"]

/-- A diagnostic rendered over its source. -/
def render (d : Diagnostic) (source : List Char) (style : Style) : String :=
  String.intercalate "\n" (lines d source style)

end FrontEnd.Snippet
