import FrontEnd.Cursor
import FrontEnd.Journal
import FrontEnd.Token.Basic

/-!
# Scanning actions

A scanning action moves a cursor over the source and writes to the journal. When it fails, the
cursor stays where the failure was found, and what was written to the journal remains.
-/

namespace FrontEnd

/-- The state of scanning: a reading place and what has happened so far. -/
structure Reader where
  cursor : Cursor
  journal : Journal

namespace Reader

/-- The reader at the start of a source. -/
def ofText (source : List Char) : Reader :=
  ⟨Cursor.ofText source, #[]⟩

/-- Adds an event to the journal. -/
def record (r : Reader) (event : Event) : Reader :=
  { r with journal := r.journal.push event }

/-- The warnings raised so far, and the reader with an empty journal. -/
def takeWarnings (r : Reader) : List Diagnostic × Reader :=
  (r.journal.warnings, { r with journal := #[] })

end Reader

/-- An action that reads from the source and may fail with a diagnostic. -/
abbrev Scan := EStateM Diagnostic Reader

namespace Scan

/-- The reading place. -/
def cursor : Scan Cursor :=
  return (← get).cursor

/-- Moves to another reading place of the same source. -/
def moveTo (c : Cursor) : Scan Unit :=
  modify fun r => { r with cursor := c }

/-- Moves behind the next `n` characters. -/
def skip (n : Nat) : Scan Unit :=
  modify fun r => { r with cursor := r.cursor.drop n }

/-- Writes an event to the journal. -/
def record (event : Event) : Scan Unit :=
  modify (·.record event)

/-- Raises a warning of the scanner. -/
def warn (code : Code) (span : Span) (message : String) : Scan Unit :=
  record (.warning (Diagnostic.warning .lexer code span message))

/-- The failure to read a character past the end of the source. -/
def pastEnd (place : Position) : Diagnostic :=
  Diagnostic.lexical .unexpectedEof (Span.emptyAt place) "Trying to access a character past EOF"

/-- Reads one character. -/
def advance : Scan Char := do
  let here ← cursor
  match here.rest with
  | ch :: _ =>
    skip 1
    return ch
  | [] => throw (pastEnd here.pos)

/-- Reads the longest run of characters that satisfy `p`. -/
def takeWhile (p : Char → Bool) : Scan (List Char) := do
  let (taken, behind) := (← cursor).takeWhile p
  moveTo behind
  return taken

/-- Runs a step that only moves the cursor. -/
def walk {α : Type} (step : Cursor → EStateM.Result Diagnostic Cursor α) : Scan α := fun r =>
  match step r.cursor with
  | .ok a c => .ok a { r with cursor := c }
  | .error d c => .error d { r with cursor := c }

/-- The token of the text from an earlier reading place up to the current one. -/
def tokenFrom (start : Cursor) (kind : TokenKind) (value : TokenValue) : Scan Token := do
  let here ← cursor
  return ⟨kind, value, here.spanFrom start.pos, String.ofList (start.textTo here)⟩

end Scan

end FrontEnd
