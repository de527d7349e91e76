import FrontEnd.Span

/-!
# Cursors

A cursor is a reading place in a source: the characters still to be read and the position of the
first of them. Moving back is a matter of keeping an earlier cursor, so nothing is ever searched
for again. `Cursor.Reads` ties a cursor to the source it reads.
-/

namespace FrontEnd

/-- A reading place: what is still to be read, and where that starts. -/
structure Cursor where
  rest : List Char
  pos : Position
  deriving DecidableEq, Repr

namespace Cursor

/-- The cursor at the start of a source. -/
def ofText (source : List Char) : Cursor :=
  ⟨source, Position.start⟩

instance : Inhabited Cursor := ⟨ofText []⟩

/-- The next character, if there is one. -/
def peek? (c : Cursor) : Option Char :=
  c.rest.head?

/-- The character `n` places after the next one. -/
def peekAhead? (c : Cursor) (n : Nat) : Option Char :=
  c.rest[n]?

/-- Whether nothing is left to read. -/
def isAtEnd (c : Cursor) : Bool :=
  c.rest.isEmpty

/-- The next character and the cursor behind it. -/
def next? (c : Cursor) : Option (Char × Cursor) :=
  match c.rest with
  | [] => none
  | ch :: rest => some (ch, ⟨rest, c.pos.advance ch⟩)

/-- The cursor behind the first `n` characters. -/
def drop (c : Cursor) (n : Nat) : Cursor :=
  ⟨c.rest.drop n, c.pos.after (c.rest.take n)⟩

/-- The longest run of characters that satisfy `p`, and the cursor behind it. -/
def takeWhile (c : Cursor) (p : Char → Bool) : List Char × Cursor :=
  let taken := c.rest.takeWhile p
  (taken, ⟨c.rest.dropWhile p, c.pos.after taken⟩)

/-- The range from a position up to the cursor. -/
def spanFrom (c : Cursor) (start : Position) : Span :=
  Span.new start c.pos.offset

/-- The range of the next character, which is empty at the end of the source. -/
def spanOfNext (c : Cursor) : Span :=
  Span.new c.pos (c.pos.offset + (c.peek?.map Char.utf8Size).getD 0)

/-- The text between an earlier cursor and a later one on the same source. -/
def textTo (earlier later : Cursor) : List Char :=
  match Text.splitBytes? (later.pos.offset - earlier.pos.offset) earlier.rest with
  | some (text, _) => text
  | none => []

/-- A cursor reads `source` when what it has left, together with what lies before its position,
is that source. -/
def Reads (source : List Char) (c : Cursor) : Prop :=
  ∃ before, source = before ++ c.rest ∧ c.pos = Position.start.after before

theorem reads_ofText (source : List Char) : Reads source (ofText source) :=
  ⟨[], rfl, rfl⟩

end Cursor

/-- The ways a cursor can fail. -/
inductive CursorError where
  /-- A character was asked for where none is left. -/
  | unexpectedEnd (place : Position)

/-- The wording of a cursor's failure. -/
def CursorError.message : CursorError → String
  | .unexpectedEnd place =>
    "tried to read a character past the end of the input at " ++ place.text

/-- Reads the next character. -/
def Cursor.read (c : Cursor) : Except CursorError (Char × Cursor) :=
  match c.next? with
  | some step => .ok step
  | none => .error (.unexpectedEnd c.pos)

end FrontEnd
