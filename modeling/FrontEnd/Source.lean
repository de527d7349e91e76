import FrontEnd.Span

/-!
# Lines of a source

Lines are numbered from one and end at newlines; carriage returns before the newline do not belong
to a line. An empty source has one line.
-/

namespace FrontEnd.Source

/-- The pieces of a source between its newlines. -/
def pieces : List Char → List (List Char)
  | [] => [[]]
  | c :: cs =>
    if c = '\n' then [] :: pieces cs
    else
      match pieces cs with
      | [] => [[c]]
      | piece :: more => (c :: piece) :: more

/-- The number of lines of a source, as a word. -/
def totalLines (source : List Char) : UInt32 :=
  UInt32.ofNat (source.count '\n') + 1

/-- Removes carriage returns from the end of a line. -/
def trimReturns (line : List Char) : List Char :=
  (line.reverse.dropWhile (· == '\r')).reverse

/-- The text of a line, without its line end. -/
def lineText? (source : List Char) (line : UInt32) : Option (List Char) :=
  if line = 0 ∨ totalLines source < line then none
  else (pieces source)[line.toNat - 1]?.map trimReturns

/-- There is one piece more than newlines. -/
theorem length_pieces (source : List Char) : (pieces source).length = source.count '\n' + 1 := by
  induction source with
  | nil => rfl
  | cons c cs ih =>
    by_cases hc : c = '\n'
    · simp [pieces, hc, ih]
    · rw [List.count_cons_of_ne hc, ← ih]
      simp only [pieces, hc, if_false]
      cases h : pieces cs with
      | nil => simp [h] at ih
      | cons piece more => simp

end FrontEnd.Source
