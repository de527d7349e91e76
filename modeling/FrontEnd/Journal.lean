import FrontEnd.Diagnostic.Basic

/-!
# The journal of a run

While a source is read, things happen that are no part of the result: productions are entered and
left, warnings are raised, and the scanner hands template expressions to the parser and takes over
again. They are kept in one list in the order in which they happen, from which each of the views
below takes its part.
-/

namespace FrontEnd

/-- Something that happens while a source is read. -/
inductive Event where
  /-- A production starts at a token with the given text and place. -/
  | enter (production : String) (lexeme : String) (span : Span)
  /-- A production ends, successfully or not. -/
  | leave (production : String) (success : Bool)
  /-- A warning is raised. -/
  | warning (diagnostic : Diagnostic)
  /-- The expression of a template string starts. -/
  | templateOpened (place : Position)
  /-- The text of a template string goes on. -/
  | templateResumed (place : Position)

/-- What has happened in a run, in order. -/
abbrev Journal := Array Event

namespace Journal

/-- The warning of an event, if it is one. -/
def warning? : Event → Option Diagnostic
  | .warning d => some d
  | _ => none

/-- The warnings raised, in order. -/
def warnings (j : Journal) : List Diagnostic :=
  j.toList.filterMap warning?

end Journal

end FrontEnd
