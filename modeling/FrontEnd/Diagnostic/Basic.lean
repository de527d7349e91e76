import FrontEnd.Span
import FrontEnd.Diagnostic.Code

/-!
# Diagnostics

A diagnostic is a coded message about a range of the source. An error ends the run that finds it;
a warning does not.
-/

namespace FrontEnd

/-- How grave a diagnostic is. -/
inductive Severity where
  | error
  | warning
  deriving DecidableEq, Repr

/-- Which part of the front end a diagnostic comes from. -/
inductive Stage where
  | lexer
  | parser
  | internal
  deriving DecidableEq, Repr

/-- A coded message about a range of the source, with notes printed after it. -/
structure Diagnostic where
  severity : Severity
  stage : Stage
  code : Code
  message : String
  span : Span
  notes : List String
  deriving DecidableEq, Repr

namespace Diagnostic

/-- An error of the scanner. -/
def lexical (code : Code) (span : Span) (message : String) : Diagnostic :=
  ⟨.error, .lexer, code, message, span, []⟩

/-- An error of the parser. -/
def grammatical (code : Code) (span : Span) (message : String) : Diagnostic :=
  ⟨.error, .parser, code, message, span, []⟩

/-- A failure of the front end itself. -/
def internal (span : Span) (problem : String) : Diagnostic :=
  ⟨.error, .internal, .internalFailure,
    "[[Failure]] " ++ problem ++
      " - please report this error to https://github.com/Astroide/escurieux/issues",
    span, []⟩

/-- A warning. -/
def warning (stage : Stage) (code : Code) (span : Span) (message : String) : Diagnostic :=
  ⟨.warning, stage, code, message, span, []⟩

/-- Adds a note. -/
def withNote (d : Diagnostic) (note : String) : Diagnostic :=
  { d with notes := d.notes ++ [note] }

/-- Whether a diagnostic is an error. -/
def isError (d : Diagnostic) : Bool :=
  d.severity == .error

/-- The first line of a diagnostic: its tag and its message. -/
def headline (d : Diagnostic) : String :=
  d.code.tag ++ " " ++ d.message

end Diagnostic

end FrontEnd
