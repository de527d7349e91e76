import FrontEnd.CommandLine.Filter
import FrontEnd.CommandLine.Options
import FrontEnd.Diagnostic.Snippet
import FrontEnd.Journal

/-!
# The log

The command can log what it does. What is written is decided by a filter, which the environment
sets, or else the switches.
-/

namespace FrontEnd.CommandLine

/-- The level that the switches set. -/
def Level.ofOptions (options : Options) : Level :=
  if options.has .trace then trace
  else if options.has .verbose then debug
  else warn

/-- The filter of the environment, or else, and if that cannot be read, that of the switches. -/
def Filter.ofEnvironment (environment : Option String) (options : Options) : Filter :=
  (environment.bind Filter.read?).getD (.upTo (.ofOptions options))

/-- The line of an entry, if the filter lets it through. -/
def Filter.lines (f : Filter) (e : Entry) : List String :=
  if f.allows e then [e.text] else []

namespace Entry

/-- A file is about to be parsed. -/
def compiling (path : String) : Entry :=
  ⟨.debug, "escurieux::commands::compile", "compiling", [("path", path)]⟩

/-- The syntax tree has been written to a file. -/
def treeWritten (path : String) : Entry :=
  ⟨.debug, "escurieux::commands::compile", "syntax tree written", [("path", path)]⟩

/-- Parsing starts. -/
def parsing (bytes : Nat) : Entry :=
  ⟨.debug, "escurieux_parser", "parsing", [("bytes", toString bytes)]⟩

/-- Parsing has come to its end without an error. -/
def parsed (warnings : Nat) : Entry :=
  ⟨.debug, "escurieux_parser", "parsed", [("warnings", toString warnings)]⟩

/-- A place as fields. -/
def placeFields (line column : Nat) : List (String × String) :=
  [("line", toString line), ("column", toString column)]

/-- A name as the value of a field. -/
def quoted (name : String) : String :=
  "\"" ++ name ++ "\""

/-- The entry for an event of a run. -/
def ofEvent : Event → Entry
  | .enter production lexeme span =>
    ⟨.trace, "escurieux_parser::trace", "enter",
      [("production", quoted production), ("token", lexeme)] ++
        placeFields span.line span.column⟩
  | .leave production success =>
    ⟨.trace, "escurieux_parser::trace", "exit",
      [("production", quoted production), ("ok", if success then "true" else "false")]⟩
  | .warning d => ⟨.debug, "escurieux_diagnostic::handler", d.message, [("code", d.code.text)]⟩
  | .templateOpened place =>
    ⟨.debug, "escurieux_lexer::lexer", "parsing template expression",
      placeFields place.line place.column⟩
  | .templateResumed place =>
    ⟨.debug, "escurieux_lexer::lexer", "resuming template string",
      placeFields place.line place.column⟩

end Entry

/-- Whether an event is the start or the end of a production. -/
def isProduction : Event → Bool
  | .enter .. | .leave .. => true
  | _ => false

/-- The lines for an event of a run. Productions are logged only if tracing is asked for, and a
warning is reported as well. -/
def eventLines (log : Entry → List String) (traced : Bool) (report : Diagnostic → List String)
    (event : Event) : List String :=
  let logged := if isProduction event && !traced then [] else log (.ofEvent event)
  logged ++ ((Journal.warning? event).map report).getD []

end FrontEnd.CommandLine
