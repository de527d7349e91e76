import FrontEnd.CommandLine.Log
import FrontEnd.CommandLine.Plan
import FrontEnd.Document.Pretty
import FrontEnd.Document.Tree
import FrontEnd.Program

/-!
# The command

The command reads a source file, reports what is wrong with it, and writes its syntax tree if it is
asked to. It can also explain a code.
-/

namespace FrontEnd.CommandLine

/-- How the command is used. -/
def usage : List String :=
  ["Usage:",
    "escurieux [options] [filename]",
    "(filename is required unless -h / --help or -e / --explain is specified)",
    "Options:",
    "* -v, --verbose : Verbose mode. Print extra information about what the compiler is doing.",
    "* -h, --help : Show this message. When this option is specified, a filename is not required.",
    "* -e <code>, --explain <code> : Explain an error or warning code, e.g. E00004.",
    "* -o=filename, --out=filename : Write the syntax tree as JSON to this file.",
    "* -b, --bytecode : Run from bytecode instead of source.",
    "* -c, --compile-only : Compile without running.",
    "* --trace : Log every parser production.",
    "* --fancy : Render diagnostics with labelled source excerpts.",
    "",
    "Report any errors / bugs / whatever to this page : " ++
      "https://github.com/Astroide/escurieux/issues ."]

/-- Gives up for a reason that is not a fault of the source. -/
def fatal (reason : String) : Plan :=
  Plan.sayAll ["Fatal error: " ++ reason, "Run escurieux -h or escurieux --help for help."]
    (.finish 1)

/-- Gives up because a file cannot be used. -/
def fatalFile (path : String) (e : FileError) : Plan :=
  fatal ("cannot read '" ++ path ++ "': " ++ e.message)

/-- The first line of a text. -/
def firstLine (text : String) : String :=
  let line := text.toList.takeWhile (· != '\n')
  if line.length < text.length then
    match line.reverse with
    | '\r' :: rest => String.ofList rest.reverse
    | _ => String.ofList line
  else text

/-- Explains a code. -/
def explain (query : String) : Plan :=
  match Code.find? query with
  | none => fatal (Code.unknownMessage query)
  | some code =>
    let sort := if code.isWarning then "Warning" else "Error"
    Plan.sayAll [sort ++ " " ++ code.text ++ ": " ++ code.title, "", code.explanation] (.finish 0)

/-- Writes the syntax tree to a file if one is asked for. -/
def writeTree (filter : Filter) (options : Options) (program : Option Expr) (next : Plan) :
    Plan :=
  match options.value? .out with
  | none => next
  | some path =>
    .writeFile path (Expr.programDocument program).pretty fun
      | .error e => fatalFile path e
      | .ok () => Plan.sayAll (filter.lines (.treeWritten path)) next

/-- What follows when a source has been read without an error. -/
def succeed (filter : Filter) (options : Options) (warnings : Nat) (program : Option Expr) :
    Plan :=
  let verbose := options.has .verbose
  let summary :=
    if verbose && warnings != 0 then [s!"\x1b[34minfo:\x1b[0m {warnings} warning(s)"] else []
  let farewell := if verbose then ["\x1b[32mOK - No errors found\x1b[0m"] else []
  Plan.sayAll (filter.lines (.parsed warnings) ++ summary)
    (writeTree filter options program (Plan.sayAll farewell (.finish 0)))

/-- The rendering of a diagnostic of a source. Nothing is shown in place of labelled excerpts. -/
def shown (options : Options) (source : String) (d : Diagnostic) : List String :=
  if options.has .fancy then []
  else [Snippet.render d source.toList ⟨options.has .verbose, true, "escurieux"⟩]

/-- Parses a source and reports on it. -/
def compile (filter : Filter) (options : Options) (path source : String) : Plan :=
  let outcome := parse source
  let shown := shown options source
  let opening :=
    filter.lines (.compiling path) ++ filter.lines (.parsing source.utf8ByteSize)
  let events := outcome.journal.toList.flatMap (eventLines filter.lines (options.has .trace) shown)
  Plan.sayAll (opening ++ events) <|
    match outcome.result with
    | .error d => Plan.sayAll (shown d) (.finish 1)
    | .ok program => succeed filter options outcome.warnings.length program

/-- What the command does with its options. -/
def perform (filter : Filter) (options : Options) : Plan :=
  if options.has .help then Plan.sayAll usage (.finish 0)
  else
    match options.value? .explain, options.value? .filename with
    | some query, _ => explain query
    | none, none => fatal "Unless -h or --help is specified, a filename is required."
    | none, some path =>
      if options.has .bytecode && options.has .compileOnly then
        fatal "--bytecode / -b and --compile-only / -c cannot be used together."
      else if options.has .bytecode then fatal "The VM has not been implemented yet."
      else
        .readFile path fun
          | .error e => fatalFile path e
          | .ok source => compile filter options path source

/-- What the command does with its arguments and the log filter of its environment. -/
def command (args : List String) (environment : Option String) : Plan :=
  match Options.read args with
  | .error e => fatal (firstLine e.message)
  | .ok options => perform (.ofEnvironment environment options) options

end FrontEnd.CommandLine
