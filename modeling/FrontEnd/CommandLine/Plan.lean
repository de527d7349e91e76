import FrontEnd.CommandLine.Machine

/-!
# Plans

What the command does is laid out as a plan: a sequence of messages, files to be read and files to
be written, and at the end an exit code. A plan is carried out on a real machine, or on a
`Machine` that is a value itself.
-/

namespace FrontEnd.CommandLine

/-- What the command does. -/
inductive Plan where
  | finish (exitCode : Nat)
  /-- Prints a line on the error channel. -/
  | say (line : String) (next : Plan)
  | readFile (path : String) (next : Except FileError String → Plan)
  | writeFile (path content : String) (next : Except FileError Unit → Plan)

namespace Plan

/-- Prints several lines. -/
def sayAll (lines : List String) (next : Plan) : Plan :=
  lines.foldr say next

/-- Carries out a plan on a machine: the exit code, and the machine afterwards. -/
def run : Plan → Machine → Nat × Machine
  | finish exitCode, m => (exitCode, m)
  | say line next, m => next.run (m.say line)
  | readFile path next, m => (next (m.folder.read path)).run m
  | writeFile path content next, m =>
    match m.write path content with
    | .ok after => (next (.ok ())).run after
    | .error e => (next (.error e)).run m

end Plan

end FrontEnd.CommandLine
