import FrontEnd.CommandLine.Run

/-!
# The program

Carries out the plan of the command on the files of the machine.
-/

namespace FrontEnd.CommandLine

/-- The reason behind a failure of the machine. -/
def fileError : IO.Error → FileError
  | .noFileOrDirectory .. => .notFound
  | .noSuchThing _ 6 _ => .noDevice
  | .permissionDenied _ 13 _ => .denied
  | .inappropriateType _ 20 _ => .notFolder
  | .inappropriateType .. => .isFolder
  | .resourceBusy 26 _ => .inUse
  | .resourceExhausted _ 28 _ => .noSpace
  | .invalidArgument _ 36 _ => .nameTooLong
  | e => .other e.toString

/-- The text of a file of the machine. -/
def readText (path : String) : IO (Except FileError String) := do
  try
    match String.fromUTF8? (← IO.FS.readBinFile path) with
    | some text => return .ok text
    | none => return .error .notText
  catch e => return .error (fileError e)

/-- Writes a text to a file of the machine. -/
def writeText (path content : String) : IO (Except FileError Unit) := do
  try
    IO.FS.writeFile path content
    return .ok ()
  catch e => return .error (fileError e)

/-- Carries out a plan. -/
def Plan.perform : Plan → IO UInt32
  | .finish exitCode => return exitCode.toUInt32
  | .say line next => do
    IO.eprintln line
    next.perform
  | .readFile path next => do
    (next (← readText path)).perform
  | .writeFile path content next => do
    (next (← writeText path content)).perform

end FrontEnd.CommandLine

/-- Runs the command with the arguments and the environment of the process. -/
def main (args : List String) : IO UInt32 := do
  (FrontEnd.CommandLine.command args (← IO.getEnv "ESCURIEUX_LOG")).perform
