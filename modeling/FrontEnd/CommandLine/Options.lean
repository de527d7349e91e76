import FrontEnd.Text.Terminal

/-!
# Options

The arguments of the command: switches, settings that take a value, and one file name, in any
order. Switches with one letter may be written together, and a value may follow its setting
directly, after `=` or as the next argument, unless that looks like an option itself. After `--`
every argument is a file name.

A value is stored when the next argument is understood, and complaints about it come up only then:
an argument that is not known at all is complained of first.
-/

namespace FrontEnd.CommandLine

/-- Options without a value. -/
inductive Switch where
  | verbose
  | help
  | bytecode
  | compileOnly
  | trace
  | fancy
  | version
  deriving DecidableEq, Repr

/-- Places for a value. -/
inductive Slot where
  | filename
  | explain
  | out
  deriving DecidableEq, Repr

/-- How a switch is written. -/
def Switch.text : Switch → String
  | verbose => "--verbose"
  | help => "--help"
  | bytecode => "--bytecode"
  | compileOnly => "--compile-only"
  | trace => "--trace"
  | fancy => "--fancy"
  | version => "--version"

/-- How a place for a value is written. -/
def Slot.text : Slot → String
  | filename => "[FILENAME]"
  | explain => "--explain <CODE>"
  | out => "--out <PATH>"

/-- Whether the value of a slot is a path, which cannot be empty. -/
def Slot.isPath : Slot → Bool
  | explain => false
  | filename | out => true

/-- A switch, or a setting that takes a value. -/
inductive Flag where
  | switch (s : Switch)
  | setting (s : Slot)

/-- The option that a letter after `-` stands for. -/
def short? : Char → Option Flag
  | 'v' => some (.switch .verbose)
  | 'h' => some (.switch .help)
  | 'e' => some (.setting .explain)
  | 'o' => some (.setting .out)
  | 'b' => some (.switch .bytecode)
  | 'c' => some (.switch .compileOnly)
  | 'V' => some (.switch .version)
  | _ => none

/-- The option that a word after `--` stands for. -/
def long? : String → Option Flag
  | "verbose" => some (.switch .verbose)
  | "help" => some (.switch .help)
  | "explain" => some (.setting .explain)
  | "out" => some (.setting .out)
  | "bytecode" => some (.switch .bytecode)
  | "compile-only" => some (.switch .compileOnly)
  | "trace" => some (.switch .trace)
  | "fancy" => some (.switch .fancy)
  | "version" => some (.switch .version)
  | _ => none

/-- The reasons not to accept the arguments. Asking for the version is treated like one. -/
inductive UsageError where
  | unexpectedArgument (text : String)
  | missingValue (slot : Slot)
  | unneededValue (value : String) (switch : Switch)
  | repeated (text : String)
  | version

/-- The wording of a complaint about the arguments. What it quotes of them is reduced to what a
terminal would print. -/
def UsageError.message : UsageError → String
  | unexpectedArgument text => "unexpected argument '" ++ Text.visible text ++ "' found"
  | missingValue slot => "a value is required for '" ++ slot.text ++ "' but none was supplied"
  | unneededValue value switch =>
    "unexpected value '" ++ Text.visible value ++ "' for '" ++ switch.text ++
      "' found; no more were expected"
  | repeated text => "the argument '" ++ text ++ "' cannot be used multiple times"
  | version => "escurieux 0.3.0"

/-- What the arguments ask for. -/
structure Options where
  switches : List Switch
  values : List (Slot × String)

namespace Options

/-- No options. -/
def none : Options :=
  ⟨[], []⟩

/-- Whether a switch is given. -/
def has (o : Options) (s : Switch) : Bool :=
  o.switches.contains s

/-- The value of a slot. -/
def value? (o : Options) (s : Slot) : Option String :=
  o.values.lookup s

/-- Turns a switch on, which can be done only once. -/
def turnOn (o : Options) (s : Switch) : Except UsageError Options :=
  if s = .version then .error .version
  else if o.has s then .error (.repeated s.text)
  else .ok { o with switches := s :: o.switches }

/-- Fills a slot, which can be done only once. -/
def fill (o : Options) (s : Slot) (value : String) : Except UsageError Options :=
  if (o.value? s).isSome then .error (.repeated s.text)
  else if s.isPath && value.isEmpty then .error (.missingValue s)
  else .ok { o with values := (s, value) :: o.values }

end Options

/-- What the last argument left open. -/
inductive Pending where
  | nothing
  /-- A setting that still needs its value. -/
  | awaiting (slot : Slot)
  /-- A value that is not stored yet. -/
  | holding (slot : Slot) (value : String)

/-- The options understood so far, what is open, and whether a file name has been seen. -/
structure Progress where
  options : Options
  pending : Pending
  hasFile : Bool

namespace Progress

/-- Stores what is open. -/
def settle (p : Progress) : Except UsageError Progress := do
  match p.pending with
  | .nothing => return p
  | .awaiting slot => throw (.missingValue slot)
  | .holding slot value =>
    return { p with options := ← p.options.fill slot value, pending := .nothing }

/-- Turns a switch on. -/
def turnOn (p : Progress) (s : Switch) : Except UsageError Progress := do
  let p ← p.settle
  return { p with options := ← p.options.turnOn s }

/-- Fills a slot with a value that is attached to its setting. -/
def fill (p : Progress) (s : Slot) (value : String) : Except UsageError Progress := do
  let p ← p.settle
  return { p with options := ← p.options.fill s value }

/-- Waits for the value of a setting. -/
def await (p : Progress) (s : Slot) : Except UsageError Progress := do
  let p ← p.settle
  return { p with pending := .awaiting s }

/-- Reads the letters of an argument after `-`. -/
def letters (p : Progress) : List Char → Except UsageError Progress
  | [] => .ok p
  | c :: rest =>
    match short? c with
    | none => .error (.unexpectedArgument (String.ofList ['-', c]))
    | some (.switch s) => do letters (← p.turnOn s) rest
    | some (.setting s) =>
      match rest with
      | [] => p.await s
      | '=' :: value => p.fill s (String.ofList value)
      | value => p.fill s (String.ofList value)

/-- Reads the word of an argument after `--`, and the value after `=` if there is one. -/
def word (p : Progress) (name : String) (value : Option String) : Except UsageError Progress :=
  match long? name, value with
  | none, _ => .error (.unexpectedArgument ("--" ++ name))
  | some (.switch s), none => p.turnOn s
  | some (.switch s), some value => .error (.unneededValue value s)
  | some (.setting s), none => p.await s
  | some (.setting s), some value => p.fill s value

/-- Takes an argument as the file name, of which there is one. -/
def file (p : Progress) (text : String) : Except UsageError Progress := do
  if p.hasFile then throw (.unexpectedArgument text)
  else
    let p ← p.settle
    return ⟨p.options, .holding .filename text, true⟩

/-- Takes an argument that is no option: the value of a setting that waits for one, or the file
name. -/
def plain (p : Progress) (text : String) : Except UsageError Progress :=
  match p.pending with
  | .awaiting slot => .ok { p with pending := .holding slot text }
  | _ => p.file text

/-- Reads one argument before any `--`. -/
def argument (p : Progress) (text : String) : Except UsageError Progress :=
  match text.toList with
  | '-' :: '-' :: rest =>
    let name := rest.takeWhile (· != '=')
    match rest.dropWhile (· != '=') with
    | [] => p.word (String.ofList name) none
    | _ :: value => p.word (String.ofList name) (some (String.ofList value))
  | '-' :: c :: rest => p.letters (c :: rest)
  | _ => p.plain text

/-- Reads the arguments in order. -/
def arguments (p : Progress) : List String → Except UsageError Progress
  | [] => p.settle
  | text :: rest =>
    if text = "--" then do
      (← rest.foldlM file p).settle
    else do
      (← p.argument text).arguments rest

end Progress

/-- Reads the arguments of the command. -/
def Options.read (args : List String) : Except UsageError Options := do
  return (← Progress.arguments ⟨.none, .nothing, false⟩ args).options

end FrontEnd.CommandLine
