/-!
# What a terminal prints

A terminal takes control characters and escape sequences as commands and does not print them. Of
the control characters only tabs, newlines, form feeds and carriage returns are kept here. A
sequence starts with the escape character and ends by the rules of its sort; one that is broken off
by a kept control character ends there, unless it is a string of its own (`ESC P`, `ESC X`,
`ESC ]`, `ESC ^` and `ESC _`), which swallows everything up to its end.
-/

namespace FrontEnd.Text

/-- How far a terminal has come in an escape sequence. -/
inductive TerminalState where
  /-- Outside of sequences. -/
  | ground
  /-- After the escape character. -/
  | escape
  /-- In a sequence of two characters, after an intermediate one. -/
  | intermediate
  /-- In a control sequence, which starts with `ESC [`. -/
  | control
  /-- At the start of a device control string, `ESC P`. -/
  | deviceEntry
  /-- In the parameters of a device control string. -/
  | deviceParam
  /-- After an intermediate character of a device control string. -/
  | deviceIntermediate
  /-- In a string that only the byte `9C` ends. -/
  | string
  /-- In an operating system command, `ESC ]`, which the bell ends. -/
  | systemCommand
  deriving DecidableEq, Repr

namespace TerminalState

/-- Whether a control character is kept. -/
def keeps (c : Char) : Bool :=
  c == '\t' || c == '\n' || c == '\x0c' || c == '\r'

/-- Whether a sequence takes a control character without being disturbed by it. -/
def isString : TerminalState → Bool
  | deviceEntry | deviceParam | deviceIntermediate | string | systemCommand => true
  | ground | escape | intermediate | control => false

/-- What an ordinary ASCII character after the escape character leads to. -/
def afterEscape (code : Nat) : TerminalState :=
  if code < 0x30 then intermediate
  else if code = 0x50 then deviceEntry
  else if code = 0x5B then control
  else if code = 0x5D then systemCommand
  else if code = 0x58 ∨ code = 0x5E ∨ code = 0x5F then string
  else ground

/-- The state after an ordinary ASCII character, from space to tilde. -/
def afterOrdinary (code : Nat) : TerminalState → TerminalState
  | ground => ground
  | escape => afterEscape code
  | intermediate => if code < 0x30 then intermediate else ground
  | control => if code < 0x40 then control else ground
  | deviceEntry =>
    if code < 0x30 then deviceIntermediate else if code < 0x40 then deviceParam else string
  | deviceParam =>
    if code < 0x30 then deviceIntermediate else if code < 0x3C then deviceParam else string
  | deviceIntermediate => if code < 0x30 then deviceIntermediate else string
  | string => string
  | systemCommand => systemCommand

/-- The state after a character beyond ASCII. One with the byte `9C` in it ends a string. -/
def afterWide (c : Char) : TerminalState → TerminalState
  | string => if (String.singleton c).toUTF8.toList.contains 0x9C then ground else string
  | state => state

/-- The state after a control character. -/
def afterControl (c : Char) (state : TerminalState) : TerminalState :=
  if c = '\x1b' then escape
  else if c = '\x18' ∨ c = '\x1a' then ground
  else if c = '\x07' ∧ state = systemCommand then ground
  else if keeps c ∧ !state.isString then ground
  else state

/-- Takes a character: whether it is printed, and the state after it. -/
def step (state : TerminalState) (c : Char) : Bool × TerminalState :=
  let code := c.toNat
  if code < 0x20 then (keeps c && !state.isString, state.afterControl c)
  else if code < 0x7F then (state == ground, state.afterOrdinary code)
  else if code = 0x7F then (false, state)
  else (state == ground, state.afterWide c)

end TerminalState

/-- What is printed of a text that is sent to a terminal in the given state. -/
def printed (state : TerminalState) : List Char → List Char
  | [] => []
  | c :: rest =>
    let (visible, after) := state.step c
    if visible then c :: printed after rest else printed after rest

/-- What a terminal prints of a text. -/
def visible (text : String) : String :=
  String.ofList (printed .ground text.toList)

end FrontEnd.Text
