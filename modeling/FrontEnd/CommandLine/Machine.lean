/-!
# Files and devices

A machine as a value: a folder with files, in which the command runs, and what has been printed.
Paths lead from the folder, or from the root of the machine if they start with a slash. Of the
machine around the folder only its usual folders and a few devices are known; anything else is taken
to be missing there.
-/

namespace FrontEnd.CommandLine

/-- The reasons why a file cannot be read or written. -/
inductive FileError where
  | notFound
  | noDevice
  | denied
  | notFolder
  | isFolder
  | inUse
  | noSpace
  | nameTooLong
  | notText
  | other (reason : String)

/-- The wording of a failure to use a file. -/
def FileError.message : FileError → String
  | notFound => "No such file or directory (os error 2)"
  | noDevice => "No such device or address (os error 6)"
  | denied => "Permission denied (os error 13)"
  | notFolder => "Not a directory (os error 20)"
  | isFolder => "Is a directory (os error 21)"
  | inUse => "Text file busy (os error 26)"
  | noSpace => "No space left on device (os error 28)"
  | nameTooLong => "File name too long (os error 36)"
  | notText => "stream did not contain valid UTF-8"
  | other reason => reason

/-- A file that is no place to keep a text. -/
inductive Device where
  /-- Reads as nothing, and loses what is written to it. -/
  | null
  /-- The output channel. -/
  | output
  /-- The error channel. -/
  | errors
  /-- Has no room for anything. -/
  | full
  /-- Stands for the terminal, of which there is none. -/
  | terminal
  /-- The program that runs, which is no text. -/
  | program
  deriving DecidableEq, Repr

/-- The text of a device. -/
def Device.read : Device → Except FileError String
  | null | output | errors | full => .ok ""
  | terminal => .error .noDevice
  | program => .error .notText

/-- A folder that a path leads to or passes. -/
inductive Place where
  /-- Below the folder in which the command runs, or that folder. -/
  | inside (names : List String)
  /-- Above it. -/
  | above
  /-- At known names from the root of the machine. -/
  | absolute (names : List String)

/-- The folder that holds a folder. -/
def Place.parent : Place → Place
  | inside [] => above
  | inside names => inside names.dropLast
  | above => above
  | absolute names => absolute names.dropLast

/-- What is known to stand at a place of the machine. -/
inductive Landmark where
  | folder
  /-- A folder in which no file can be made, and the reason given for it. -/
  | sealed (reason : FileError)
  /-- Another name of a folder. -/
  | link (place : Place)
  | device (device : Device)

namespace Landmark

/-- The usual folders of a machine, from its root. -/
def usualFolders : List (List String) :=
  [[], ["bin"], ["boot"], ["dev"], ["dev", "shm"], ["etc"], ["home"], ["lib"], ["lib64"], ["media"],
    ["mnt"], ["opt"], ["root"], ["run"], ["sbin"], ["srv"], ["tmp"], ["usr"], ["usr", "bin"],
    ["usr", "include"], ["usr", "lib"], ["usr", "local"], ["usr", "sbin"], ["usr", "share"],
    ["usr", "src"], ["var"], ["var", "cache"], ["var", "lib"], ["var", "log"], ["var", "tmp"]]

/-- The folders through which the system shows itself. -/
def systemPlaces : List (List String × Landmark) :=
  [(["proc"], sealed .notFound), (["proc", "self"], sealed .notFound),
    (["proc", "self", "fd"], sealed .notFound), (["proc", "self", "task"], sealed .notFound),
    (["proc", "self", "cwd"], link (.inside [])), (["proc", "self", "root"], link (.absolute [])),
    (["proc", "thread-self"], link (.absolute ["proc", "self"])), (["sys"], sealed .denied),
    (["dev", "pts"], sealed .denied), (["dev", "fd"], link (.absolute ["proc", "self", "fd"]))]

/-- Where the devices are found. Those that could be read for ever count as empty. -/
def devicePlaces : List (List String × Landmark) :=
  [(["dev", "null"], device .null), (["dev", "zero"], device .null),
    (["dev", "random"], device .null), (["dev", "urandom"], device .null),
    (["dev", "full"], device .full), (["dev", "tty"], device .terminal),
    (["proc", "self", "exe"], device .program), (["dev", "stdin"], device .null),
    (["dev", "stdout"], device .output), (["dev", "stderr"], device .errors),
    (["proc", "self", "fd", "0"], device .null), (["proc", "self", "fd", "1"], device .output),
    (["proc", "self", "fd", "2"], device .errors)]

/-- What is known to stand at the names from the root of the machine. -/
def at? (names : List String) : Option Landmark :=
  if usualFolders.contains names then some folder
  else systemPlaces.lookup names <|> devicePlaces.lookup names

end Landmark

/-- What stands under a name in a folder. -/
inductive Node where
  | folder (place : Place)
  | file (names : List String) (bytes : ByteArray)
  | device (device : Device)
  /-- Nothing, in a folder below the one in which the command runs. -/
  | vacant (names : List String)
  /-- Nothing, in a folder in which nothing can be made for the given reason. -/
  | barred (reason : FileError)
  /-- Nothing that is known, elsewhere on the machine. -/
  | unknown

/-- Some files and folders, each under the names on the way to it. -/
structure Folder where
  files : List (List String × ByteArray)
  folders : List (List String)

namespace Folder

/-- Whether the names lead to a folder. -/
def isFolder (f : Folder) (names : List String) : Bool :=
  names.isEmpty || f.folders.any names.isPrefixOf ||
    f.files.any fun (file, _) => names.isPrefixOf file && names != file

/-- What stands at the names below the folder. -/
def nodeAt (f : Folder) (names : List String) : Node :=
  if f.isFolder names then .folder (.inside names)
  else
    match f.files.lookup names with
    | some bytes => .file names bytes
    | none => .vacant names

/-- What stands at the names from the root of the machine. -/
def absoluteNode (names : List String) : Node :=
  match Landmark.at? names with
  | some .folder | some (.sealed _) => .folder (.absolute names)
  | some (.link place) => .folder place
  | some (.device device) => .device device
  | none =>
    match Landmark.at? names.dropLast with
    | some (.sealed reason) => .barred reason
    | _ => .unknown

/-- The greatest number of bytes in a name. -/
def longestName : Nat := 255

/-- The greatest number of bytes in a path. -/
def longestPath : Nat := 4095

/-- What stands under a name in a folder. -/
def lookup (f : Folder) (place : Place) (name : String) : Except FileError Node :=
  if name = "." then .ok (.folder place)
  else if name = ".." then .ok (.folder place.parent)
  else if longestName < name.utf8ByteSize then .error .nameTooLong
  else
    match place with
    | .inside names => .ok (f.nodeAt (names ++ [name]))
    | .above => .ok .unknown
    | .absolute names => .ok (absoluteNode (names ++ [name]))

/-- What the names lead to from a folder. All but the last of them have to lead to folders. -/
def follow (f : Folder) (place : Place) : List String → Except FileError Node
  | [] => .ok (.folder place)
  | [name] => f.lookup place name
  | name :: rest => do
    match ← f.lookup place name with
    | .folder next => f.follow next rest
    | .file .. | .device _ => throw .notFolder
    | .vacant _ | .barred _ | .unknown => throw .notFound

/-- The names in a path. -/
def namesOf (path : String) : List String :=
  (path.splitOn "/").filter (· != "")

/-- Where a path starts. -/
def startOf (path : String) : Place :=
  if path.startsWith "/" then .absolute [] else .inside []

/-- What some names of a path lead to, unless the path as a whole is too long. -/
def locate (f : Folder) (path : String) (names : List String) : Except FileError Node :=
  if longestPath < path.utf8ByteSize then .error .nameTooLong
  else f.follow (startOf path) names

/-- The text of a file. A slash at the end of a path asks for a folder. -/
def read (f : Folder) (path : String) : Except FileError String := do
  match ← f.locate path (namesOf path) with
  | .folder _ => throw .isFolder
  | .vacant _ | .barred _ | .unknown => throw .notFound
  | .device device => if path.endsWith "/" then throw .notFolder else device.read
  | .file _ bytes =>
    if path.endsWith "/" then throw .notFolder
    else
      match String.fromUTF8? bytes with
      | none => throw .notText
      | some text => return text

/-- What is to be written to at a path. With a slash at its end it could only be a folder, whatever
stands there. -/
def target (f : Folder) (path : String) : Except FileError Node := do
  let names := namesOf path
  if path.endsWith "/" then
    match ← f.locate path (names.dropLast ++ ["."]) with
    | _ => throw .isFolder
  else
    match ← f.locate path names with
    | .folder _ => throw .isFolder
    | .barred reason => throw reason
    | node => return node

/-- The folder with a text under the names of a file. -/
def put (f : Folder) (names : List String) (content : String) : Folder :=
  { f with files := (names, content.toUTF8) :: f.files.filter (·.1 != names) }

/-- The files at the top of the folder that another folder lacks or holds with another content. -/
def changedSince (f before : Folder) : List (String × ByteArray) :=
  f.files.filterMap fun (names, bytes) =>
    match names with
    | [name] =>
      match before.files.lookup names with
      | some old => if old == bytes then none else some (name, bytes)
      | none => some (name, bytes)
    | _ => none

end Folder

/-- A machine: the folder in which the command runs, and what its two channels have shown. -/
structure Machine where
  folder : Folder
  output : String := ""
  errors : String := ""

namespace Machine

/-- The number of bytes that are collected before a device is written to. A text that stays below
is only written when nobody waits for the result any more. -/
def collected : Nat := 8192

/-- Shows a line on the error channel. -/
def say (m : Machine) (line : String) : Machine :=
  { m with errors := m.errors ++ line ++ "\n" }

/-- Writes a text to a device. -/
def writeDevice (m : Machine) (content : String) : Device → Except FileError Machine
  | .null => .ok m
  | .output => .ok { m with output := m.output ++ content }
  | .errors => .ok { m with errors := m.errors ++ content }
  | .full => if collected < content.utf8ByteSize then .error .noSpace else .ok m
  | .terminal => .error .noDevice
  | .program => .error .inUse

/-- Writes a text to a file. What is written outside of the folder is not kept track of. -/
def write (m : Machine) (path content : String) : Except FileError Machine := do
  match ← m.folder.target path with
  | .file names _ | .vacant names => return { m with folder := m.folder.put names content }
  | .device device => m.writeDevice content device
  | .folder _ | .barred _ | .unknown => return m

end Machine

end FrontEnd.CommandLine
