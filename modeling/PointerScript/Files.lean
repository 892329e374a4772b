import PointerScript.Text.Line
import PointerScript.Text.Quoted
import PointerScript.Text.Split
import PointerScript.Text.Utf8

/-! The files that the program reads and writes.

A path is a list of steps with slashes between them. It starts in the working directory, or at the root
if it starts with a slash. -/

namespace PointerScript

inductive FileNode where
  | file (bytes : Text.Bytes)
  | directory
  deriving DecidableEq

/-- The files of a directory by their paths. -/
abbrev Files := List (String × FileNode)

inductive FileFault where
  | notFound (path : String)
  | alreadyThere (path : String)
  | isDirectory (path : String)
  | notDirectory (path : String)
  | nameTooLong (path : String)
  | zeroInPath
  | notText (fault : Text.Utf8Fault)
  | notBytes (fault : Text.EncodeFault)
  deriving DecidableEq

namespace FileFault

def message : FileFault → String
  | notFound path => "[Errno 2] No such file or directory: " ++ Text.quoted path
  | alreadyThere path => "[Errno 17] File exists: " ++ Text.quoted path
  | isDirectory path => "[Errno 21] Is a directory: " ++ Text.quoted path
  | notDirectory path => "[Errno 20] Not a directory: " ++ Text.quoted path
  | nameTooLong path => "[Errno 36] File name too long: " ++ Text.quoted path
  | zeroInPath => "embedded null byte"
  | notText fault => fault.message
  | notBytes fault => fault.message

end FileFault

/-- A place in the tree of directories: the names on the way to it, the last one first. The working
directory is the empty place, and the root is the place `["/"]`. -/
abbrev Place := List String

namespace Place

def up : Place → Place
  | [] => [".."]
  | ".." :: rest => ".." :: ".." :: rest
  | ["/"] => ["/"]
  | _ :: rest => rest

def key (place : Place) : String :=
  "/".intercalate place.reverse

/-- Whether a step leaves a place as it is. -/
def isIdle (step : String) : Bool := step = "" || step = "."

def startOf (path : String) : Place :=
  if path.toList.head? = some '/' then ["/"] else []

def stepsOf (path : String) : List String :=
  (Text.split ['/'] path.toList).map String.ofList

/-- The place that a path names, whatever is there. -/
def named (path : String) : Place :=
  (stepsOf path).foldl
    (fun place step => if isIdle step then place else if step = ".." then place.up else step :: place)
    (startOf path)

end Place

namespace Files

/-- The longest name, in bytes. -/
def nameLimit : Nat := 255

/-- Paths of this many bytes or more are too long. -/
def pathLimit : Nat := 4096

def holds (files : Files) (place : Place) : Bool :=
  files.any fun entry => (place.key ++ "/").toList.isPrefixOf entry.1.toList

/-- What is at a place. A place that holds something is a directory, and so are the places around the
working directory. -/
def nodeAt? (files : Files) (place : Place) : Option FileNode :=
  match place with
  | [] | ["/"] | ".." :: _ => some .directory
  | _ => files.lookup place.key <|> if files.holds place then some .directory else none

/-- Takes some steps from a place. Every step but the last has to lead to a directory. A file to be
created cannot have a slash after its name. -/
def walk (files : Files) (creating : Bool) (path : String) (place : Place) :
    List String → Except FileFault Place
  | [] => .ok place
  | step :: rest =>
    if Place.isIdle step then walk files creating path place rest
    else if step = ".." then walk files creating path place.up rest
    else if step.utf8ByteSize > nameLimit then .error (.nameTooLong path)
    else if rest.isEmpty then .ok (step :: place)
    else if creating && rest.all (· = "") then .error (.isDirectory path)
    else
      match files.nodeAt? (step :: place) with
      | none => .error (.notFound path)
      | some (.file _) => .error (.notDirectory path)
      | some .directory => walk files creating path (step :: place) rest

def locate (files : Files) (creating : Bool) (path : String) : Except FileFault Place :=
  if path.toList.contains (Char.ofNat 0) then .error .zeroInPath
  else if path = "" then .error (.notFound path)
  else if path.utf8ByteSize ≥ pathLimit then .error (.nameTooLong path)
  else files.walk creating path (Place.startOf path) (Place.stepsOf path)

def find? (files : Files) (path : String) : Option FileNode :=
  (files.locate false path).toOption.bind files.nodeAt?

def put (files : Files) (place : Place) (node : FileNode) : Files :=
  files.filter (·.1 ≠ place.key) ++ [(place.key, node)]

def placeToWrite (files : Files) (path : String) : Except FileFault Place := do
  let place ← files.locate true path
  match files.nodeAt? place with
  | some .directory => throw (.isDirectory path)
  | _ => return place

def write (files : Files) (path : String) (bytes : Text.Bytes) : Files × Option FileFault :=
  match files.placeToWrite path with
  | .error fault => (files, some fault)
  | .ok place => (files.put place (.file bytes), none)

/-- Writes pieces of text to a file. A piece that has no bytes ends the writing, and what came before it
stays in the file. -/
def writePieces (files : Files) (path : String) (pieces : List Text.WideText) : Files × Option FileFault :=
  match files.placeToWrite path with
  | .error fault => (files, some fault)
  | .ok place =>
    let (bytes, fault) := Text.encodePieces pieces
    (files.put place (.file bytes), fault.map .notBytes)

/-- Makes a directory at a place where nothing is, and those that hold it. -/
def makeDirectories (files : Files) : Place → Files
  | [] => files
  | name :: rest =>
    let files := files.makeDirectories rest
    if (files.nodeAt? (name :: rest)).isNone then files.put (name :: rest) .directory else files

def makeDirectory (files : Files) (path : String) : Except FileFault Files :=
  if (files.nodeAt? (Place.named path)).isSome then .error (.alreadyThere path)
  else .ok (files.makeDirectories (Place.named path))

/-- Reads text. Every kind of line end becomes a line feed. -/
def readText (files : Files) (path : String) : Except FileFault String := do
  let place ← files.locate false path
  match files.nodeAt? place with
  | none => throw (.notFound path)
  | some .directory => throw (.isDirectory path)
  | some (.file bytes) =>
    match Text.decode bytes with
    | .error fault => throw (.notText fault)
    | .ok text => return String.ofList (Text.unifyNewlines text.toList)

/-- The contents of a file for display; other paths have none. -/
def shown? (files : Files) (path : String) : Option String :=
  match files.find? path with
  | some (.file bytes) => some (Text.decodeLossy bytes)
  | _ => none

end Files

end PointerScript
