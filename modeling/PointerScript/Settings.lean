import PointerScript.Files
import PointerScript.Host
import PointerScript.Json.Reader
import PointerScript.Json.Writer

/-! The settings of the program and the file they are kept in.

The settings are the entries of an open table: a loaded file may give a value to every name that the
table knows, and that includes the names of its own operations. -/

namespace PointerScript

/-- An entry of the table: a value, or one of its operations. -/
inductive Attribute where
  | value (json : Json)
  | operation

/-- The table of settings, in the order in which they are stored, on the host that keeps it. -/
structure Settings where
  host : Host
  attributes : List (String × Attribute)

inductive SettingsFault where
  | unknownName (title name : String)
  | notCallable (kind : String)
  | notATable (kind : String)
  | needsText (title name kind : String)
  | needsSequence (title name kind : String)
  | needsClass (kind : String)
  | titleNotBytes (fault : Text.EncodeFault)
  | zeroInTitle
  | fixed (name : String)
  | readOnly
  | limit (cause : Json.Limit)
  | tooDeep (message : String)
  | file (fault : FileFault)
  deriving DecidableEq

namespace SettingsFault

def message : SettingsFault → String
  | unknownName title name => "type object '" ++ title ++ "' has no attribute '" ++ name ++ "'"
  | notCallable kind => "'" ++ kind ++ "' object is not callable"
  | notATable kind => "'" ++ kind ++ "' object has no attribute 'items'"
  | needsText title name kind =>
    "can only assign string to " ++ title ++ "." ++ name ++ ", not '" ++ kind ++ "'"
  | needsSequence title name kind =>
    "can only assign tuple to " ++ title ++ "." ++ name ++ ", not " ++ kind
  | needsClass kind => "__class__ must be set to a class, not '" ++ kind ++ "' object"
  | titleNotBytes fault => fault.message
  | zeroInTitle => "type name must not contain null characters"
  | fixed name => "attribute '" ++ name ++ "' of 'type' objects is not writable"
  | readOnly => "readonly attribute"
  | limit cause => cause.message
  | tooDeep message => message
  | file fault => fault.message

end SettingsFault

namespace Json

def kindName : Json → String
  | null => "NoneType"
  | bool _ => "bool"
  | num (.int _) => "int"
  | num (.float _) => "float"
  | str _ => "str"
  | arr _ => "list"
  | obj _ => "dict"

end Json

namespace Settings

def operationNames : List String :=
  ["_get_serializable_attrs", "store_to_file", "load_from_file", "as_dict"]

def startingOn (host : Host) : Settings where
  host := host
  attributes :=
    [("clear_terminal_on_run", .value (.bool true)), ("print_debug_msg", .value (.bool false)),
      ("text_size", .value (.int 10)), ("dark_mode", .value (.bool false)),
      ("notify_when_program_ends", .value (.bool false)), ("pause_resume_key", .value (.int 32))] ++
      operationNames.map fun name => (name, .operation)

def initial : Settings :=
  startingOn .plain

def knows (s : Settings) (name : String) : Bool :=
  s.attributes.any (·.1 = name) || s.host.builtinNames.contains name

/-- Values of names that the table knows without having entries for them. -/
def builtinValues : List (String × Json) :=
  [("__name__", "Settings"), ("__qualname__", "Settings"), ("__module__", "view.settings"),
    ("__doc__", "\n    Global static settings class.\n" ++
      "    Stores app-wide configuration with simple JSON persistence.\n    ")].map fun entry : String × String =>
    (entry.1, .str (.ofChars entry.2.toList))

def get? (s : Settings) (name : String) : Option Json :=
  match s.attributes.lookup name with
  | some (.value json) => some json
  | _ => none

def look (s : Settings) (name : String) : Option Json :=
  s.get? name <|> builtinValues.lookup name

def title (s : Settings) : String :=
  match s.look "__name__" with
  | some (.str text) => text.toText
  | _ => ""

/-- The value of a setting, null if it has none. -/
def value (s : Settings) (name : String) : Json :=
  (s.get? name).getD .null

def setEntry (name : String) (value : Json) : List (String × Attribute) → List (String × Attribute)
  | [] => [(name, .value value)]
  | entry :: rest =>
    if entry.1 = name then (name, .value value) :: rest else entry :: setEntry name value rest

def titleRefusal? (text : Text.WideText) : Option SettingsFault :=
  match Text.encodeFault? text with
  | some fault => some (.titleNotBytes fault)
  | none => if text.contains (.char (Char.ofNat 0)) then some .zeroInTitle else none

def refusal? (s : Settings) (name : String) (value : Json) : Option SettingsFault :=
  match name, value with
  | "__name__", .str text => titleRefusal? text
  | "__qualname__", .str _ => none
  | "__name__", v | "__qualname__", v => some (.needsText s.title name v.kindName)
  | "__bases__", v => some (.needsSequence s.title name v.kindName)
  | "__class__", v => some (.needsClass v.kindName)
  | "__dict__", _ | "__text_signature__", _ => some (.fixed name)
  | "__base__", _ | "__basicsize__", _ | "__dictoffset__", _ | "__flags__", _ | "__itemsize__", _
  | "__mro__", _ | "__weakrefoffset__", _ => some .readOnly
  | _, _ => none

def set (s : Settings) (name : String) (value : Json) : Except SettingsFault Settings :=
  match s.refusal? name value with
  | some fault => .error fault
  | none => .ok { s with attributes := setEntry name value s.attributes }

/-- Gives names their values one after another; names that the table does not know are left out. -/
def setAll (s : Settings) : List (Text.WideText × Json) → Settings × Option SettingsFault
  | [] => (s, none)
  | (key, value) :: rest =>
    match key.string?.filter s.knows with
    | some name =>
      match s.set name value with
      | .ok s => s.setAll rest
      | .error fault => (s, some fault)
    | none => s.setAll rest

/-- The settings that are kept: all values except those whose names start with two underscores. -/
def kept (s : Settings) : List (String × Json) :=
  s.attributes.filterMap fun (name, entry) =>
    match entry with
    | .value json => if "__".toList.isPrefixOf name.toList then none else some (name, json)
    | .operation => none

/-- An operation of the table fails if a value has taken its place. -/
def guardOperation (s : Settings) (name : String) : Except SettingsFault Unit :=
  match s.get? name with
  | some json => .error (.notCallable json.kindName)
  | none => .ok ()

/-- The kept settings, as the table's own operation gives them. Each value is written on one line to see that
it can be. -/
def collect (s : Settings) : Except SettingsFault (List (String × Json)) := do
  s.guardOperation "_get_serializable_attrs"
  if s.kept.all fun entry => s.host.writesLine entry.2 then return s.kept
  else throw (.tooDeep "maximum recursion depth exceeded while encoding a JSON object")

def asTable (s : Settings) : Except SettingsFault (List (String × Json)) := do
  s.guardOperation "as_dict"
  s.collect

def toStore (s : Settings) : Except SettingsFault (List (String × Json)) := do
  s.guardOperation "store_to_file"
  s.collect

def keyOf (name : String) : Text.WideText :=
  .ofChars name.toList

/-- Writes a value to a file with one item to a line, as far as the host gets. -/
def writeOut (host : Host) (files : Files) (path : String) (json : Json) : Files × Option SettingsFault :=
  match host.cut? json with
  | none =>
    let (files, fault) := files.writePieces path json.pieces
    (files, fault.map .file)
  | some cut =>
    let (files, fault) := files.writePieces path (json.pieces.take cut.pieces)
    (files, some ((fault.map .file).getD (.tooDeep cut.message)))

/-- Stores the settings in a file, whose directory is made if it is missing. Gives the files even if it
fails, because a part of the file may be written then. -/
def store (s : Settings) (files : Files) (path : String) : Files × Option SettingsFault :=
  match s.toStore with
  | .error fault => (files, some fault)
  | .ok entries =>
    let files := files.makeDirectories (Place.named path).tail
    writeOut s.host files path (.obj (entries.map fun entry => (keyOf entry.1, entry.2)))

def defaultPath : String := "settings.json"

/-- What loading the settings did: the settings, the files, what was printed, and how it failed. -/
structure Loaded where
  settings : Settings
  files : Files
  printed : String := ""
  fault : Option SettingsFault := none

def restore (s : Settings) (files : Files) (path message : String) : Loaded :=
  let (files, fault) := s.store files path
  { settings := s, files := files, printed := message, fault := fault }

/-- Loads the settings from a file. A missing file, or one that cannot be read as JSON, is written
anew. -/
def load (s : Settings) (files : Files) (path : String) : Loaded :=
  match s.guardOperation "load_from_file" with
  | .error fault => { settings := s, files := files, fault := some fault }
  | .ok () =>
    let unreadable := "Failed to read " ++ path ++ ", recreating with defaults...\n"
    match files.readText path with
    | .error (.isDirectory _) => s.restore files path unreadable
    | .error (.notText fault) =>
      { settings := s, files := files, fault := some (.file (.notText fault)) }
    | .error _ => s.restore files path (path ++ " not found, creating it with defaults...\n")
    | .ok text =>
      match Json.read s.host.depthLimit text with
      | .error .notJson => s.restore files path unreadable
      | .error (.limit cause) => { settings := s, files := files, fault := some (.limit cause) }
      | .ok (.obj entries) =>
        let (settings, fault) := s.setAll entries
        { settings := settings, files := files, fault := fault }
      | .ok json => { settings := s, files := files, fault := some (.notATable json.kindName) }

end Settings

end PointerScript
