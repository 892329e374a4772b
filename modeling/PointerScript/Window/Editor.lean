import PointerScript.Session.RecordingRun
import PointerScript.Session.ScriptRun
import PointerScript.Tool.Resource
import PointerScript.Window.SettingsDialog
import PointerScript.Window.Terminal

/-! The editor: its script and the file of it, the terminal, and the program that runs beside it.

A program beside the editor leaves its messages in a queue, from which they are forwarded to the
terminal while the editor listens. Recorded scripts come through a queue of their own. Both are taken
up when the editor polls the program. -/

namespace PointerScript

inductive Job where
  | script (request : ScriptRequest)
  | recording
  deriving DecidableEq

structure Child where
  job : Job
  alive : Bool := true
  deriving DecidableEq

structure Notification where
  title : String
  message : String
  application : String
  seconds : Nat
  deriving DecidableEq

inductive EditorEvent where
  | device (event : Event)
  | question (title : String)
  | notification (note : Notification)
  | settings (sign : SettingsSign)

inductive EditorFault where
  | file (fault : FileFault)
  | settings (fault : SettingsFault)
  | invalidKey (shown : String)
  | noChild
  | unknownEntry (name : String)
  deriving DecidableEq

namespace EditorFault

def message : EditorFault → String
  | file fault => fault.message
  | settings fault => fault.message
  | invalidKey shown => shown ++ " is not a valid Qt.Key"
  | noChild => "'NoneType' object has no attribute 'target'"
  | unknownEntry name => Text.quoted name

end EditorFault

/-- The editor. `held` counts the pieces of text that the terminal holds, `inserted` are all pieces
that were ever inserted into it. -/
structure Editor where
  text : Text.WideText := []
  modified : Bool := false
  file : Option String := none
  buttonsEnabled : Bool := true
  monitoring : Bool := false
  safe : Bool := false
  coordinates : String := "X:0, Y:0"
  font : Json := .null
  child : Option Child := none
  listening : Bool := false
  queued : Log := #[]
  recordings : List String := []
  held : Nat := 0
  inserted : Array Inked := #[]
  insertionsFail : Bool := false
  settings : Settings := .initial
  files : Files := []
  examples : Option Files := none
  device : Device := {}
  log : Log := #[]
  events : Array EditorEvent := #[]

namespace Editor

def title : String := "Mouse Emulator - Script Editor"

def debugging (e : Editor) : Bool :=
  (e.settings.value "print_debug_msg").truthy

def insert (e : Editor) (inked : Inked) : Editor :=
  if e.insertionsFail then e
  else { e with inserted := e.inserted.push inked, held := e.held + 1 }

def display (e : Editor) (r : LogRecord) : Editor :=
  match Terminal.show? e.debugging r.level r.text with
  | some inked => e.insert inked
  | none => e

/-- Leaves a message. Those of the recorder are not shown in the terminal. -/
def note (e : Editor) (r : LogRecord) : Editor :=
  let e := { e with log := e.log.push r }
  if r.mainSource = "Recorder" then e else e.display r

def say (e : Editor) (level : Level) (message : String) : Editor :=
  e.note ⟨"Editor", level, message⟩

/-- Leaves a message about a fault. In the terminal the details of the fault would follow on the
next lines; they are left out, and so is the end of the line. -/
def sayFault (e : Editor) (message : String) : Editor :=
  let r : LogRecord := ⟨"Editor", .error, message⟩
  { e with log := e.log.push r }.insert ⟨r.text, Terminal.colourOf r.level⟩

def setText (e : Editor) (text : Text.WideText) : Editor :=
  { e with text := text, modified := true }

/-- Asks whether changes may be discarded, if there are any; `consent` is the answer. -/
def confirmDiscard (e : Editor) (consent : Bool) : Editor × Bool :=
  if e.modified then ({ e with events := e.events.push (.question "Unsaved Changes") }, consent)
  else (e, true)

def newFile (e : Editor) (consent : Bool) : Editor :=
  match e.confirmDiscard consent with
  | (e, false) => e
  | (e, true) =>
    { e.setText [] with modified := false, file := none }.say .info "Created new empty script"

/-- Opens the chosen file; no choice leaves the script as it is. -/
def openFile (e : Editor) (consent : Bool) (choice : Option String) : Editor × Option EditorFault :=
  match e.confirmDiscard consent with
  | (e, false) => (e, none)
  | (e, true) =>
    let report (e : Editor) : Editor × Option EditorFault :=
      (e.say .info ("Opened file: " ++ e.file.getD "New file"), none)
    match choice with
    | none => report e
    | some path =>
      match e.files.readText path with
      | .ok text => report { e.setText (.ofChars text.toList) with modified := false, file := some path }
      | .error fault => (e, some (.file fault))

/-- Writes the script to a file, which becomes the file of the script even if it cannot be
written. -/
def saveTo (e : Editor) (path : String) : Editor × Option EditorFault :=
  let e := { e with file := some path }
  match e.files.writePieces path [e.text] with
  | (files, none) => ({ e with files := files, modified := false }.say .info ("Saved file: " ++ path), none)
  | (files, some fault) => ({ e with files := files }, some (.file fault))

/-- Saves the script in its file, or in the chosen one if it has none. -/
def saveFile (e : Editor) (choice : Option String) : Editor × Option EditorFault :=
  match e.file <|> choice with
  | some path => e.saveTo path
  | none => (e, none)

def saveFileAs (e : Editor) (choice : Option String) : Editor × Option EditorFault :=
  match choice with
  | some path => e.saveTo path
  | none => (e, none)

def examplePath (name : String) : String :=
  (ResourcePath.resolve none ("example_programs/" ++ name)).text

/-- Loads an example. A failure is only reported. -/
def loadExample (e : Editor) (examples : Files) (name : String) (consent : Bool) : Editor :=
  match e.confirmDiscard consent with
  | (e, false) => e
  | (e, true) =>
    match examples.readText name with
    | .ok text =>
      { e.setText (.ofChars text.toList) with modified := false, file := none }.say .info ("Loaded example: " ++ name)
    | .error _ => e.sayFault ("Failed to load example " ++ examplePath name)

/-- The names of the examples in alphabetical order, whatever their case. -/
def exampleNames (examples : Files) : List String :=
  (examples.map (·.1)).mergeSort fun a b => Text.lower a ≤ Text.lower b

def exampleEntries (e : Editor) : List (String × Bool) :=
  match e.examples with
  | none => [("No examples directory", false)]
  | some [] => [("No examples found", false)]
  | some examples => (exampleNames examples).map fun name => (name, true)

def menus (e : Editor) : List (String × List (String × Bool)) :=
  [("&File", ["New", "Open", "Save", "Save as"].map fun name => (name, true)),
    ("Preferences", [("Settings...", true)]), ("Examples", e.exampleEntries)]

def editSettings (e : Editor) (acts : List SettingsAct) : Editor × Option EditorFault :=
  let e := e.say .debug "Opened settings dialog"
  let (session, _) := e.settings.edit e.files acts
  let e := { e with
    settings := session.settings
    files := session.files
    events := e.events ++ session.signs.map .settings
    font := if session.applied then session.settings.value "text_size" else e.font }
  let e := session.log.foldl note e
  match session.fault with
  | some fault => (e, some (.settings fault))
  | none => (e.say .debug "Closed settings", none)

/-- The answers of the user to what a menu entry may ask: whether changes may be discarded, which
files to open and to save to, and what is done in the dialog for the settings. -/
structure Answers where
  consent : Bool := false
  opened : Option String := none
  saved : Option String := none
  acts : List SettingsAct := []

def choose (e : Editor) (name : String) (answers : Answers) : Editor × Option EditorFault :=
  if (e.examples.getD []).any (·.1 = name) then
    (e.loadExample (e.examples.getD []) name answers.consent, none)
  else
    match name with
    | "New" => (e.newFile answers.consent, none)
    | "Open" => e.openFile answers.consent answers.opened
    | "Save" => e.saveFile answers.saved
    | "Save as" => e.saveFileAs answers.saved
    | "Settings..." => e.editSettings answers.acts
    | name => if e.exampleEntries.any (·.1 = name) then (e, none) else (e, some (.unknownEntry name))

/-- The pause key of the settings, if it is a key at all. -/
def pauseKey? (e : Editor) : Option Int :=
  match e.settings.value "pause_resume_key" with
  | .num n => e.settings.host.key? n
  | .bool b => e.settings.host.key? (.int (if b then 1 else 0))
  | _ => none

/-- Starts a program; until it has ended no other one can be started. -/
def launch (e : Editor) (job : Job) : Editor :=
  { e with child := some { job := job }, buttonsEnabled := false, monitoring := true }

def clickRun (e : Editor) : Editor × Option EditorFault :=
  if !e.buttonsEnabled then (e, none)
  else
    let clears := (e.settings.value "clear_terminal_on_run").truthy
    let e := if clears then { e with held := 0 } else e
    let e := { e.note ⟨"Runtime", .info, "Running script..."⟩ with listening := true }
    match e.pauseKey? with
    | none => (e, some (.invalidKey (e.settings.value "pause_resume_key").shown))
    | some key =>
      let request : ScriptRequest :=
        { source := e.text.toText, safe := e.safe, pauseKey := key,
          notify := (e.settings.value "notify_when_program_ends").truthy }
      (e.launch (.script request), none)

def clickRecord (e : Editor) : Editor :=
  if !e.buttonsEnabled then e
  else
    { e.say .info "Starting recording session" with listening := true, recordings := [] }.launch
      .recording

structure ChildInputs where
  budget : Nat := 2000
  actions : List Action := []
  user : List Act := []
  answersEscape : Bool := false
  inputs : List TimedInput := []
  start : Binary64 := .zero false
  moment : Moment := {}

def carryOut (device : Device) (job : Job) (inputs : ChildInputs) : Session :=
  match job with
  | .script request =>
    { request with answersEscape := inputs.answersEscape }.run device inputs.budget inputs.actions inputs.user
  | .recording => recordSession inputs.moment device inputs.start inputs.inputs .ready

def runChild (e : Editor) (inputs : ChildInputs) : Editor × Except EditorFault Session :=
  match e.child with
  | none => (e, .error .noChild)
  | some child =>
    let session := carryOut e.device child.job inputs
    let fresh := session.device.events.extract e.device.events.size session.device.events.size
    ({ e with
        child := some { child with alive := false }
        device := session.device
        events := e.events ++ fresh.map .device
        queued := e.queued ++ session.log
        recordings := e.recordings ++ session.sent.toList },
      .ok session)

def forward (e : Editor) : Editor :=
  { e.queued.foldl display e with queued := #[] }

def drain (e : Editor) : Editor :=
  if e.listening then e.forward else e

/-- Puts a recorded script at the end of the script. -/
def insertRecording (e : Editor) (source : String) : Editor :=
  if e.insertionsFail then e.sayFault "Failed to insert recorded source into editor"
  else (e.setText (e.text ++ .ofChars ("\n" ++ source ++ "\n").toList)).say .info "Inserted recorded source into editor."

def takeRecordings (e : Editor) : Editor :=
  e.recordings.foldl insertRecording { e with recordings := [] }

/-- Stops listening; what is queued is forwarded first. -/
def stopListening (e : Editor) : Editor :=
  if e.listening then { e.forward with listening := false }
  else e.sayFault "Failed to stop queue listener"

/-- Looks after the program beside the editor: recorded scripts are taken up, and once the program has
ended another one can be started. -/
def poll (e : Editor) : Editor :=
  let e := e.takeRecordings
  if e.child.any (·.alive) then e
  else
    { (e.say .debug "Child process has exited; cleaning up.").stopListening with
      child := none, buttonsEnabled := true, monitoring := false }

def movePointer (e : Editor) (p : Point) : Editor :=
  { e with
    device := { e.device with pos := p }
    coordinates := "X:" ++ toString p.x ++ "  Y:" ++ toString p.y }

def sources : List String := ["Compiler", "Runtime", "Decompiler", "Editor", "Recorder"]

/-- Takes a message from one of the known sources or a part of one, unless it matters less than debugging
messages. -/
def hear (e : Editor) (r : LogRecord) : Editor :=
  if sources.contains r.mainSource && Level.debug.number ≤ r.level.number then e.note r else e

def endNotification : Notification where
  title := "Script Finished"
  message := "Script execution terminated successfully."
  application := "Mouse Emulator"
  seconds := 20

def notifySystem (e : Editor) : Editor :=
  { e with events := e.events.push (.notification endNotification) }

/-- Opens the editor: the settings are loaded first. Gives what was printed, too. -/
def start (host : Host) (files : Files) (examples : Option Files) (device : Device) :
    String × Except EditorFault Editor × Files :=
  let loaded := (Settings.startingOn host).load files Settings.defaultPath
  match loaded.fault with
  | some fault => (loaded.printed, .error (.settings fault), loaded.files)
  | none =>
    let e : Editor :=
      { settings := loaded.settings, files := loaded.files, examples := examples, device := device,
        font := loaded.settings.value "text_size" }
    (loaded.printed, .ok (e.say .info "Editor started"), loaded.files)

end Editor

end PointerScript
