import PointerScript.Window.Editor

/-! The ways to start the program, and what is left when it has ended. -/

namespace PointerScript

inductive ApplicationFault where
  | editor (fault : EditorFault)
  | session (fault : SessionFault)
  deriving DecidableEq

namespace ApplicationFault

def message : ApplicationFault → String
  | editor fault => fault.message
  | session fault => fault.message

def file (fault : FileFault) : ApplicationFault := editor (.file fault)

end ApplicationFault

/-- How a start ended: by itself, by leaving with a code or without one, or by a fault. -/
inductive ApplicationEnd where
  | returned
  | left (code : Option Int)
  | failed (fault : ApplicationFault)
  deriving DecidableEq

/-- What is left of a start: how it ended, what was printed, what happened, the messages, the program
that ran beside it, the files, the windows with the sizes of their text, and the size of text of the
whole application. -/
structure Report where
  ending : ApplicationEnd := .returned
  printed : String := ""
  events : List EditorEvent := []
  log : Log := #[]
  child : Option Session := none
  files : Files := []
  windows : List (String × Json) := []
  fontSize : Int := 0

namespace Application

def fontSize : Int := 10

/-- Sets the size of text of the whole application, which is then as asked for. -/
def setFontSize (_ size : Int) : Int := size

def lines (l : List String) : String :=
  l.foldl (fun text line => text ++ line ++ "\n") ""

def openEditor (files : Files) (examples : Option Files) (device : Device) : Report :=
  match Editor.start .plain files examples device with
  | (printed, .error fault, files) =>
    { ending := .failed (.editor fault), printed := printed, files := files }
  | (printed, .ok e, files) =>
    { ending := .left (some 0), printed := printed, files := files, log := e.log,
      events := e.events.toList, windows := [(Editor.title, e.font)],
      fontSize := setFontSize 0 fontSize }

/-- Compiles a file with a compiler that knows no commands. -/
def compileFile (files : Files) (path : String) : Report :=
  match files.readText path with
  | .error fault => { ending := .failed (.file fault), files := files }
  | .ok source =>
    let (compiler, compiled) := ({} : Compiler).compile source
    let report : Report := { files := files, log := compiler.log }
    match compiled with
    | .program program =>
      if program.isEmpty then
        { report with ending := .left none, printed := lines ["compilation failed"] }
      else { report with printed := lines (program.toList.map fun i => i.text 0) }
    | _ => { report with ending := .left none, printed := lines ["compilation failed"] }

def recordAndPrint (start : Binary64) (inputs : List TimedInput) : Report :=
  match Recording.record start inputs with
  | (r, _, true) => { ending := .failed (.session .nothingToTakeBack), log := r.log }
  | (r, _, false) =>
    let shown := ", ".intercalate (r.instructions.toList.map fun i => i.text 0)
    { log := r.log, printed := lines ["[" ++ shown ++ "]"] }

/-- The first and the last line around a program that runs beside this one. -/
def beside (middle : List String) : String :=
  lines (["Press ESC or click Stop in the popup to terminate the running process."] ++ middle ++
    ["Listener stopped. Exiting."])

def eventsOf (device : Device) : List EditorEvent :=
  device.events.toList.map .device

def recordBeside (device : Device) (inputs : Editor.ChildInputs) : Report :=
  let session := recordSession inputs.moment device inputs.start inputs.inputs .absent
  { child := some session, events := eventsOf session.device,
    printed := beside (session.log.toList.map fun r => "PROCESS: " ++ r.message) }

/-- Runs a recorded script beside this program, with the space key to pause it. -/
def runBeside (files : Files) (path : String) (device : Device) (inputs : Editor.ChildInputs) : Report :=
  match files.readText path with
  | .error fault => { ending := .failed (.file fault), files := files }
  | .ok source =>
    let request : ScriptRequest := { source := source, notify := true }
    let session := request.run device inputs.budget inputs.actions inputs.user
    { child := some session, events := eventsOf session.device, log := session.log, files := files,
      printed := beside session.echoes }

def listAllowedKeys : Report :=
  { printed := lines ["\x7b" ++ ", ".intercalate KeyCode.allowedTexts ++ "\x7d"] }

def editSettings (files : Files) (acts : List SettingsAct) : Report :=
  let (session, printed) := Settings.initial.edit files acts
  let report : Report :=
    { printed := printed, files := session.files, log := session.log,
      events := session.signs.toList.map .settings }
  match session.fault with
  | some fault => { report with ending := .failed (.editor (.settings fault)) }
  | none => report

end Application

end PointerScript
