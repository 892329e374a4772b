import PointerScript.Machine.Run
import PointerScript.Script.Compiler
import PointerScript.Session.Dialog
import PointerScript.Tool.KeyCode

/-! Running a script beside the editor, with a dialog to pause, resume and stop it. -/

namespace PointerScript

/-- What is to be run and how. Nobody asks for `answersEscape`: it is how the listeners of the panel come to
hear the keys. -/
structure ScriptRequest where
  source : String
  safe : Bool := false
  pauseKey : Int := KeyCode.space
  notify : Bool := false
  answersEscape : Bool := false
  deriving DecidableEq

namespace ScriptRun

def title : String := "Script runner"

def runningLabel (pauseKey : Int) : String :=
  "\nRunnig script, press ESC to terminate.\nPress KEY" ++ toString pauseKey ++
    " to pause/resume execution.\n"

def failedLabel : String := "Script compilation failed. Check terminal for error messages."

def finishedLabel : String := "Finished."

def controlOf (label stopText : String) (p : Panel) : DialogContent :=
  .control label p.paused p.pauseVisible p.playVisible stopText

/-- The dialogs of a run: its own, and the boxes that were opened from it. -/
def dialogsOf (m : Machine) (own : Panel → Dialog) : List Dialog :=
  match m.panel with
  | none => []
  | some p =>
    own p :: p.boxes.toList.map fun entry => { title := entry.2, content := .box entry.1 }

def leftOpen (m : Machine) (label stopText : String) (ending : SessionEnd) : Session where
  ending := ending
  dialogs := dialogsOf m fun p => { title := title, content := controlOf label stopText p }
  device := m.device
  log := m.log
  echoes := (m.panel.map fun p => p.echoes.toList).getD []

def endNotice : Dialog := { title := "Information" }

/-- What is left of a run that came to its end: the dialog has closed itself, and the user has been
told if that was asked for. -/
def closed (m : Machine) (notify : Bool) : Session where
  ending := .finished
  dialogs :=
    (dialogsOf m fun p =>
      { title := title, result := 1, isOpen := false, content := controlOf finishedLabel "Stop" p }) ++
      if notify then [endNotice] else []
  device := if notify then m.device.note .beep else m.device
  log := m.log
  echoes := (m.panel.map fun p => p.echoes.toList).getD []

/-- Acts of the user on the open dialog, as long as none of them leaves the program. -/
def playActs (m : Machine) : List Act → Machine × Reaction
  | [] => (m, .goOn)
  | act :: rest =>
    match m.act act with
    | (m, .goOn) => playActs m rest
    | (m, reaction) => (m, reaction)

def endOf : Reaction → SessionEnd
  | .goOn => .finished
  | .exit => .aborted
  | .fault fault => .failed (.script fault)

/-- A script that could not be compiled: the dialog says so and stays open for the user. -/
def refused (m : Machine) (user : List Act) : Session :=
  let m := { m with
    log := m.log.push ⟨"Editor", .error, "Compilation failed."⟩
    panel := m.panel.map fun p => { p with pauseVisible := false } }
  let (m, reaction) := playActs m user
  leftOpen m failedLabel "Close" (endOf reaction)

/-- The end of a run whose script has been carried out: a moment later the dialog closes. -/
def settle (m : Machine) (label : String) (notify : Bool) : Session :=
  match m.device.sleepTenths 5 with
  | (device, none) => closed { m with device := device } notify
  | (device, some fault) =>
    leftOpen { m with device := device } label "Stop" (.failed (.script (.device fault)))

def machineFor (request : ScriptRequest) (device : Device) (log : Log) : Machine where
  device := device
  log := log
  panel := some { pauseKey := KeyCode.toKey? request.pauseKey, answersEscape := request.answersEscape }
  onPause := .panel

end ScriptRun

/-- Runs a script: `actions` are what the user does while it runs, `user` what the user does with the
dialog of a script that could not be compiled. -/
def ScriptRequest.run (request : ScriptRequest) (device : Device) (budget : Nat)
    (actions : List Action) (user : List Act) : Session :=
  let (compiled, log) := compile request.safe request.source
  let m := ScriptRun.machineFor request device log
  let label := ScriptRun.runningLabel request.pauseKey
  match compiled with
  | .program program =>
    let (r, outcome) := (m.load program).execute budget actions
    let left := ScriptRun.leftOpen r.machine label "Stop"
    match outcome with
    | .returned => ScriptRun.settle r.machine label request.notify
    | .budget => left .budget
    | .paused => left .paused
    | .exited => left .aborted
    | .outOfRange => left (.failed .outOfRange)
    | .raised fault => left (.failed (.script fault))
  | _ => ScriptRun.refused m user

end PointerScript
