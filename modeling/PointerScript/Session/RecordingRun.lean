import PointerScript.Recording
import PointerScript.Script.Listing
import PointerScript.Session.Dialog

/-! Recording beside the editor, with a dialog to stop it. -/

namespace PointerScript

/-- Where a recorded script is sent: nowhere, to the editor, or to a place that refuses it. -/
inductive Outlet where
  | absent
  | ready
  | refusing
  deriving DecidableEq

namespace RecordingRun

def title : String := "Recorder"

def recordingLabel : String :=
  "Recording mouse actions, press ENTER to finish recording.\n" ++
    "press ESC to cancel (recording will be lost)"

/-- The dialog; it has no pause button. -/
def dialog (label : String) (finished : Bool) : Dialog where
  title := title
  result := if finished then 1 else 0
  isOpen := !finished
  content := .control label false false false "Stop Recording"

structure Progress where
  recording : Recording
  device : Device

/-- How the playing of the user's inputs went: the recording is over, or the program ends. -/
inductive Stop where
  | finished
  | ended (ending : SessionEnd)
  deriving DecidableEq

def Progress.say (p : Progress) (level : Level) (message : String) : Progress :=
  { p with recording := { p.recording with log := p.recording.log.push ⟨"Editor", level, message⟩ } }

/-- Escape leaves the program, after a warning and a moment for it to be seen. -/
def Progress.quit (p : Progress) : Progress × Stop :=
  let p := p.say .warning "ESC pressed — terminating."
  match p.device.sleepTenths 2 with
  | (device, none) => ({ p with device := device }, .ended .aborted)
  | (device, some fault) => ({ p with device := device }, .ended (.failed (.script (.device fault))))

def Progress.hearKey (p : Progress) (key : Key) : Progress × Option Stop :=
  if key = .special .escape then
    let (p, stop) := p.quit
    (p, some stop)
  else
    let (r, done) := p.recording.onKey key
    ({ p with recording := r }, if done then some .finished else none)

/-- Takes one input. The stop button of the dialog types enter. -/
def Progress.take (p : Progress) (now : Binary64) : UserInput → Progress × Option Stop
  | .mouse x y button pressed =>
    let (r, failed) := p.recording.onClick now x y button pressed
    ({ p with recording := r }, if failed then some (.ended (.failed .nothingToTakeBack)) else none)
  | .key key => p.hearKey key
  | .stopButton =>
    match p.device.press "enter" with
    | (device, none) => { p with device := device }.hearKey (.special .enter)
    | (device, some fault) =>
      ({ p with device := device }, some (.ended (.failed (.script (.device fault)))))

def Progress.play (p : Progress) (now : Binary64) : List TimedInput → Progress × Stop
  | [] => (p, .finished)
  | timed :: rest =>
    let now := timed.time.getD now
    match p.take now timed.input with
    | (p, some stop) => (p, stop)
    | (p, none) => p.play now rest

/-- What is left of a program that ended while its dialog was open. -/
def Progress.leftOpen (p : Progress) (ending : SessionEnd) : Session where
  ending := ending
  dialogs := [dialog recordingLabel false]
  device := p.device
  log := p.recording.log

def Progress.closed (p : Progress) (sent : Option String) : Session where
  ending := .returned
  dialogs := [dialog "Finished." true]
  device := p.device
  log := p.recording.log
  sent := sent

/-- Sends the script of a recording. An empty recording is not sent. -/
def Progress.deliver (p : Progress) (moment : Moment) (outlet : Outlet) : Session :=
  let instructions := p.recording.instructions.toList
  if instructions.isEmpty then p.closed none
  else
    match Listing.source (Listing.readerOf {}) moment instructions with
    | (.error fault, _) => p.leftOpen (.failed (.script fault))
    | (.ok source, log) =>
      let p := { p with recording := { p.recording with log := p.recording.log ++ log } }
      match outlet with
      | .absent => p.closed none
      | .ready => p.closed (some source)
      | .refusing => (p.say .error "Failed to put src into result_queue").closed none

end RecordingRun

def recordSession (moment : Moment) (device : Device) (start : Binary64) (inputs : List TimedInput)
    (outlet : Outlet) : Session :=
  let begun : RecordingRun.Progress :=
    { recording := { lastTime := start : Recording }.start start, device := device }
  match begun.play start inputs with
  | (p, .ended ending) => p.leftOpen ending
  | (p, .finished) => { p with recording := p.recording.complete }.deliver moment outlet

end PointerScript
