import PointerScript.Key
import PointerScript.Log
import PointerScript.Script.Instruction

/-! Recording what the user does with the mouse. -/

namespace PointerScript

/-- The buttons of a mouse. Other buttons are not recorded. -/
inductive MouseButton where
  | left
  | right
  | middle
  | other
  deriving DecidableEq

def MouseButton.ofName : String → MouseButton
  | "left" => left
  | "right" => right
  | "middle" => middle
  | _ => other

inductive UserInput where
  | mouse (x y : Number) (button : MouseButton) (pressed : Bool)
  | key (key : Key)
  | stopButton
  deriving DecidableEq

/-- Something the user does, and when; without a time the clock stands still. -/
structure TimedInput where
  time : Option Binary64 := none
  input : UserInput
  deriving DecidableEq

/-- A recording: the instructions so far, when the last one was recorded, and whether it goes on. -/
structure Recording where
  instructions : Array Instruction := #[]
  lastTime : Binary64 := .zero false
  active : Bool := false
  log : Log := #[]

namespace Recording

/-- Pauses longer than this many seconds are recorded. -/
def leastWait : Number := .float (Decimal.nearest false ⟨1, -1⟩)

/-- A left press less than this many seconds after the press before makes a double click. -/
def doubleClickGap : Number := .float (Decimal.nearest false ⟨25, -2⟩)

def say (r : Recording) (level : Level) (message : String) : Recording :=
  { r with log := r.log.push ⟨"Recorder", level, message⟩ }

def add (r : Recording) (instructions : List Instruction) : Recording :=
  { r with instructions := r.instructions ++ instructions.toArray }

/-- Notes the time of a press, recording the wait before it if it was long enough. Gives the time
since the press before. -/
def noteTime (r : Recording) (now : Binary64) : Recording × Number :=
  let gap := now.sub r.lastTime
  let r := { r with lastTime := now }
  if leastWait.lt (.float gap) then
    (r.add [.wait (.literal (.float (gap.roundPlaces 2)))], .float gap)
  else (r, .float gap)

def dropLast? (r : Recording) : Option Recording :=
  if r.instructions.isEmpty then none else some { r with instructions := r.instructions.pop }

/-- Turns the click before into a double click: the wait and the click are taken away. The flag says
that there was nothing to take away. -/
def doubleClick (r : Recording) (place : String) : Recording × Bool :=
  match r.dropLast? with
  | none => (r, true)
  | some r =>
    match r.dropLast? with
    | none => (r, true)
    | some r => ((r.add [.doubleClick]).say .info ("Recorded double left click at " ++ place), false)

def placeText (x y : Number) : String :=
  "(" ++ x.text ++ ", " ++ y.text ++ ")"

def moveTo (x y : Number) : Instruction :=
  .move (.literal x) (.operand (.literal y)) (.float (.zero false))

/-- Records a button. The flag says that an instruction was to be taken away and none was there. -/
def onClick (r : Recording) (now : Binary64) (x y : Number) (button : MouseButton) (pressed : Bool) :
    Recording × Bool :=
  if !r.active || !pressed then (r, false)
  else
    let (r, gap) := r.noteTime now
    let place := placeText x y
    match button with
    | .left =>
      if gap.lt doubleClickGap then r.doubleClick place
      else
        ((r.add [moveTo x y, .leftClick]).say .info ("Recorded left click at " ++ place), false)
    | .right =>
      ((r.add [moveTo x y, .rightClick]).say .info ("Recorded right click at " ++ place), false)
    | .middle => ((r.add [moveTo x y]).say .info ("Recorded mouse move to " ++ place), false)
    | .other => (r, false)

/-- Hears a key. Enter ends the recording; the flag says so. -/
def onKey (r : Recording) (key : Key) : Recording × Bool :=
  if key = .special .enter then
    ({ (r.say .debug "Recording stopped.") with active := false }, true)
  else (r, false)

def start (r : Recording) (now : Binary64) : Recording :=
  { (r.say .info "Recording... (press ENTER to stop)") with active := true, lastTime := now }

def complete (r : Recording) : Recording :=
  r.say .info
    ("Recording complete. " ++ toString r.instructions.size ++ " instructions captured.")

/-- Plays what the user does until a key ends the recording, nothing is left, or it fails. Gives the
inputs that are left and whether it failed. Only the buttons of the mouse and the keys count. -/
def play (now : Binary64) (r : Recording) : List TimedInput → Recording × List TimedInput × Bool
  | [] => (r, [], false)
  | timed :: rest =>
    let now := timed.time.getD now
    match timed.input with
    | .mouse x y button pressed =>
      match r.onClick now x y button pressed with
      | (r, true) => (r, rest, true)
      | (r, false) => play now r rest
    | .key key =>
      match r.onKey key with
      | (r, true) => (r, rest, false)
      | (r, false) => play now r rest
    | .stopButton => play now r rest

def record (now : Binary64) (inputs : List TimedInput) : Recording × List TimedInput × Bool :=
  match play now ({ lastTime := now : Recording }.start now) inputs with
  | (r, rest, true) => (r, rest, true)
  | (r, rest, false) => (r.complete, rest, false)

end Recording

end PointerScript
