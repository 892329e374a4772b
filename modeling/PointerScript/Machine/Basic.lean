import PointerScript.Key
import PointerScript.Log
import PointerScript.Machine.Memory
import PointerScript.Script.Instruction

/-! The machine that runs scripts, and how it is paused and resumed. -/

namespace PointerScript

inductive Fault where
  | memory (fault : MemoryFault)
  | device (fault : DeviceFault)
  | arithmetic (fault : ArithmeticFault)
  | undefinedVariable (name : String)
  | noVariables
  | notAnOperand (value : Number)
  | tooDeep
  | popupRefused
  | unknownOperation (code : String)
  deriving DecidableEq

namespace Fault

def message : Fault → String
  | memory fault => fault.message
  | device fault => fault.message
  | arithmetic fault => fault.message
  | undefinedVariable name => "Undefined variable '" ++ name ++ "'"
  | noVariables => "'ValueRef' object has no attribute 'SHARED_DICT'"
  | notAnOperand (.int _) => "'int' object is not callable"
  | notAnOperand (.float _) => "'float' object is not callable"
  | tooDeep => "Maximum recursion depth reached."
  | popupRefused => "popup refused"
  | unknownOperation code => "Unknown var math opcode " ++ code

end Fault

/-- The control panel of a running script: the pause and play buttons, of which one should be
visible, and the key that works like them. Two listeners hear the keys, one for escape and one for the
pause key, and nothing orders them: `answersEscape` says whether the second still answers escape before
the first leaves the program. -/
structure Panel where
  pauseKey : Option Key := none
  answersEscape : Bool := false
  paused : Bool := false
  pauseVisible : Bool := true
  playVisible : Bool := false
  echoes : Array String := #[]
  boxes : Array (String × String) := #[]

namespace Panel

def toggle (p : Panel) : Panel :=
  if p.paused then { p with playVisible := false, pauseVisible := true, paused := false }
  else { p with pauseVisible := false, playVisible := true, paused := true }

def echo (p : Panel) (key : Key) : Panel :=
  let shown := match p.pauseKey with
    | some pauseKey => pauseKey.text
    | none => "None"
  { p with echoes := p.echoes.push (key.text ++ " " ++ shown) }

end Panel

/-- What else happens when execution is paused: nothing, an event, resuming at once, or the pause
button of the panel being pressed if it is visible. -/
inductive PauseHook where
  | nothing
  | note
  | resume
  | panel
  deriving DecidableEq

/-- A machine. `visits` counts the jumps of the program, index by index. `past` is the memory that
operands are looked up in while the present run has none. `gate` is open while execution may go on;
there is no gate before the first run. -/
structure Machine where
  program : Array Instruction := #[]
  visits : Array Nat := #[]
  pc : Int := 0
  running : Bool := false
  store : Store := .absent
  past : Option Memory := none
  gate : Option Bool := none
  onPause : PauseHook := .nothing
  noteResume : Bool := false
  device : Device := {}
  panel : Option Panel := none
  log : Log := #[]

namespace Machine

def say (m : Machine) (level : Level) (message : String) : Machine :=
  { m with log := m.log.push ⟨"Runtime", level, message⟩ }

/-- What is said when there is no program to load or to list. -/
def noProgram : String := "'NoneType' object is not iterable"

/-- Loads a program as it comes from the compiler: none of its jumps has been counted yet. A program that
has run before keeps its counts, and so is not loaded anew but started again. -/
def load (m : Machine) (program : Array Instruction) : Machine :=
  { m with program := program, visits := Array.replicate program.size 0 }

def programTexts (m : Machine) : List String :=
  m.program.toList.zipIdx.map fun entry => entry.1.text (m.visits.getD entry.2 0)

/-- Whether execution is held at the gate. -/
def isPaused (m : Machine) : Bool :=
  m.gate == some false

def resume (m : Machine) : Machine :=
  if m.gate = some false then
    let opened := { m with gate := some true }
    let noted :=
      if opened.noteResume then { opened with device := opened.device.note .resumed } else opened
    noted.say .info "Execution resumed."
  else m

def runPauseHook (m : Machine) : Machine :=
  match m.onPause with
  | .nothing => m
  | .note => { m with device := m.device.note .paused }
  | .resume => m.resume
  | .panel =>
    match m.panel with
    | some p => if p.pauseVisible then { m with panel := some p.toggle } else m
    | none => m

def pause (m : Machine) : Machine :=
  if m.gate = some true then
    (runPauseHook { m with gate := some false }).say .info "Execution paused."
  else m

/-- The memory that operands are looked up in. -/
def scope (m : Machine) : Option Memory :=
  match m.store with
  | .ready memory => some memory
  | _ => m.past

end Machine

/-- The values that can be read like variables but belong to the pointer and the offset. -/
def ambient? (pos offset : Point) : String → Option Number
  | "$MOUSE_X" => some (.int pos.x)
  | "$MOUSE_Y" => some (.int pos.y)
  | "$OFFSET_X" => some (.int offset.x)
  | "$OFFSET_Y" => some (.int offset.y)
  | _ => none

def Memory.lookup (memory : Memory) (pos : Point) (name : String) : Except Fault Number :=
  match ambient? pos memory.offset name with
  | some value => .ok value
  | none =>
    match memory.get? name with
    | some value => .ok value
    | none => .error (.undefinedVariable name)

namespace Machine

def value (m : Machine) : Operand → Except Fault Number
  | .literal v => .ok v
  | .named name =>
    match m.scope with
    | some memory => memory.lookup m.device.pos name
    | none => .error .noVariables

def argument (m : Machine) : Argument → Except Fault Number
  | .operand o => m.value o
  | .bare v => .error (.notAnOperand v)

end Machine

end PointerScript
