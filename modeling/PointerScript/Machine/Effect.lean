import PointerScript.Machine.Basic

/-! What each instruction does to the machine. An instruction that fails leaves behind what it did
before it failed. -/

namespace PointerScript

namespace Machine

/-- Goes on with a result, or stops with its fault. -/
def attempt {α : Type} (m : Machine) (result : Except Fault α) (next : α → Machine × Option Fault) :
    Machine × Option Fault :=
  match result with
  | .ok a => next a
  | .error fault => (m, some fault)

def attemptMemory {α : Type} (m : Machine) (result : Except MemoryFault α)
    (next : α → Machine × Option Fault) : Machine × Option Fault :=
  match result with
  | .ok a => next a
  | .error fault => (m, some (.memory fault))

def onDevice (m : Machine) (call : Device → Device × Option DeviceFault) : Machine × Option Fault :=
  let (device, fault) := call m.device
  ({ m with device := device }, fault.map .device)

def withMemory (m : Machine) (memory : Memory) : Machine :=
  { m with store := .ready memory }

def setUp (m : Machine) : Machine :=
  m.withMemory {}

/-- Adds the place of the pointer to the history and goes on. -/
def remember (m : Machine) (next : Machine → Machine × Option Fault) : Machine × Option Fault :=
  m.attemptMemory (m.store.memory .history) fun memory =>
    next (m.withMemory (memory.pushPlace m.device.pos))

def placeOf (x y : Number) : Except Fault Point :=
  match x.truncate with
  | .error fault => .error (.arithmetic fault)
  | .ok px =>
    match y.truncate with
    | .error fault => .error (.arithmetic fault)
    | .ok py => .ok ⟨px, py⟩

/-- Moves to a place seen from the offset. -/
def move (m : Machine) (x : Operand) (y : Argument) (time : Number) : Machine × Option Fault :=
  m.remember fun m =>
    m.attempt (m.value x) fun vx =>
      m.attempt (m.argument y) fun vy =>
        m.attempt (placeOf vx vy) fun place =>
          m.attemptMemory m.store.offset fun offset =>
            m.onDevice fun d => d.moveTo (place.shift offset) time

def moveRel (m : Machine) (x : Operand) (y : Argument) (time : Number) : Machine × Option Fault :=
  m.remember fun m =>
    m.attempt (m.value x) fun vx =>
      m.attempt (m.argument y) fun vy =>
        m.onDevice fun d => d.moveRel vx vy time

def center (m : Machine) : Machine × Option Fault :=
  m.remember fun m =>
    m.onDevice fun d =>
      d.moveTo ⟨Int.fdiv d.screen.x 2, Int.fdiv d.screen.y 2⟩ (.float (.zero false))

def goBack (m : Machine) : Machine × Option Fault :=
  m.attemptMemory (m.store.memory .history) fun memory =>
    match memory.popPlace? with
    | none => (m.say .debug "Movement history is empty, cannot go back.", none)
    | some (place, memory) =>
      (m.withMemory memory).onDevice fun d => d.moveTo place (.float (.zero false))

/-- Makes a place the origin of later moves. -/
def setOffset (m : Machine) (place : Point) : Machine × Option Fault :=
  m.attemptMemory (m.store.setOffset place) fun store => ({ m with store := store }, none)

/-- Clicks, unless clicks are held back. -/
def click (m : Machine) (call : Device → Device × Option DeviceFault) : Machine × Option Fault :=
  m.attemptMemory m.store.safe fun safe => if safe then (m, none) else m.onDevice call

def setSafe (m : Machine) (on : Bool) : Machine × Option Fault :=
  m.attemptMemory (m.store.setSafe on) fun store =>
    (({ m with store := store } : Machine).say .info
      ("Safe mode is " ++ if on then "enabled" else "disabled"), none)

/-- How often the jump at an index has been counted. An instruction outside the program has no
counter and counts from zero. -/
def visitsAt (m : Machine) : Option Nat → Nat
  | some index => m.visits.getD index 0
  | none => 0

def setVisits (m : Machine) (index : Option Nat) (n : Nat) : Machine :=
  match index with
  | some i => { m with visits := m.visits.setIfInBounds i n }
  | none => m

/-- Goes to a target: the program counter stands before it, because it is about to advance. -/
def goTo (m : Machine) (target : Int) : Machine :=
  { m with pc := target - 1 }

/-- Jumps always for a count that is not positive. For a positive count `n` it jumps until the
`n`-th visit, which falls through and starts the count again. -/
def jump (m : Machine) (index : Option Nat) (count : Operand) (target : Int) :
    Machine × Option Fault :=
  m.attempt (m.value count) fun n =>
    if n.le (.int 0) then (m.goTo target, none)
    else
      let visits := m.visitsAt index + 1
      if n.le (.int visits) then (m.setVisits index 0, none)
      else ((m.setVisits index visits).goTo target, none)

/-- Notes where to return to and jumps. Too many open calls are a fault. -/
def call (m : Machine) (index : Option Nat) (count : Operand) (target : Int) :
    Machine × Option Fault :=
  m.attemptMemory (m.store.memory .calls) fun memory =>
    let (memory, tooDeep) := memory.pushCall m.pc
    let m := m.withMemory memory
    if tooDeep then (m, some .tooDeep) else m.jump index count target

def emptyReturn : String := "Attempted return with empty stack"

/-- Goes back to the last open call. An entry of zero is dropped but not followed. -/
def ret (m : Machine) : Machine × Option Fault :=
  m.attemptMemory (m.store.memory .calls) fun memory =>
    match memory.popCall? with
    | none => (m.say .warning emptyReturn, none)
    | some (last, memory) =>
      let m := m.withMemory memory
      (if last = 0 then m else { m with pc := last }, none)

def sayValue (m : Machine) (name : String) (value : Number) : Machine × Option Fault :=
  m.attempt (value.shown.mapError .arithmetic) fun text => (m.say .info (name ++ " = " ++ text), none)

def printVar (m : Machine) (name : String) : Machine × Option Fault :=
  m.attemptMemory m.store.offset fun offset =>
    match ambient? m.device.pos offset name with
    | some value => m.sayValue name value
    | none =>
      m.attemptMemory (m.store.memory .vars) fun memory =>
        m.attempt (memory.lookup m.device.pos name) fun value => m.sayValue name value

def setVar (m : Machine) (name : String) (value : Except Fault Number) : Machine × Option Fault :=
  if m.store = .absent then (m, some (.memory .absent))
  else
    m.attempt value fun v =>
      m.attemptMemory (m.store.memory .vars) fun memory => (m.withMemory (memory.set name v), none)

def compute (m : Machine) (left right : Operand) : MathCode → Except Fault Number
  | .unknown code => .error (.unknownOperation code)
  | .known op => do
    let l ← m.value left
    let r ← m.value right
    (op.apply l r).mapError .arithmetic

def varMath (m : Machine) (name : String) (left right : Operand) (code : MathCode) :
    Machine × Option Fault :=
  m.attempt (m.compute left right code) fun v =>
    m.attemptMemory (m.store.memory .vars) fun memory => (m.withMemory (memory.set name v), none)

/-- Carries out an instruction; `index` is where it stands in the program. -/
def carryOut (m : Machine) (index : Option Nat) : Instruction → Machine × Option Fault
  | .setup =>
    match m.store with
    | .absent => (m, some (.memory .absent))
    | _ => (m.setUp, none)
  | .center => m.center
  | .move x y time => m.move x y time
  | .moveRel x y time => m.moveRel x y time
  | .goBack => m.goBack
  | .setOffset => m.setOffset m.device.pos
  | .clearOffset => m.setOffset .origin
  | .leftClick => m.click Device.leftClick
  | .rightClick => m.click Device.rightClick
  | .doubleClick => m.click Device.doubleClick
  | .wait time => m.attempt (m.value time) fun t => m.onDevice fun d => d.sleep t
  | .pause => (m.pause, none)
  | .print message => (m.say .info message, none)
  | .safeMode on => m.setSafe on
  | .popup text title refused =>
    if refused then (m, some .popupRefused)
    else ({ m with device := m.device.note (.popup text title) }, none)
  | .jump count target _ => m.jump index count target
  | .call count target _ => m.call index count target
  | .ret => m.ret
  | .finish | .halt => (m, none)
  | .printVar name => m.printVar name
  | .setVar name value => m.setVar name (m.value value)
  | .varMath name left right code => m.varMath name left right code

end Machine

end PointerScript
