import PointerScript.Number.Mixed

/-! The mouse, the keyboard and the clock as a script reaches them. -/

namespace PointerScript

/-- A place on the screen, in pixels. It need not lie inside the screen. -/
structure Point where
  x : Int
  y : Int
  deriving DecidableEq, Inhabited

namespace Point

def shift (p d : Point) : Point :=
  ⟨p.x + d.x, p.y + d.y⟩

def origin : Point := ⟨0, 0⟩

end Point

inductive DeviceCall where
  | moveTo
  | moveRel
  | leftClick
  | rightClick
  | doubleClick
  | press
  | sleep
  deriving DecidableEq

namespace DeviceCall

def name : DeviceCall → String
  | moveTo => "moveTo"
  | moveRel => "moveRel"
  | leftClick => "leftClick"
  | rightClick => "rightClick"
  | doubleClick => "doubleClick"
  | press => "press"
  | sleep => "sleep"

def all : List DeviceCall :=
  [moveTo, moveRel, leftClick, rightClick, doubleClick, press, sleep]

def ofName? (name : String) : Option DeviceCall :=
  all.find? fun call => call.name = name

end DeviceCall

/-- What a script or the window around it did to the outside world. -/
inductive Event where
  | moveTo (target : Point) (duration : Number)
  | moveRel (x y duration : Number)
  | leftClick
  | rightClick
  | doubleClick
  | press (key : String)
  | sleep (time : Number)
  | popup (text title : String)
  | paused
  | resumed
  | beep
  deriving DecidableEq

inductive DeviceFault where
  | broken (call : DeviceCall)
  | arithmetic (fault : ArithmeticFault)
  | sleepNotANumber
  | sleepTooLong (whole : Bool)
  | sleepNegative
  deriving DecidableEq

namespace DeviceFault

def message : DeviceFault → String
  | broken call => "device fault in " ++ call.name
  | arithmetic fault => fault.message
  | sleepNotANumber => "Invalid value NaN (not a number)"
  | sleepTooLong false => "timestamp out of range for platform time_t"
  | sleepTooLong true => "timestamp too large to convert to C _PyTime_t"
  | sleepNegative => "sleep length must be non-negative"

end DeviceFault

/-- The device: where the pointer is, how large the screen is, which coming calls fail, and what has
happened so far. An entry `(call, n)` of `faults` makes the `n`-th call from now on fail; with
`n = 0` its failure has passed. -/
structure Device where
  pos : Point := ⟨100, 100⟩
  screen : Point := ⟨1920, 1080⟩
  faults : List (DeviceCall × Nat) := []
  events : Array Event := #[]

namespace Device

def failsNext (d : Device) (call : DeviceCall) : Bool :=
  d.faults.any fun f => f.1 = call && f.2 = 1

def countCall (d : Device) (call : DeviceCall) : Device :=
  { d with faults := d.faults.map fun f => if f.1 = call then (f.1, f.2 - 1) else f }

def note (d : Device) (e : Event) : Device :=
  { d with events := d.events.push e }

/-- Makes a call: it is counted, and then it either fails without effect or takes effect. -/
def perform (d : Device) (call : DeviceCall) (effect : Device → Device) :
    Device × Option DeviceFault :=
  if d.failsNext call then (d.countCall call, some (.broken call))
  else (effect (d.countCall call), none)

def moveTo (d : Device) (target : Point) (duration : Number) : Device × Option DeviceFault :=
  d.perform .moveTo fun d => { d.note (.moveTo target duration) with pos := target }

/-- Moves the pointer by an amount whose fractions are dropped. -/
def moveRel (d : Device) (x y duration : Number) : Device × Option DeviceFault :=
  match x.truncate with
  | .error fault => (d, some (.arithmetic fault))
  | .ok dx =>
    match y.truncate with
    | .error fault => (d, some (.arithmetic fault))
    | .ok dy =>
      d.perform .moveRel fun d =>
        { d.note (.moveRel x y duration) with pos := d.pos.shift ⟨dx, dy⟩ }

def leftClick (d : Device) : Device × Option DeviceFault :=
  d.perform .leftClick fun d => d.note .leftClick

def rightClick (d : Device) : Device × Option DeviceFault :=
  d.perform .rightClick fun d => d.note .rightClick

def doubleClick (d : Device) : Device × Option DeviceFault :=
  d.perform .doubleClick fun d => d.note .doubleClick

def press (d : Device) (key : String) : Device × Option DeviceFault :=
  d.perform .press fun d => d.note (.press key)

/-- Sleeping this many seconds or more, or as far below zero, is out of range; in quanta. -/
def sleepLimit : Int := (Nat.pow 2 63 * Binary64.unit : Nat)

def sleepOutOfRange (t : Number) : Bool :=
  match t.extent? with
  | some (0, quanta) => quanta * 1000000000 ≥ sleepLimit || quanta * 1000000000 < -sleepLimit
  | some _ => true
  | none => false

def sleep (d : Device) (t : Number) : Device × Option DeviceFault :=
  if t = .float .nan then (d, some .sleepNotANumber)
  else if sleepOutOfRange t then (d, some (.sleepTooLong t.isWhole))
  else if t.lt (.int 0) then (d, some .sleepNegative)
  else d.perform .sleep fun d => d.note (.sleep t)

def sleepTenths (d : Device) (tenths : Nat) : Device × Option DeviceFault :=
  d.sleep (.float (Decimal.nearest false ⟨tenths, -1⟩))

end Device

end PointerScript
