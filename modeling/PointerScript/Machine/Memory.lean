import PointerScript.Machine.Device

/-! What a running script remembers. -/

namespace PointerScript

/-- The memory of a run that has been set up. The newest place of `history` and the newest entry of
`calls`, the indices of the calls to return to, come first. -/
structure Memory where
  history : List Point := []
  calls : List Int := []
  vars : List (String × Number) := []
  offset : Point := .origin
  safe : Bool := false
  deriving DecidableEq, Inhabited

namespace Memory

/-- So many open calls are too many. -/
def callLimit : Nat := 4096

def get? (m : Memory) (name : String) : Option Number :=
  m.vars.lookup name

/-- Stores a value, keeping the place of a variable that was there before. -/
def setEntry (name : String) (value : Number) : List (String × Number) → List (String × Number)
  | [] => [(name, value)]
  | entry :: rest =>
    if entry.1 = name then (name, value) :: rest else entry :: setEntry name value rest

def set (m : Memory) (name : String) (value : Number) : Memory :=
  { m with vars := setEntry name value m.vars }

def pushPlace (m : Memory) (place : Point) : Memory :=
  { m with history := place :: m.history }

def popPlace? (m : Memory) : Option (Point × Memory) :=
  match m.history with
  | [] => none
  | place :: earlier => some (place, { m with history := earlier })

/-- Opens a call. The flag says that there are now too many of them. -/
def pushCall (m : Memory) (index : Int) : Memory × Bool :=
  let calls := index :: m.calls
  ({ m with calls := calls }, calls.length ≥ callLimit)

/-- Opens calls until there are too many. -/
def pushCalls (m : Memory) (index : Int) : Nat → Memory × Bool
  | 0 => (m, false)
  | n + 1 =>
    match m.pushCall index with
    | (m, true) => (m, true)
    | (m, false) => m.pushCalls index n

def popCall? (m : Memory) : Option (Int × Memory) :=
  match m.calls with
  | [] => none
  | index :: earlier => some (index, { m with calls := earlier })

/-- Two numbers seen from the offset. -/
def shifted (m : Memory) (x y : Number) : Except ArithmeticFault (Number × Number) := do
  let px ← x.add (.int m.offset.x)
  let py ← y.add (.int m.offset.y)
  return (px, py)

end Memory

/-- The memory of a machine: none before the first run, two loose entries while a run has not been
set up, and a whole memory afterwards. -/
inductive Store where
  | absent
  | loose (offset : Option Point) (safe : Option Bool)
  | ready (memory : Memory)
  deriving DecidableEq, Inhabited

inductive Entry where
  | history
  | calls
  | vars
  | offset
  | safe
  deriving DecidableEq

namespace Entry

def key : Entry → String
  | history => "mov_history"
  | calls => "pc_stack"
  | vars => "vars"
  | offset => "offset"
  | safe => "safe_mode"

end Entry

inductive MemoryFault where
  | absent
  | missing (entry : Entry)
  deriving DecidableEq

namespace MemoryFault

def message : MemoryFault → String
  | absent => "'Executor' object has no attribute 'shared'"
  | missing entry => "'" ++ entry.key ++ "'"

end MemoryFault

namespace Store

/-- The whole memory, for the sake of one of its entries. -/
def memory (s : Store) (entry : Entry) : Except MemoryFault Memory :=
  match s with
  | absent => .error .absent
  | loose _ _ => .error (.missing entry)
  | ready m => .ok m

def offset : Store → Except MemoryFault Point
  | absent => .error .absent
  | loose (some p) _ => .ok p
  | loose none _ => .error (.missing .offset)
  | ready m => .ok m.offset

/-- Changes the offset, also before the memory has been set up. -/
def setOffset (p : Point) : Store → Except MemoryFault Store
  | absent => .error .absent
  | loose _ safe => .ok (loose (some p) safe)
  | ready m => .ok (ready { m with offset := p })

def safe : Store → Except MemoryFault Bool
  | absent => .error .absent
  | loose _ (some on) => .ok on
  | loose _ none => .error (.missing .safe)
  | ready m => .ok m.safe

def setSafe (on : Bool) : Store → Except MemoryFault Store
  | absent => .error .absent
  | loose p _ => .ok (loose p (some on))
  | ready m => .ok (ready { m with safe := on })

end Store

end PointerScript
