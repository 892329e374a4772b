/-! The dialog that asks for an offset of all positions. Its confirming button does nothing yet. -/

namespace PointerScript

structure OffsetDialog where
  x : Int := 0
  y : Int := 0
  isOpen : Bool := true
  deriving DecidableEq

inductive OffsetAct where
  | enter (x y : Int)
  | press (button : String)
  deriving DecidableEq

namespace OffsetDialog

def title : String := "Offset All Positions"
def labels : List String := ["X Offset:", "Y Offset:"]
def buttons : List String := ["Cancel", "Confirm"]

def least : Int := -10000
def most : Int := 10000

def clamp (n : Int) : Int :=
  max least (min most n)

def act (d : OffsetDialog) : OffsetAct → OffsetDialog
  | .enter x y => { d with x := clamp x, y := clamp y }
  | .press button => if button = "Cancel" then { d with isOpen := false } else d

/-- The dialog after each act, as long as it is open. -/
def play (d : OffsetDialog) : List OffsetAct → List OffsetDialog
  | [] => []
  | a :: rest => if d.isOpen then d.act a :: (d.act a).play rest else []

end OffsetDialog

end PointerScript
