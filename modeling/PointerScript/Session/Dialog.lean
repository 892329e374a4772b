import PointerScript.Machine.Basic

/-! What a program that runs beside the editor leaves behind: its dialogs and the way it ended. -/

namespace PointerScript

/-- What a dialog shows: nothing that changes, a text, or the controls of a running program. -/
inductive DialogContent where
  | notice
  | box (text : String)
  | control (label : String) (paused pauseVisible playVisible : Bool) (stopText : String)
  deriving DecidableEq

/-- A dialog. Its result is zero until it is closed with another one. -/
structure Dialog where
  title : String
  result : Int := 0
  isOpen : Bool := true
  content : DialogContent := .notice
  deriving DecidableEq

inductive SessionFault where
  | script (fault : Fault)
  | outOfRange
  | nothingToTakeBack
  deriving DecidableEq

namespace SessionFault

def message : SessionFault → String
  | script fault => fault.message
  | outOfRange => "tuple index out of range"
  | nothingToTakeBack => "pop from empty list"

end SessionFault

/-- How a program ended: it ran to its end, it left once its dialogs were done, it left at once, or
it was cut off. -/
inductive SessionEnd where
  | returned
  | finished
  | aborted
  | budget
  | paused
  | failed (fault : SessionFault)
  deriving DecidableEq

/-- What is left of a program that ran beside the editor: how it ended, its dialogs in the order they
were opened, the device, its messages, the keys it echoed, and the script it recorded. -/
structure Session where
  ending : SessionEnd
  dialogs : List Dialog
  device : Device
  log : Log := #[]
  echoes : List String := []
  sent : Option String := none

end PointerScript
