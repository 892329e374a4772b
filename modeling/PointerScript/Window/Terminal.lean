import PointerScript.Log
import PointerScript.Template

/-! The terminal of the editor, where messages are shown in the colours of their levels. -/

namespace PointerScript

structure Inked where
  text : String
  colour : String
  deriving DecidableEq

namespace Terminal

/-- The colour of a level; levels without a name of their own are black. -/
def colourOf (level : Level) : String :=
  if level = .debug then "#7E7E7E"
  else if level = .info then "#FFFFFF"
  else if level = .warning then "#ffe30b"
  else if level = .error then "#cc0000"
  else if level = .critical then "#ff0000"
  else "#000000"

/-- Whether a message of a level is shown; debugging messages only if they are wanted. -/
def shows (debugging : Bool) (level : Level) : Bool :=
  level ≠ .debug || debugging

/-- A text as it is shown at a level, on lines of its own. -/
def show? (debugging : Bool) (level : Level) (text : String) : Option Inked :=
  if shows debugging level then some ⟨text ++ "\n", colourOf level⟩ else none

structure Request where
  source : String
  level : Level
  template : String
  values : List Json

/-- The text of a message; a message without values is taken as it is. -/
def Request.message? (r : Request) : Option String :=
  if r.values.isEmpty then some r.template else Template.fill? r.template r.values

/-- Shows a message, with its source and level unless it is to stand `bare`. A message whose places
cannot be filled is not shown. -/
def showRequest? (debugging bare : Bool) (r : Request) : Option Inked := do
  let message ← r.message?
  show? debugging r.level (if bare then message else (LogRecord.mk r.source r.level message).text)

end Terminal

end PointerScript
