import PointerScript.Text.Quoted

/-! Keys as a listener hears them. -/

namespace PointerScript

/-- A key that types no character. -/
inductive SpecialKey where
  | alt
  | altRight
  | ctrl
  | shift
  | up
  | down
  | left
  | right
  | home
  | endOfLine
  | pageUp
  | pageDown
  | insert
  | delete
  | enter
  | tab
  | space
  | escape
  | function (number : Fin 12)
  deriving DecidableEq

namespace SpecialKey

/-- The name of a key; function keys are counted from 1. -/
def name : SpecialKey → String
  | alt => "alt"
  | altRight => "alt_r"
  | ctrl => "ctrl"
  | shift => "shift"
  | up => "up"
  | down => "down"
  | left => "left"
  | right => "right"
  | home => "home"
  | endOfLine => "end"
  | pageUp => "page_up"
  | pageDown => "page_down"
  | insert => "insert"
  | delete => "delete"
  | enter => "enter"
  | tab => "tab"
  | space => "space"
  | escape => "esc"
  | function n => "f" ++ toString (n.val + 1)

def all : List SpecialKey :=
  [alt, altRight, ctrl, shift, up, down, left, right, home, endOfLine, pageUp, pageDown, insert,
    delete, enter, tab, space, escape] ++ (List.finRange 12).map function

end SpecialKey

inductive Key where
  | special (key : SpecialKey)
  | char (typed : String)
  deriving DecidableEq

namespace Key

/-- The key of a name. Every text that names no special key is a key that types it. -/
def ofName (name : String) : Key :=
  match SpecialKey.all.find? fun key => key.name = name with
  | some key => special key
  | none => char name

def text : Key → String
  | special key => "Key." ++ key.name
  | char typed => Text.quoted typed

end Key

end PointerScript
