import PointerScript.Number.Writing

/-! The line numbers beside a script. -/

namespace PointerScript

structure Rect where
  x : Int
  y : Int
  width : Int
  height : Int
  deriving DecidableEq

namespace Rect

def holds (outer inner : Rect) : Bool :=
  outer.x ≤ inner.x && outer.y ≤ inner.y && inner.x + inner.width ≤ outer.x + outer.width &&
    inner.y + inner.height ≤ outer.y + outer.height

end Rect

/-- One step of drawing the line numbers: the background, or a number at a height with the room it
has. -/
inductive GutterStroke where
  | fill
  | number (top width : Int) (text : String)
  deriving DecidableEq

namespace Gutter

def charWidth : Int := 8

def areaWidth : Int := 40

def viewport : Rect := ⟨0, 0, 200, 100⟩

def width (lineCount : Nat) : Int :=
  30 + charWidth * (Number.digitChars (max 1 lineCount)).length

/-- Whether a request to redraw a part of the script sets the margin anew. -/
def resetsMargin (rect : Rect) : Bool :=
  rect.holds viewport

/-- The numbers of lines from `index` on, the top of whose first line is `top`; only lines that reach
into the rows from `first` to `last` and are not hidden show a number. -/
def numbersFrom (lineHeight first last : Int) (hidden : List Nat) (index : Nat) (top : Int) :
    Nat → List GutterStroke
  | 0 => []
  | lines + 1 =>
    if top ≤ last then
      let rest := numbersFrom lineHeight first last hidden (index + 1) (top + lineHeight) lines
      if !hidden.contains index && top + lineHeight ≥ first then
        .number top (areaWidth - 4) (toString (index + 1)) :: rest
      else rest
    else []

/-- Draws the numbers in the rows from `top` on; `first` is the first visible line. -/
def paint (lineCount : Nat) (top height lineHeight : Int) (first : Nat) (hidden : List Nat) :
    List GutterStroke :=
  [.fill, .fill] ++ numbersFrom lineHeight top (top + height - 1) hidden first 0 (lineCount - first)

end Gutter

/-- The state of a script's view that the numbers and the marked line depend on. -/
structure CodeView where
  lineCount : Nat := 1
  highlightedLines : Nat := 1
  deriving DecidableEq

namespace CodeView

def width (v : CodeView) : Int :=
  Gutter.width v.lineCount

/-- Shows another text; every line feed starts a new line. -/
def setText (v : CodeView) (text : String) : CodeView :=
  { v with lineCount := (text.toList.filter (· = '\n')).length + 1 }

/-- The line of the cursor is marked only while the script can be edited. -/
def setReadOnly (v : CodeView) (on : Bool) : CodeView :=
  { v with highlightedLines := if on then 0 else 1 }

end CodeView

end PointerScript
