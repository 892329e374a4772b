import PointerScript.Text.Character

/-! Colouring the words of a script. -/

namespace PointerScript

namespace Highlight

open Text

structure Style where
  colour : String
  bold : Bool
  italic : Bool
  deriving DecidableEq

structure Span where
  start : Nat
  length : Nat
  style : Style
  deriving DecidableEq

/-- The places from the start of a stretch on, as many as it is long. -/
def Span.Over (s : Span) (place : Nat) : Prop :=
  s.start ≤ place ∧ place < s.start + s.length

structure Group where
  keywords : List String
  style : Style
  deriving DecidableEq

def keyword (colour : String) : Style := ⟨colour, true, false⟩

def actions : Group where
  keywords :=
    ["move", "moverel", "click", "wait", "doubleclick", "print", "centermouse", "goback", "setoffset",
      "clearoffset", "pause"]
  style := keyword "#005cc5"

def variableWords : Group where
  keywords := ["var", "printvar"]
  style := keyword "#6f42c1"

def flow : Group where
  keywords := ["call", "return", "jump", "label", "end"]
  style := keyword "#d73a49"

def ambient : Group where
  keywords := ["$MOUSE_X", "$MOUSE_Y", "$OFFSET_X", "$OFFSET_Y"]
  style := keyword "#00b554"

def groups : List Group := [actions, variableWords, flow, ambient]

def comment : Style := ⟨"#999999", false, true⟩

def isTokenChar (c : Char) : Bool :=
  isWord c || c == '$'

/-- Where a keyword stands in a text that starts at an index, `before` being the character before the
text: neither the character before the keyword nor the one after it is a token character. -/
def occurrences (word : List Char) (index : Nat) (before : Option Char) : List Char → List Nat
  | [] => []
  | c :: cs =>
    let rest := occurrences word (index + 1) (some c) cs
    if word.isPrefixOf (c :: cs) && !before.any isTokenChar &&
        !((c :: cs).drop word.length).head?.any isTokenChar then index :: rest
    else rest

def keywordSpans (line : List Char) (style : Style) (word : String) : List Span :=
  (occurrences word.toList 0 none line).map fun start => ⟨start, word.length, style⟩

def commentSpans (line : List Char) : List Span :=
  let before := line.takeWhile (· != ';')
  if before.length < line.length then [⟨before.length, line.length - before.length, comment⟩] else []

def groupSpans (groups : List Group) (line : List Char) : List Span :=
  groups.flatMap fun group => group.keywords.flatMap fun word => keywordSpans line group.style word

/-- The stretches of a line in the order they are drawn; a later one covers an earlier one. -/
def spansOf (groups : List Group) (line : List Char) : List Span :=
  groupSpans groups line ++ commentSpans line

def spans (line : List Char) : List Span :=
  spansOf groups line

/-- Whether a character is written with one unit of sixteen bits; all others take two. -/
def IsNarrow (c : Char) : Prop :=
  c.toNat < 0x10000

instance (c : Char) : Decidable (IsNarrow c) := Nat.decLt _ _

def width : List Char → Nat
  | [] => 0
  | c :: line => (if IsNarrow c then 1 else 2) + width line

/-- What the window system offers for drawing a line. It counts units of sixteen bits: `blank` is a line of so many
units, `draw` gives a stretch of them a style, and `styleAt` tells how a unit is drawn. -/
structure Canvas where
  Line : Nat → Type
  blank (units : Nat) : Line units
  draw {units : Nat} : Line units → Span → Line units
  styleAt {units : Nat} : Line units → Fin units → Option Style

/-- What is known of a window system: a new line is drawn plainly, and a stretch changes the style of its own units and
of no others. -/
structure Canvas.Lawful (canvas : Canvas) : Prop where
  blank {units : Nat} (u : Fin units) : canvas.styleAt (canvas.blank units) u = none
  inside {units : Nat} (l : canvas.Line units) {s : Span} {u : Fin units} :
    s.Over u → canvas.styleAt (canvas.draw l s) u = some s.style
  outside {units : Nat} (l : canvas.Line units) {s : Span} {u : Fin units} :
    ¬ s.Over u → canvas.styleAt (canvas.draw l s) u = canvas.styleAt l u

/-- Draws a line. The stretches are counted in characters. -/
def Canvas.highlight (canvas : Canvas) (groups : List Group) (line : List Char) : canvas.Line (width line) :=
  (spansOf groups line).foldl canvas.draw (canvas.blank _)

end Highlight

end PointerScript
