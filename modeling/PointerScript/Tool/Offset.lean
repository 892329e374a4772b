import PointerScript.Script.Value
import PointerScript.Text.Line

/-! Shifting the targets of the moves of a script. -/

namespace PointerScript

namespace Offset

open Text

/-- A whole number at the start, as text: an optional minus and digits of any script. -/
def takeWhole? (cs : List Char) : Option (List Char × List Char) :=
  let (sign, body) := match cs with
    | '-' :: rest => (['-'], rest)
    | _ => ([], cs)
  let digits := body.takeWhile isDecimal
  if digits.isEmpty then none else some (sign ++ digits, body.dropWhile isDecimal)

def takeBlanks? (cs : List Char) : Option (List Char) :=
  match cs with
  | c :: _ => if isBlank c then some (cs.dropWhile isBlank) else none
  | [] => none

/-- What follows the numbers: the rest of a line, whose own line feed is dropped. -/
def takeRest? (cs : List Char) : Option (List Char) :=
  let rest := cs.takeWhile (· != '\n')
  match cs.dropWhile (· != '\n') with
  | [] | ['\n'] => some rest
  | _ => none

def readMove? (line : List Char) : Option (List Char × List Char × List Char) := do
  let word := "move".toList
  if !word.isPrefixOf line then none
  let cs ← takeBlanks? (line.drop word.length)
  let (x, cs) ← takeWhole? cs
  let cs ← takeBlanks? cs
  let (y, cs) ← takeWhole? cs
  let rest ← takeRest? cs
  return (x, y, rest)

/-- What is added to a coordinate: a number, or something of another kind that cannot be. -/
inductive Amount where
  | number (value : Number)
  | other (kind : String)
  deriving DecidableEq

inductive Fault where
  | notText (kind : String)
  | notAddable (kind : String)
  | unreadable (fault : ReadFault)
  | arithmetic (fault : ArithmeticFault)
  deriving DecidableEq

namespace Fault

def message : Fault → String
  | notText kind => "expected string or bytes-like object, got '" ++ kind ++ "'"
  | notAddable kind => "unsupported operand type(s) for +: 'int' and '" ++ kind ++ "'"
  | unreadable fault => fault.message
  | arithmetic fault => fault.message

end Fault

def addAmount (coordinate : List Char) (amount : Amount) : Except Fault Number := do
  let n ← (readInt (String.ofList coordinate)).mapError .unreadable
  match amount with
  | .number m => ((Number.int n).add m).mapError .arithmetic
  | .other kind => .error (.notAddable kind)

/-- A line with its move shifted; lines without a plain move stay as they are. -/
def shiftLine (dx dy : Amount) (line : String) : Except Fault String :=
  match readMove? line.toList with
  | none => .ok line
  | some (x, y, rest) => do
    let x ← addAmount x dx
    let y ← addAmount y dy
    let x ← x.shown.mapError .arithmetic
    let y ← y.shown.mapError .arithmetic
    return "move " ++ x ++ " " ++ y ++ String.ofList rest

/-- A line of a script, or something of another kind in its place. -/
inductive Line where
  | text (value : String)
  | other (kind : String)
  deriving DecidableEq

def shiftLines (dx dy : Amount) : List Line → Except Fault (List String)
  | [] => .ok []
  | .text line :: rest => do
    let line ← shiftLine dx dy line
    let rest ← shiftLines dx dy rest
    return line :: rest
  | .other kind :: _ => .error (.notText kind)

end Offset

end PointerScript
