import PointerScript.Script.Instruction
import PointerScript.Script.Value
import PointerScript.Text.Split

/-! Commands: the words that start a line of a script, and how the rest of the line becomes their
arguments. -/

namespace PointerScript

structure Param where
  name : String
  kind : Kind := .word
  default : Option Value := none

/-- The labels defined so far, each with the index of the instruction it stands before. -/
abbrev Labels := List (String × Nat)

inductive Built where
  | instruction (inst : Instruction)
  | label (name : String)
  | nothing
  deriving DecidableEq

/-- Why a command could not be built. A refusal is worded by the command itself and may carry
further values; other faults are reported together with the name of the command. -/
inductive BuildFault where
  | refused (message : String) (details : List Value)
  | unreadable (fault : ReadFault)
  | missing (title : String) (names : List String)
  | emptySeparator
  | crashed (message : String)
  deriving DecidableEq

def nameList : List String → String
  | [] => ""
  | [a] => "'" ++ a ++ "'"
  | [a, b] => "'" ++ a ++ "' and '" ++ b ++ "'"
  | names =>
    ", ".intercalate (names.dropLast.map fun n => "'" ++ n ++ "'") ++ ", and '" ++
      names.getLastD "" ++ "'"

namespace BuildFault

def message : BuildFault → String
  | refused message _ => message
  | unreadable fault => fault.message
  | missing title names =>
    title ++ "() missing " ++ toString names.length ++ " required positional argument" ++
      (if names.length = 1 then "" else "s") ++ ": " ++ nameList names
  | emptySeparator => "empty separator"
  | crashed message => message

end BuildFault

/-- A command: its word, the name it goes by in messages, what separates its arguments, its
parameters, and what it builds from their values when so many instructions and these labels are
there already. -/
structure Command where
  word : String
  title : String
  separator : String := " "
  params : List Param := []
  build : Nat → Labels → List Value → Except BuildFault Built

namespace Command

/-- The pieces of a text of arguments: as many as there are parameters, the last taking the rest.
For a command without parameters the pieces do not matter. -/
def pieces (c : Command) (args : String) : Except BuildFault (List String) :=
  if args.isEmpty then .ok []
  else if c.separator.isEmpty then .error .emptySeparator
  else
    .ok ((Text.splitAtMost c.separator.toList (c.params.length - 1) args.toList).map String.ofList)

def readPieces : List String → List Param → Except BuildFault (List Value)
  | piece :: pieces, param :: params => do
    let value ← (param.kind.read piece).mapError .unreadable
    let values ← readPieces pieces params
    return value :: values
  | _, _ => .ok []

/-- A default as it is bound: text is read by the kind of its parameter. -/
def readDefault (kind : Kind) (value : Value) : Except BuildFault Value :=
  match value with
  | .text s => (kind.read s).mapError .unreadable
  | _ => .ok value

def readDefaults : List Param → Except BuildFault (List Value)
  | [] => .ok []
  | param :: params =>
    match param.default with
    | some value => do
      let value ← readDefault param.kind value
      let values ← readDefaults params
      return value :: values
    | none => readDefaults params

/-- Gives the values to the parameters from the left. A parameter left over takes its default as it
stands; those without one are missing. -/
def fill : List Param → List Value → List Value × List String
  | [], _ => ([], [])
  | _ :: params, value :: values =>
    let (filled, missing) := fill params values
    (value :: filled, missing)
  | param :: params, [] =>
    let (filled, missing) := fill params []
    match param.default with
    | some value => (value :: filled, missing)
    | none => (filled, param.name :: missing)

/-- The values of the parameters. The pieces of the line come first; the defaults of the parameters
beyond the pieces follow directly, so that a left-out parameter without a default takes the next
default. -/
def bind (c : Command) (args : String) : Except BuildFault (List Value) := do
  let pieces ← c.pieces args
  let given ← readPieces pieces c.params
  let defaults ← readDefaults (c.params.drop pieces.length)
  match fill c.params (given ++ defaults) with
  | (values, []) => return values
  | (_, missing) => throw (.missing c.title missing)

def run (c : Command) (size : Nat) (labels : Labels) (args : String) : Except BuildFault Built := do
  c.build size labels (← c.bind args)

end Command

end PointerScript
