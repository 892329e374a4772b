import PointerScript.Machine.Basic

/-! From a program back to source text. Only the instructions that a recording can hold, and the
plain ones, have a line of their own. -/

namespace PointerScript

structure Moment where
  year : Int := 2024
  month : Int := 1
  day : Int := 2
  hour : Int := 3
  minute : Int := 4
  second : Int := 5
  deriving DecidableEq

namespace Moment

def twoDigits (n : Int) : String :=
  if 0 ≤ n && n < 10 then "0" ++ toString n else toString n

/-- A moment without its year. -/
def text (t : Moment) : String :=
  twoDigits t.month ++ "-" ++ twoDigits t.day ++ " " ++ twoDigits t.hour ++ ":" ++ twoDigits t.minute ++
    ":" ++ twoDigits t.second

end Moment

namespace Listing

def header (now : Moment) : List String :=
  ["; Decompiled source code",
    "; Generated automatically by Mouse Recorder | " ++ now.text, ""]

/-- What a listing looks up: the values of operands and of arguments. -/
structure Reader where
  operand : Operand → Except Fault Number
  argument : Argument → Except Fault Number

def readerOf (m : Machine) : Reader where
  operand := m.value
  argument := m.argument

/-- The text of a value that was looked up; a whole number of too many digits has none. -/
def shown (value : Except Fault Number) : Except Fault String := do
  let v ← value
  v.shown.mapError .arithmetic

/-- A line with a movement. The time is written only if it is positive. -/
def movement (read : Reader) (word : String) (x : Operand) (y : Argument) (time : Number) :
    Except Fault String := do
  let vx ← shown (read.operand x)
  let vy ← shown (read.argument y)
  let shownTime := if (Number.int 0).lt time then time.text else ""
  return word ++ " " ++ vx ++ " " ++ vy ++ " " ++ shownTime

/-- How an instruction is listed: as a line, not at all, or it cannot be. -/
inductive Entry where
  | line (text : String)
  | skipped
  | unlisted
  deriving DecidableEq

def entry (read : Reader) : Instruction → Except Fault Entry
  | .move x y time => (movement read "move" x y time).map .line
  | .moveRel x y time => (movement read "moverel" x y time).map .line
  | .leftClick => .ok (.line "click left")
  | .rightClick => .ok (.line "click right")
  | .doubleClick => .ok (.line "doubleclick")
  | .wait time => (shown (read.operand time)).map fun t => .line ("wait " ++ t)
  | .pause => .ok (.line "pause")
  | .jump _ _ label => .ok (.line ("jump " ++ label.plain))
  | .print message => .ok (.line ("print " ++ message))
  | .center => .ok (.line "centermouse")
  | .goBack => .ok (.line "goback")
  | .setOffset => .ok (.line "setoffset")
  | .clearOffset => .ok (.line "clearoffset")
  | .setup => .ok .skipped
  | _ => .ok .unlisted

def kindText (inst : Instruction) : String :=
  match inst with
  | .halt => "<class 'app_logic.virtual_machine.executor.HaltExecution'>"
  | _ => "<class 'app_logic.instruction_set." ++ inst.kind ++ "'>"

/-- The lines of a program, or the first instruction that cannot be listed. -/
def lines (read : Reader) : List Instruction → Except Fault (Except Instruction (List String))
  | [] => .ok (.ok [])
  | inst :: rest => do
    match ← entry read inst with
    | .unlisted => return .error inst
    | .skipped => lines read rest
    | .line text =>
      match ← lines read rest with
      | .error inst => return .error inst
      | .ok texts => return .ok (text :: texts)

def source (read : Reader) (now : Moment) (program : List Instruction) : Except Fault String × Log :=
  match lines read program with
  | .error fault => (.error fault, #[])
  | .ok (.error inst) =>
    (.ok "; ERROR: Unknown/unregistered instruction encountered during decompilation.",
      #[⟨"Decompiler", .critical, "Unknown/unregistered instruction: " ++ kindText inst⟩])
  | .ok (.ok texts) => (.ok ("\n".intercalate (header now ++ texts)), #[])

end Listing

end PointerScript
