import PointerScript.Json.Access
import PointerScript.Script.Instruction

/-! Programs as JSON: a list of objects, each with the kind of an instruction and its fields. -/

namespace PointerScript

inductive OperandFault where
  | neitherTextNorNumber
  deriving DecidableEq

def OperandFault.message : OperandFault → String
  | neitherTextNorNumber => "ValueRef was initialized with a neither string / float value"

/-- An operand: a text is read as in a script, a number stands for itself. -/
def Operand.ofJson : Json → Operand
  | .str s => .read s.toText
  | json => .literal (json.num?.getD (.int 0))

/-- An instruction. A kind that is not known ends the program. -/
def Instruction.ofJson (j : Json) : Instruction :=
  let v (key : String) : Operand := ((j.get? key).map .ofJson).getD default
  let time := j.numD "time" (.float (.zero false))
  let name := j.strD "name" ""
  let label : LabelName := .named (j.strD "name" "??")
  match j.strD "i" "" with
  | "SetupAndStart" => .setup
  | "MouseCenter" => .center
  | "MouseMove" => .move (v "x") (.operand (v "y")) time
  | "MouseMoveRel" => .moveRel (v "x") (.operand (v "y")) time
  | "MouseGoBack" => .goBack
  | "SetMouseOffset" => .setOffset
  | "ClearMouseOffset" => .clearOffset
  | "MouseLeftClick" => .leftClick
  | "MouseRightClick" => .rightClick
  | "MouseDoubleClick" => .doubleClick
  | "Wait" => .wait (v "t")
  | "Pause" => .pause
  | "ConsolePrint" => .print (j.strD "msg" "")
  | "SetSafeMode" => .safeMode (j.flagD "on" false)
  | "PrintPopup" => .popup (j.strD "text" "") (j.strD "title" "") (j.flagD "fail" false)
  | "JumpNTimes" => .jump (v "n") (j.intD "to" 0) label
  | "Call" => .call (v "n") (j.intD "to" 0) label
  | "Return" => .ret
  | "EndProgram" => .finish
  | "PrintVar" => .printVar name
  | "SetVar" => .setVar name (v "val")
  | "VarMath" => .varMath name (v "l") (v "r") (.ofCode (j.strD "opcode" ""))
  | _ => .halt

end PointerScript
