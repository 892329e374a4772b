import PointerScript.Script.Operand

/-! The instructions of a compiled script. -/

namespace PointerScript

inductive MathOp where
  | sum
  | difference
  | product
  | quotient
  deriving DecidableEq, Inhabited

/-- The operation of a `varMath` instruction; a code that names none is kept as it was given. -/
inductive MathCode where
  | known (op : MathOp)
  | unknown (code : String)
  deriving DecidableEq, Inhabited

/-- The label that a jump goes to. A jump written without any name has none to look up. -/
inductive LabelName where
  | named (name : String)
  | unnamed
  deriving DecidableEq, Inhabited

/-- An instruction. The target of a jump or a call is the index of an instruction. -/
inductive Instruction where
  | setup
  | center
  | move (x : Operand) (y : Argument) (time : Number)
  | moveRel (x : Operand) (y : Argument) (time : Number)
  | goBack
  | setOffset
  | clearOffset
  | leftClick
  | rightClick
  | doubleClick
  | wait (time : Operand)
  | pause
  | print (message : String)
  | safeMode (on : Bool)
  | popup (text title : String) (refused : Bool)
  | jump (count : Operand) (target : Int) (label : LabelName)
  | call (count : Operand) (target : Int) (label : LabelName)
  | ret
  | finish
  | halt
  | printVar (name : String)
  | setVar (name : String) (value : Operand)
  | varMath (name : String) (left right : Operand) (code : MathCode)
  deriving DecidableEq, Inhabited

namespace MathOp

def code : MathOp → String
  | sum => "sum"
  | difference => "diff"
  | product => "mult"
  | quotient => "div"

def ofCode? : String → Option MathOp
  | "sum" => some sum
  | "diff" => some difference
  | "mult" => some product
  | "div" => some quotient
  | _ => none

def text : MathOp → String
  | sum => "<VarMathOperations.SUM: 'sum'>"
  | difference => "<VarMathOperations.DIFFERENCE: 'diff'>"
  | product => "<VarMathOperations.MULTIPLICATION: 'mult'>"
  | quotient => "<VarMathOperations.DIVISION: 'div'>"

def apply : MathOp → Number → Number → Except ArithmeticFault Number
  | sum => Number.add
  | difference => Number.sub
  | product => Number.mul
  | quotient => Number.div

end MathOp

namespace MathCode

def ofCode (code : String) : MathCode :=
  match MathOp.ofCode? code with
  | some op => known op
  | none => unknown code

def text : MathCode → String
  | known op => op.text
  | unknown code => Text.quoted code

end MathCode

namespace LabelName

/-- The name as it is shown in messages about it. -/
def plain : LabelName → String
  | named name => name
  | unnamed => Operand.absent.text

/-- The name as it is shown inside an instruction. -/
def text : LabelName → String
  | named name => Text.quoted name
  | unnamed => Operand.absent.text

end LabelName

namespace Instruction

/-- The target of a jump that has not been linked yet. -/
def unlinked : Int := -100

def kind : Instruction → String
  | setup => "SetupAndStart"
  | center => "MouseCenter"
  | move _ _ _ => "MouseMove"
  | moveRel _ _ _ => "MouseMoveRel"
  | goBack => "MouseGoBack"
  | setOffset => "SetMouseOffset"
  | clearOffset => "ClearMouseOffset"
  | leftClick => "MouseLeftClick"
  | rightClick => "MouseRightClick"
  | doubleClick => "MouseDoubleClick"
  | wait _ => "Wait"
  | pause => "Pause"
  | print _ => "ConsolePrint"
  | safeMode _ => "SetSafeMode"
  | popup _ _ _ => "PrintPopup"
  | jump _ _ _ => "JumpNTimes"
  | call _ _ _ => "Call"
  | ret => "Return"
  | finish => "EndProgram"
  | halt => "HaltExecution"
  | printVar _ => "PrintVar"
  | setVar _ _ => "SetVar"
  | varMath _ _ _ _ => "VarMath"

/-- The fields of an instruction with their texts; `visits` is how often a jump has been counted. -/
def fields (visits : Nat) : Instruction → List (String × String)
  | move x y time | moveRel x y time => [("x", x.text), ("y", y.text), ("time", time.text)]
  | wait time => [("time_s", time.text)]
  | print message => [("msg", Text.quoted message)]
  | safeMode on => [("on", if on then "True" else "False")]
  | popup text title _ =>
    [("icon", "<PopupDialogIcons.INFO: 0>"), ("text", Text.quoted text), ("title", Text.quoted title),
      ("popup_callback", "<popup>")]
  | jump count target label | call count target label =>
    [("num", count.text), ("jump_idx", toString target), ("_cnt", toString visits),
      ("jmp_name", label.text)]
  | printVar name => [("var_name", Text.quoted name)]
  | setVar name value => [("var_name", Text.quoted name), ("val", value.text)]
  | varMath name left right code =>
    [("out_var_name", Text.quoted name), ("l_val", left.text), ("r_val", right.text),
      ("opcode", code.text)]
  | _ => []

def text (inst : Instruction) (visits : Nat) : String :=
  inst.kind ++ "(" ++ ", ".intercalate ((inst.fields visits).map fun f => f.1 ++ "=" ++ f.2) ++ ")"

def stops : Instruction → Bool
  | finish | halt => true
  | _ => false

end Instruction

end PointerScript
