import PointerScript.Script.Command
import PointerScript.Script.Name

/-! The commands of the scripting language. -/

namespace PointerScript

namespace Standard

def title (name : String) : String :=
  "get_compiler_cfg.<locals>.configure_compiler.<locals>." ++ name

def plain (word name : String) (inst : Instruction) : Command where
  word := word
  title := title name
  build := fun _ _ _ => .ok (.instruction inst)

/-- The answer to values that the parameters cannot take. -/
def misfit : Except BuildFault Built :=
  .error (.crashed "")

def movementParams : List Param :=
  [⟨"x", .operand, none⟩, ⟨"y", .operand, none⟩, ⟨"t", .decimal, some (.number (.float (.zero false)))⟩]

/-- A movement. If the second coordinate is left out, the number that is the default of the time
stands in its place. -/
def buildMovement (make : Operand → Argument → Number → Instruction) :
    List Value → Except BuildFault Built
  | [.operand x, .operand y, .number t] => .ok (.instruction (make x (.operand y) t))
  | [.operand x, .number y, .number t] => .ok (.instruction (make x (.bare y) t))
  | _ => misfit

def finish : Command := plain "end" "end_command" .finish

def move : Command where
  word := "move"
  title := title "move_command"
  params := movementParams
  build := fun _ _ values => buildMovement .move values

def moveRel : Command where
  word := "moverel"
  title := title "move_rel_command"
  params := movementParams
  build := fun _ _ values => buildMovement .moveRel values

def click : Command where
  word := "click"
  title := title "click_command"
  params := [⟨"butt", .word, some (.text "left")⟩]
  build := fun _ _ values =>
    match values with
    | [.text button] =>
      .ok (.instruction (if button = "right" then .rightClick else .leftClick))
    | _ => misfit

def wait : Command where
  word := "wait"
  title := title "wait_command"
  params := [⟨"t", .operand, none⟩]
  build := fun _ _ values =>
    match values with
    | [.operand t] => .ok (.instruction (.wait t))
    | _ => misfit

def doubleClick : Command := plain "doubleclick" "double_click_command" .doubleClick

/-- A jump. Without a name the default count stands in its place. -/
def jump : Command where
  word := "jump"
  title := title "jump_command"
  params := [⟨"name", .word, none⟩, ⟨"n", .operand, some (.operand Operand.absent)⟩]
  build := fun _ _ values =>
    match values with
    | [.text name, .operand n] => .ok (.instruction (.jump n Instruction.unlinked (.named name)))
    | [.operand _, .operand n] => .ok (.instruction (.jump n Instruction.unlinked .unnamed))
    | _ => misfit

def print : Command where
  word := "print"
  title := title "print_command"
  params := [⟨"message", .word, none⟩]
  build := fun _ _ values =>
    match values with
    | [.text message] => .ok (.instruction (.print message))
    | _ => misfit

def center : Command := plain "centermouse" "center_mouse_command" .center

def pause : Command := plain "pause" "pause_command" .pause

def goBack : Command := plain "goback" "go_back_command" .goBack

def setOffset : Command := plain "setoffset" "set_offset_command" .setOffset

def clearOffset : Command := plain "clearoffset" "clear_offset_command" .clearOffset

/-- A label. It names the place of the next instruction and may be defined only once. -/
def label : Command where
  word := "label"
  title := title "label_command"
  params := [⟨"name", .word, none⟩]
  build := fun _ labels values =>
    match values with
    | [.text name] =>
      if labels.any (·.1 = name) then
        .error (.refused ("Label \"" ++ name ++ "\" already defined") [])
      else .ok (.label name)
    | _ => misfit

def call : Command where
  word := "call"
  title := title "call_command"
  params := [⟨"name", .word, none⟩]
  build := fun _ _ values =>
    match values with
    | [.text name] =>
      .ok (.instruction (.call Operand.absent Instruction.unlinked (.named name)))
    | _ => misfit

def ret : Command := plain "return" "return_command" .ret

def printVar : Command where
  word := "printvar"
  title := title "printvar_command"
  params := [⟨"name", .word, none⟩]
  build := fun _ _ values =>
    match values with
    | [.text name] => .ok (.instruction (.printVar name))
    | _ => misfit

def assignment (target : String) (left right : Operand) : MathSign → Instruction
  | .none => .setVar target left
  | .plus => .varMath target left right (.known .sum)
  | .minus => .varMath target left right (.known .difference)
  | .dividedBy => .varMath target left right (.known .quotient)
  | .times => .varMath target left right (.known .product)

/-- A `var` command gives a variable an operand or the result of an operation. -/
def buildAssignment : List Value → Except BuildFault Built
  | .text target :: rest =>
    if isVariableName target then
      match rest with
      | [.text "=", .operand left, .sign sign, .operand right] =>
        .ok (.instruction (assignment target left right sign))
      | _ => .error (.refused "Wrong usage of 'var' command" [])
    else .error (.refused ("Invalid variable name: '" ++ target ++ "'") [])
  | _ => misfit

def var : Command where
  word := "var"
  title := title "var_command"
  params :=
    [⟨"target_name", .word, none⟩, ⟨"action", .word, none⟩, ⟨"left_val", .operand, none⟩,
      ⟨"operation", .sign, some (.sign .none)⟩, ⟨"right_val", .operand, some (.operand Operand.absent)⟩]
  build := fun _ _ values => buildAssignment values

def commands : List Command :=
  [finish, move, moveRel, click, wait, doubleClick, jump, print, center, pause, goBack, setOffset,
    clearOffset, label, call, ret, printVar, var]

/-- The instructions at the start of every program: setting up, half a second for the panel to
appear and, on request, holding clicks back. -/
def initial (safe : Bool) : List Instruction :=
  [.setup, .wait (.literal (.float (Decimal.nearest false ⟨5, -1⟩)))] ++
    if safe then [.safeMode true] else []

end Standard

end PointerScript
