import PointerScript.Number.Mixed
import PointerScript.Text.Quoted

/-! Operands: the values that commands refer to. -/

namespace PointerScript

/-- A number written in the script, or the name of a variable to look up when it is needed. -/
inductive Operand where
  | literal (value : Number)
  | named (name : String)
  deriving DecidableEq, Inhabited

namespace Operand

/-- Reads an operand. Every text that does not spell a number names a variable. -/
def read (s : String) : Operand :=
  let body := Text.trim s.toList
  match Number.readBinary64? body with
  | some x => literal (.float x)
  | none => named (String.ofList body)

def text : Operand → String
  | literal value => "ValueRef(literal=" ++ value.text ++ ")"
  | named name => "ValueRef(var=" ++ name ++ ")"

/-- The operand that stands for a number that was left out. -/
def absent : Operand := read "-1"

end Operand

/-- A place for a value: an operand, or a bare number that stands where an operand belongs. A bare
number is bound when a command leaves out a coordinate; it cannot be evaluated. -/
inductive Argument where
  | operand (value : Operand)
  | bare (value : Number)
  deriving DecidableEq, Inhabited

namespace Argument

def text : Argument → String
  | operand value => value.text
  | bare value => value.text

end Argument

end PointerScript
