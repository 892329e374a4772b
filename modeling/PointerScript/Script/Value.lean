import PointerScript.Script.Operand

/-! Values that commands are given: what an argument becomes once it has been read by its kind. -/

namespace PointerScript

/-- The signs between two operands of a `var` command; `none` is written where there is one operand
only. -/
inductive MathSign where
  | plus
  | minus
  | times
  | dividedBy
  | none
  deriving DecidableEq, Inhabited

namespace MathSign

def ofSpelling? : String → Option MathSign
  | "+" => some plus
  | "-" => some minus
  | "*" => some times
  | "/" => some dividedBy
  | "noop" => some none
  | _ => Option.none

def text : MathSign → String
  | plus => "<MathOperators.PLUS: '+'>"
  | minus => "<MathOperators.MINUS: '-'>"
  | times => "<MathOperators.TIMES: '*'>"
  | dividedBy => "<MathOperators.DIV: '/'>"
  | none => "<MathOperators.NO_OP: 'noop'>"

end MathSign

/-- A value of a command's parameter. Values of other kinds can only be shown. -/
inductive Value where
  | text (value : String)
  | number (value : Number)
  | flag (value : Bool)
  | operand (value : Operand)
  | sign (value : MathSign)
  | other (shown : String)
  deriving DecidableEq, Inhabited

namespace Value

def shown : Value → String
  | text s => Text.quoted s
  | number n => n.text
  | flag b => if b then "True" else "False"
  | operand o => o.text
  | sign s => s.text
  | other shown => shown

/-- Several values in brackets. A single one is followed by a comma. -/
def enclosed (values : List Value) : String :=
  match values with
  | [one] => "(" ++ one.shown ++ ",)"
  | _ => "(" ++ ", ".intercalate (values.map shown) ++ ")"

end Value

/-- How the text of an argument is read. Words are kept as they are. -/
inductive Kind where
  | word
  | whole
  | decimal
  | flag
  | operand
  | sign
  deriving DecidableEq, Inhabited

inductive ReadFault where
  | notWhole (text : String)
  | tooManyDigits (count : Nat)
  | notDecimal (text : String)
  | notSign (text : String)
  deriving DecidableEq

namespace ReadFault

/-- A text that is no whole number is shown up to 200 characters. -/
def message : ReadFault → String
  | notWhole text =>
    "invalid literal for int() with base 10: " ++ String.ofList ((Text.quoted text).toList.take 200)
  | tooManyDigits count => Number.tooManyDigitsMessage count
  | notDecimal text => "could not convert string to float: " ++ Text.quoted text
  | notSign text => Text.quoted text ++ " is not a valid MathOperators"

end ReadFault

def readInt (s : String) : Except ReadFault Int :=
  (Number.readWhole s.toList).mapError fun
    | .notWhole => .notWhole s
    | .tooManyDigits count => .tooManyDigits count

namespace Kind

/-- Reads a text as a value of a kind. Every text but the empty one is a true flag. -/
def read (kind : Kind) (s : String) : Except ReadFault Value :=
  match kind with
  | word => .ok (.text s)
  | whole => (readInt s).map fun n => .number (.int n)
  | decimal =>
    match Number.readBinary64? s.toList with
    | some x => .ok (.number (.float x))
    | none => .error (.notDecimal s)
  | flag => .ok (.flag (s ≠ ""))
  | operand => .ok (.operand (Operand.read s))
  | sign =>
    match MathSign.ofSpelling? s with
    | some value => .ok (.sign value)
    | none => .error (.notSign s)

end Kind

end PointerScript
