import PointerScript.Number.Reading
import PointerScript.Number.Writing

/-! Numbers as scripts compute with them: whole numbers of any size beside floating-point numbers.
Whole numbers stay whole under addition, subtraction and multiplication; everything else is done in
floating point. -/

namespace PointerScript

inductive Number where
  | int (value : Int)
  | float (value : Binary64)
  deriving DecidableEq, Inhabited

inductive ArithmeticFault where
  | wholeDivisionByZero
  | floatDivisionByZero
  | quotientTooLarge
  | wholeTooLarge
  | nanToWhole
  | infinityToWhole
  | tooManyDigits
  deriving DecidableEq

namespace ArithmeticFault

def message : ArithmeticFault → String
  | wholeDivisionByZero => "division by zero"
  | floatDivisionByZero => "float division by zero"
  | quotientTooLarge => "integer division result too large for a float"
  | wholeTooLarge => "int too large to convert to float"
  | nanToWhole => "cannot convert float NaN to integer"
  | infinityToWhole => "cannot convert float infinity to integer"
  | tooManyDigits =>
    "Exceeds the limit (4300 digits) for integer string conversion; " ++
      "use sys.set_int_max_str_digits() to increase the limit"

end ArithmeticFault

namespace Number

/-- The floating-point number for a whole number, unless it is too large for one. -/
def wholeToFloat (n : Int) : Except ArithmeticFault Binary64 :=
  match Binary64.ofInt n with
  | .infinite _ => .error .wholeTooLarge
  | x => .ok x

def toFloat : Number → Except ArithmeticFault Binary64
  | int n => wholeToFloat n
  | float x => .ok x

/-- Whether a number is a whole number by its kind, whatever its value. -/
def isWhole : Number → Bool
  | int _ => true
  | float _ => false

/-- A whole-number operation where both operands are whole, a floating-point one otherwise. -/
def combine (whole : Int → Int → Int) (floating : Binary64 → Binary64 → Binary64) :
    Number → Number → Except ArithmeticFault Number
  | int m, int n => .ok (int (whole m n))
  | x, y => do
    let a ← x.toFloat
    let b ← y.toFloat
    return float (floating a b)

def add : Number → Number → Except ArithmeticFault Number :=
  combine (· + ·) Binary64.add

def sub : Number → Number → Except ArithmeticFault Number :=
  combine (· - ·) Binary64.sub

def mul : Number → Number → Except ArithmeticFault Number :=
  combine (· * ·) Binary64.mul

/-- The quotient, always in floating point. For whole numbers it is the number nearest to the exact
quotient. -/
def div : Number → Number → Except ArithmeticFault Number
  | int m, int n =>
    if n = 0 then .error .wholeDivisionByZero
    else
      match Binary64.ofQuanta (decide (m < 0) != decide (n < 0)) (m.natAbs * Binary64.unit) n.natAbs with
      | .infinite _ => .error .quotientTooLarge
      | x => .ok (float x)
  | x, y => do
    let a ← x.toFloat
    let b ← y.toFloat
    if b.isZero then throw .floatDivisionByZero
    return float (a.div b)

/-- A number in quanta for comparisons; NaN has none. Whole numbers compare by their exact values,
also beyond the largest floating-point number. -/
def extent? : Number → Option (Int × Int)
  | int n => some (0, n * Binary64.unit)
  | float (.infinite negative) => some (if negative then -1 else 1, 0)
  | float x => x.quanta?.map fun q => (0, q)

/-- Whether one number is less than another; never so if one is NaN. -/
def lt (x y : Number) : Bool :=
  match x.extent?, y.extent? with
  | some a, some b => a.1 < b.1 || (a.1 == b.1 && a.2 < b.2)
  | _, _ => false

def le (x y : Number) : Bool :=
  match x.extent?, y.extent? with
  | some a, some b => a.1 < b.1 || (a.1 == b.1 && a.2 ≤ b.2)
  | _, _ => false

def eqv (x y : Number) : Bool :=
  x.le y && y.le x

def truncate : Number → Except ArithmeticFault Int
  | int n => .ok n
  | float .nan => .error .nanToWhole
  | float (.infinite _) => .error .infinityToWhole
  | float x => .ok (x.truncate?.getD 0)

/-- The text of a number: digits only for a whole number, else with a point, an exponent or a
name. -/
def text : Number → String
  | int n => String.ofList (intChars n)
  | float x => String.ofList (binary64Chars x)

/-- The text of a number for a message; whole numbers beyond the digit limit have none. -/
def shown : Number → Except ArithmeticFault String
  | int n =>
    if (digitChars n.natAbs).length > digitLimit then .error .tooManyDigits else .ok (text (int n))
  | x => .ok x.text

end Number

end PointerScript
