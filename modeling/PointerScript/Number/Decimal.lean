import PointerScript.Number.Binary64

/-! Decimal numbers and the floating-point number nearest to each. -/

namespace PointerScript

/-- The decimal number `digits * 10 ^ exponent`. -/
structure Decimal where
  digits : Nat
  exponent : Int
  deriving DecidableEq, Inhabited

namespace Decimal

/-- The exponents beyond which a decimal is taken for zero or for infinity without being computed.
No finite number is as large as 10^400 and no positive one as small as 10^-400. -/
def extremeExponent : Nat := 400

def nearest (negative : Bool) (d : Decimal) : Binary64 :=
  if d.digits = 0 then .zero negative
  else if d.exponent ≥ 0 then
    if d.exponent > extremeExponent then .infinite negative
    else .ofQuanta negative (d.digits * Nat.pow 10 d.exponent.toNat * Binary64.unit) 1
  else
    let places := (-d.exponent).toNat
    if places > extremeExponent + d.digits.log2 then .zero negative
    else .ofQuanta negative (d.digits * Binary64.unit) (Nat.pow 10 places)

end Decimal

end PointerScript
