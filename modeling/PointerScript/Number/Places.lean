import PointerScript.Number.Writing

/-! Writing floating-point numbers with a given number of digits. -/

namespace PointerScript

namespace Number

/-- Digits with zeros before them, so that there are at least `width`. -/
def padDigits (width : Nat) (digits : List Char) : List Char :=
  List.replicate (width - digits.length) '0' ++ digits

/-- The digits before and after a decimal point, which is left out before nothing unless it is
asked for. -/
def withPoint (point : Bool) (whole fraction : List Char) : List Char :=
  if fraction.isEmpty && !point then whole else whole ++ '.' :: fraction

/-- A magnitude has no more decimal places than this, and no more digits between its first and its
last that is not zero. -/
def exactPlaces : Nat := 1074

/-- A magnitude with a fixed number of decimal places, a half going to the even neighbour. -/
def fixedChars (places : Nat) (point : Bool) (quanta : Nat) : List Char :=
  let exact := min places exactPlaces
  let scaled := Binary64.roundDiv (quanta * Nat.pow 10 exact) Binary64.unit
  let digits := padDigits (exact + 1) (digitChars scaled)
  let wholes := digits.length - exact
  withPoint point (digits.take wholes) (digits.drop wholes ++ List.replicate (places - exact) '0')

/-- The `count` leading digits of a magnitude, rounded, and the exponent of the first of them. -/
def leadingDigits (count quanta : Nat) : List Char × Int :=
  let leading := leadingExponent quanta
  let exact := min count exactPlaces
  let zeros := List.replicate (count - exact) '0'
  match decimalNeighbours quanta (leading - exact + 1) with
  | near :: _ =>
    let digits := digitChars near.digits
    if digits.length > exact then (digits.take exact ++ zeros, leading + 1)
    else (padDigits exact digits ++ zeros, leading)
  | [] => ([], 0)

def scientificChars (places : Nat) (point : Bool) (quanta : Nat) : List Char :=
  let (digits, leading) := leadingDigits (places + 1) quanta
  withPoint point (digits.take 1) (digits.drop 1) ++ exponentChars leading

def trimFraction (fraction : List Char) : List Char :=
  (fraction.reverse.dropWhile (· == '0')).reverse

/-- A magnitude with a given number of leading digits: without an exponent part as long as its
leading digit stands no more than four places after the point and its whole part has no more digits
than are given. With `point` the zeros at the end are kept. -/
def generalChars (count : Nat) (point : Bool) (quanta : Nat) : List Char :=
  let count := if point then max 1 count else min (max 1 count) exactPlaces
  let (digits, leading) := leadingDigits count quanta
  let kept (fraction : List Char) : List Char := if point then fraction else trimFraction fraction
  if -4 ≤ leading && leading < count then
    if leading < 0 then
      withPoint point ['0'] (kept (List.replicate (-leading - 1).toNat '0' ++ digits))
    else
      let wholes := leading.toNat + 1
      withPoint point (digits.take wholes) (kept (digits.drop wholes))
  else withPoint point (digits.take 1) (kept (digits.drop 1)) ++ exponentChars leading

end Number

end PointerScript
