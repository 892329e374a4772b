/-! Floating-point numbers with 53 significant bits, held exactly.

A finite magnitude is known by its rank among all finite magnitudes, zero having rank 0. The ranks
below 2^52 are the subnormal numbers; after them every 2^52 ranks the distance between neighbours
doubles. All finite numbers are whole multiples of 2^-1074, called quanta here, so every operation is
exact arithmetic on natural numbers followed by one rounding. -/

namespace PointerScript

abbrev Binary64.magnitudes : Nat := 2047 * Nat.pow 2 52

/-- A floating-point number. There is one NaN. -/
inductive Binary64 where
  | nan
  | infinite (negative : Bool)
  | finite (negative : Bool) (rank : Fin Binary64.magnitudes)
  deriving DecidableEq

namespace Binary64

/-- How many quanta make one. -/
def unit : Nat := Nat.pow 2 1074

/-- The magnitude of a rank, in quanta. -/
def quantaOfRank (rank : Nat) : Nat :=
  if rank < Nat.pow 2 52 then rank
  else (Nat.pow 2 52 + rank % Nat.pow 2 52) * Nat.pow 2 (rank / Nat.pow 2 52 - 1)

/-- The quotient to the nearest whole number, a half going to the even neighbour. -/
def roundDiv (num den : Nat) : Nat :=
  let quotient := num / den
  let twice := 2 * (num % den)
  if twice < den then quotient
  else if den < twice then quotient + 1
  else if quotient % 2 = 0 then quotient
  else quotient + 1

/-- The rank nearest to `num / den` quanta; it may lie beyond the finite magnitudes. -/
def nearestRank (num den : Nat) : Nat :=
  let shift := Nat.log2 (num / den) - 52
  shift * Nat.pow 2 52 + roundDiv num (den * Nat.pow 2 shift)

/-- The number of a rank, infinite beyond the finite magnitudes. -/
def ofRank (negative : Bool) (rank : Nat) : Binary64 :=
  if h : rank < magnitudes then .finite negative ⟨rank, h⟩ else .infinite negative

/-- The number nearest to `num / den` quanta. -/
def ofQuanta (negative : Bool) (num den : Nat) : Binary64 :=
  ofRank negative (nearestRank num den)

def zero (negative : Bool) : Binary64 :=
  ofRank negative 0

instance : Inhabited Binary64 := ⟨zero false⟩

def signed (negative : Bool) (magnitude : Nat) : Int :=
  if negative then -(magnitude : Int) else magnitude

/-- A finite number in quanta. -/
def quanta? : Binary64 → Option Int
  | finite negative rank => some (signed negative (quantaOfRank rank))
  | _ => none

/-- Whether the number carries a minus sign; NaN carries none. -/
def isNegative : Binary64 → Bool
  | nan => false
  | infinite negative => negative
  | finite negative _ => negative

def ofInt (n : Int) : Binary64 :=
  ofQuanta (n < 0) (n.natAbs * unit) 1

def neg : Binary64 → Binary64
  | nan => nan
  | infinite negative => infinite !negative
  | finite negative rank => finite (!negative) rank

/-- The sum. A sum of zero is negative only if both terms are. -/
def add : Binary64 → Binary64 → Binary64
  | nan, _ => nan
  | _, nan => nan
  | infinite a, infinite b => if a = b then infinite a else nan
  | infinite a, finite _ _ => infinite a
  | finite _ _, infinite b => infinite b
  | finite a m, finite b n =>
    let sum := signed a (quantaOfRank m) + signed b (quantaOfRank n)
    if sum = 0 then zero (a && b) else ofQuanta (sum < 0) sum.natAbs 1

def sub (x y : Binary64) : Binary64 :=
  add x (neg y)

def isZero : Binary64 → Bool
  | finite _ rank => rank.val = 0
  | _ => false

def mul : Binary64 → Binary64 → Binary64
  | nan, _ => nan
  | _, nan => nan
  | infinite a, infinite b => infinite (a != b)
  | infinite a, finite b n => if n.val = 0 then nan else infinite (a != b)
  | finite a m, infinite b => if m.val = 0 then nan else infinite (a != b)
  | finite a m, finite b n => ofQuanta (a != b) (quantaOfRank m * quantaOfRank n) unit

/-- The quotient by a divisor that is not zero. -/
def div : Binary64 → Binary64 → Binary64
  | nan, _ => nan
  | _, nan => nan
  | infinite _, infinite _ => nan
  | infinite a, finite b _ => infinite (a != b)
  | finite a _, infinite b => zero (a != b)
  | finite a m, finite b n => ofQuanta (a != b) (quantaOfRank m * unit) (quantaOfRank n)

def truncate? (x : Binary64) : Option Int :=
  x.quanta?.map fun q => Int.tdiv q unit

/-- Rounds to `places` decimal places, a tie going to the even neighbour, and takes the number
nearest to that decimal. -/
def roundPlaces (places : Nat) : Binary64 → Binary64
  | finite negative rank =>
    ofQuanta negative (roundDiv (quantaOfRank rank * Nat.pow 10 places) unit * unit) (Nat.pow 10 places)
  | x => x

end Binary64

end PointerScript
