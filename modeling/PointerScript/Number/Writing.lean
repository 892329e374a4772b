import PointerScript.Number.Reading

/-! Writing floating-point numbers with the fewest digits that read back as the same number.

For one digit, two digits and so on, the two neighbours of the number among the decimals with that
many digits are tried, the nearer one first. The first that reads back is the text. -/

namespace PointerScript

namespace Number

def digitChars (n : Nat) : List Char :=
  Nat.toDigits 10 n

/-- How a decimal is laid out: the leading exponents that are written without an exponent part. -/
structure Layout where
  leastPositional : Int
  mostPositional : Int

/-- Numbers from 0.0001 up to below 10^16 are written without an exponent part. -/
def standardLayout : Layout := ⟨-4, 15⟩

/-- An exponent part: a sign and at least two digits. -/
def exponentChars (e : Int) : List Char :=
  let digits := digitChars e.natAbs
  'e' :: (if e < 0 then '-' else '+') :: (if digits.length < 2 then '0' :: digits else digits)

/-- Drops zeros from the end, keeping at least one digit. -/
def dropTrailingZeros (digits : List Char) : List Char :=
  match digits.reverse.dropWhile (· == '0') with
  | [] => ['0']
  | kept => kept.reverse

/-- The text of a decimal that is not negative. A whole number keeps a fraction of one zero unless
it has an exponent part. -/
def Layout.write (layout : Layout) (d : Decimal) : List Char :=
  let all := digitChars d.digits
  let leading : Int := d.exponent + all.length - 1
  let digits := dropTrailingZeros all
  if layout.leastPositional ≤ leading && leading ≤ layout.mostPositional then
    if leading < 0 then
      '0' :: '.' :: (List.replicate (-leading - 1).toNat '0' ++ digits)
    else
      let places := leading.toNat + 1
      if digits.length ≤ places then
        digits ++ List.replicate (places - digits.length) '0' ++ ['.', '0']
      else digits.take places ++ '.' :: digits.drop places
  else
    let mantissa :=
      match digits with
      | [one] => [one]
      | first :: rest => first :: '.' :: rest
      | [] => []
    mantissa ++ exponentChars leading

/-- The exponent of the leading decimal digit of a number of quanta, by way of an estimate from its
binary length; 0 for zero. -/
def leadingExponent (quanta : Nat) : Int :=
  if quanta = 0 then 0 else
  let estimate := Int.fdiv (((quanta.log2 : Int) - 1074) * 30103) 100000
  let reached :=
    if estimate + 1 ≥ 0 then quanta ≥ Nat.pow 10 (estimate + 1).toNat * Binary64.unit
    else quanta * Nat.pow 10 (-(estimate + 1)).toNat ≥ Binary64.unit
  if reached then estimate + 1 else estimate

/-- The two decimals with the given exponent around a number of quanta, the nearer one first and on
a tie the even one. -/
def decimalNeighbours (quanta : Nat) (exponent : Int) : List Decimal :=
  let num := if exponent ≥ 0 then quanta else quanta * Nat.pow 10 (-exponent).toNat
  let den := if exponent ≥ 0 then Binary64.unit * Nat.pow 10 exponent.toNat else Binary64.unit
  let below := num / den
  let near := Binary64.roundDiv num den
  let far := if near = below then below + 1 else below
  [⟨near, exponent⟩, ⟨far, exponent⟩]

/-- The decimals tried for a number of quanta, those with few digits first. -/
def decimalCandidates (quanta : Nat) : List Decimal :=
  let leading := leadingExponent quanta
  (List.range 17).flatMap fun n : Nat => decimalNeighbours quanta (leading - n)

def exactDecimal (quanta : Nat) : Decimal :=
  ⟨quanta * Nat.pow 5 1074, -1074⟩

def magnitudeChars (rank : Fin Binary64.magnitudes) : List Char :=
  let quanta := Binary64.quantaOfRank rank
  let texts := (decimalCandidates quanta).map standardLayout.write
  match texts.find? fun text => readBinary64? text == some (.finite false rank) with
  | some text => text
  | none => standardLayout.write (exactDecimal quanta)

def binary64Chars : Binary64 → List Char
  | .nan => ['n', 'a', 'n']
  | .infinite negative => (if negative then ['-'] else []) ++ ['i', 'n', 'f']
  | .finite negative rank => (if negative then ['-'] else []) ++ magnitudeChars rank

def intChars (n : Int) : List Char :=
  (if n < 0 then ['-'] else []) ++ digitChars n.natAbs

end Number

end PointerScript
