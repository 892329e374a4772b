import PointerScript.Number.Decimal
import PointerScript.Text.Line

/-! Reading numbers from text.

Digits may come from any script. An underscore may stand between two digits. White space around a
number is dropped. -/

namespace PointerScript

namespace Number

open Text

/-- The digits at the start of a text and the rest. An underscore between two digits is skipped;
`after` says that the character before was a digit. -/
def digitRunFrom (after : Bool) : List Char → List Nat × List Char
  | [] => ([], [])
  | c :: cs =>
    match digitValue? c with
    | some d =>
      let run := digitRunFrom true cs
      (d :: run.1, run.2)
    | none =>
      if after && c == '_' && cs.head?.any isDecimal then digitRunFrom false cs else ([], c :: cs)

def digitRun (cs : List Char) : List Nat × List Char :=
  digitRunFrom false cs

/-- The number written by decimal digits, the highest first. -/
def ofDigits (digits : List Nat) : Nat :=
  digits.foldl (fun n d => 10 * n + d) 0

/-- A sign at the start of a text, true for minus, and the rest. -/
def takeSign : List Char → Bool × List Char
  | '-' :: cs => (true, cs)
  | '+' :: cs => (false, cs)
  | cs => (false, cs)

/-- White space that may stand around a number: the separators U+001C to U+001F may not. -/
def isPadding (c : Char) : Bool :=
  isBlank c && !(0x1c ≤ c.toNat && c.toNat ≤ 0x1f)

/-- The most digits a whole number may have to be written or read. -/
def digitLimit : Nat := 4300

inductive WholeFault where
  | notWhole
  | tooManyDigits (count : Nat)
  deriving DecidableEq

def tooManyDigitsMessage (count : Nat) : String :=
  "Exceeds the limit (" ++ toString digitLimit ++ " digits) for integer string conversion: value has " ++
    toString count ++ " digits; use sys.set_int_max_str_digits() to increase the limit"

/-- The whole number that a text spells. Its digits are counted before what follows them is looked at,
unless that is an underscore. -/
def readWhole (cs : List Char) : Except WholeFault Int :=
  let (negative, body) := takeSign (trimWhile isPadding cs)
  match digitRun body with
  | ([], _) | (_, '_' :: _) => .error .notWhole
  | (digits, rest) =>
    if digits.length > digitLimit then .error (.tooManyDigits digits.length)
    else if rest.isEmpty then .ok (Binary64.signed negative (ofDigits digits))
    else .error .notWhole

/-- The exponent after the mark `e`, and the rest; a text without a mark has exponent 0. -/
def readExponent? : List Char → Option (Int × List Char)
  | 'e' :: cs | 'E' :: cs =>
    let (negative, body) := takeSign cs
    match digitRun body with
    | ([], _) => none
    | (digits, rest) => some (Binary64.signed negative (ofDigits digits), rest)
  | cs => some (0, cs)

def readFraction : List Char → List Nat × List Char
  | '.' :: cs => digitRun cs
  | cs => ([], cs)

def readDecimal? (cs : List Char) : Option Decimal :=
  let (whole, afterWhole) := digitRun cs
  let (fraction, afterFraction) := readFraction afterWhole
  if whole.isEmpty && fraction.isEmpty then none
  else
    match readExponent? afterFraction with
    | some (exponent, []) => some ⟨ofDigits (whole ++ fraction), exponent - fraction.length⟩
    | _ => none

def readNamed? (negative : Bool) (cs : List Char) : Option Binary64 :=
  match String.ofList (cs.map Char.toLower) with
  | "inf" | "infinity" => some (.infinite negative)
  | "nan" => some .nan
  | _ => none

def readBinary64? (cs : List Char) : Option Binary64 :=
  let (negative, body) := takeSign (trimWhile isPadding cs)
  match readNamed? negative body with
  | some x => some x
  | none => (readDecimal? body).map (Decimal.nearest negative)

end Number

end PointerScript
