import PointerScript.Key
import PointerScript.Number.Mixed

/-! Codes of keys as the window system numbers them, and the keys they stand for. -/

namespace PointerScript

namespace KeyCode

/-- The special keys with their codes, but for the function keys. -/
def plainCodes : List (Int × SpecialKey) :=
  [(0x1000020, .shift), (0x1000021, .ctrl), (0x1000023, .alt), (0x1001103, .altRight),
    (0x1000013, .up), (0x1000015, .down), (0x1000012, .left), (0x1000014, .right),
    (0x1000010, .home), (0x1000011, .endOfLine), (0x1000016, .pageUp), (0x1000017, .pageDown),
    (0x1000006, .insert), (0x1000007, .delete), (0x1000004, .enter), (0x1000005, .enter),
    (0x1000001, .tab), (32, .space), (0x1000000, .escape)]

def functionCodes : List (Int × SpecialKey) :=
  (List.finRange 12).map fun n => (0x1000030 + (n.val : Int), .function n)

def specialCodes : List (Int × SpecialKey) :=
  plainCodes ++ functionCodes

/-- The symbols whose keys are known by their ASCII codes. -/
def symbols : List Char :=
  ",./;`-=[]\\'".toList

def space : Int := 32
def escape : Int := 0x1000000

/-- The letters and digits, whose keys are known by the ASCII codes of the capitals and digits. -/
def isLetter (code : Number) : Bool :=
  (Number.int 65).le code && code.le (.int 90)

def isDigit (code : Number) : Bool :=
  (Number.int 48).le code && code.le (.int 57)

inductive Fault where
  | notComparable (kind : String)
  | notWhole
  | unhashable (kind : String)
  deriving DecidableEq

namespace Fault

def message : Fault → String
  | notComparable kind => "'<=' not supported between instances of 'Key' and '" ++ kind ++ "'"
  | notWhole => "'float' object cannot be interpreted as an integer"
  | unhashable kind => "unhashable type: '" ++ kind ++ "'"

end Fault

/-- What is given for a code: a number, a text, or something of another kind. Lists and tables cannot
be looked up in a set. -/
inductive Given where
  | number (value : Number)
  | text (value : String)
  | other (kind : String)
  deriving DecidableEq

def Given.kind : Given → String
  | number _ => "int"
  | text _ => "str"
  | other kind => kind

def charOf (code : Number) : Except Fault Char :=
  match code with
  | .int n => .ok (Char.ofNat n.toNat)
  | .float _ => .error .notWhole

def keyOf (code : Number) : Except Fault (Option Key) :=
  if isLetter code then do
    let c ← charOf code
    return some (.char (String.singleton c.toLower))
  else if isDigit code then do
    let c ← charOf code
    return some (.char (String.singleton c))
  else
    match symbols.find? fun c => code.eqv (.int c.toNat) with
    | some c => .ok (some (.char (String.singleton c)))
    | none =>
      match specialCodes.find? fun entry => code.eqv (.int entry.1) with
      | some entry => .ok (some (.special entry.2))
      | none => .ok none

def member (set : List Given) (given : Given) : Except Fault Bool :=
  match given with
  | .number n =>
    .ok (set.any fun
      | .number m => n.eqv m
      | _ => false)
  | .other "list" => .error (.unhashable "list")
  | .other "dict" => .error (.unhashable "dict")
  | given => .ok (set.contains given)

/-- The key that a code stands for, if the code passes a filter. An empty filter lets everything
pass. -/
def filtered (filter : List Given) (given : Given) : Except Fault (Option Key) := do
  let passes ← if filter.isEmpty then pure true else member filter given
  if !passes then return none
  match given with
  | .number code => keyOf code
  | given => throw (.notComparable given.kind)

def toKey? (code : Int) : Option Key :=
  (keyOf (.int code)).toOption.join

/-- The codes that may be chosen as a pause key, with the names of their keys. -/
def allowed : List (Int × String) :=
  [(0x1000005, "Enter"), (32, "Space"), (0x1000001, "Tab"), (0x1000013, "Up"), (0x1000015, "Down"),
    (0x1000012, "Left"), (0x1000014, "Right")] ++
    ((List.range 12).map fun n : Nat => ((0x1000030 + n : Int), "F" ++ toString (n + 1))) ++
    ((List.range 26).map fun n : Nat => ((65 + n : Int), String.singleton (Char.ofNat (65 + n)))) ++
    ((List.range 10).map fun n : Nat => ((48 + n : Int), toString n)) ++ [(45, "Minus")]

def allowedSet : List Given :=
  allowed.map fun entry => .number (.int entry.1)

def allowedCodes : List Int :=
  (allowed.map (·.1)).mergeSort (· ≤ ·)

def isAllowed (code : Int) : Bool :=
  allowed.any (·.1 = code)

def allowedTexts : List String :=
  (allowed.map fun entry => "<Key.Key_" ++ entry.2 ++ ": " ++ toString entry.1 ++ ">").mergeSort (· ≤ ·)

end KeyCode

end PointerScript
