import PointerScript.Json.Shown

/-! Reading parts of a JSON value, with a fallback where a part is missing or of another kind. -/

namespace PointerScript.Json

def str? : Json → Option String
  | str s => some s.toText
  | _ => none

/-- A number; true and false count as 1 and 0. -/
def num? : Json → Option Number
  | num n => some n
  | bool b => some (.int (if b then 1 else 0))
  | _ => none

/-- A whole number; fractions are dropped. -/
def int? (json : Json) : Option Int :=
  json.num?.bind fun n => n.truncate.toOption

def items : Json → List Json
  | arr items => items
  | _ => []

def entries : Json → List (Text.WideText × Json)
  | obj entries => entries
  | _ => []

/-- The value of a key, null if there is none. -/
def field (json : Json) (key : String) : Json :=
  (json.get? key).getD null

def has (json : Json) (key : String) : Bool :=
  (json.get? key).isSome

def strD (json : Json) (key fallback : String) : String :=
  ((json.get? key).bind str?).getD fallback

def numD (json : Json) (key : String) (fallback : Number) : Number :=
  ((json.get? key).bind num?).getD fallback

def intD (json : Json) (key : String) (fallback : Int) : Int :=
  ((json.get? key).bind int?).getD fallback

def flagD (json : Json) (key : String) (fallback : Bool) : Bool :=
  ((json.get? key).map truthy).getD fallback

def listD (json : Json) (key : String) : List Json :=
  (json.field key).items

end PointerScript.Json
