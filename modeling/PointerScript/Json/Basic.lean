import PointerScript.Number.Mixed
import PointerScript.Text.Surrogate

/-! Values of the JSON format. Whole numbers and numbers with a fraction or an exponent are told
apart. -/

namespace PointerScript

/-- A JSON value. The entries of an object keep their order. -/
inductive Json where
  | null
  | bool (value : Bool)
  | num (value : Number)
  | str (value : Text.WideText)
  | arr (items : List Json)
  | obj (entries : List (Text.WideText × Json))
  deriving Inhabited

namespace Json

def get? (json : Json) (key : String) : Option Json :=
  match json with
  | obj entries => entries.lookup (.ofChars key.toList)
  | _ => none

def int (n : Int) : Json := num (.int n)

def nat (n : Nat) : Json := num (.int n)

end Json

end PointerScript
