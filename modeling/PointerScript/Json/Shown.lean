import PointerScript.Json.Basic
import PointerScript.Text.Quoted

/-! JSON values as messages show them. -/

namespace PointerScript.Json

mutual

/-- A value as messages show it inside another value: texts stand in quotes. -/
def shown : Json → String
  | null => "None"
  | bool true => "True"
  | bool false => "False"
  | num n => n.text
  | str s => Text.quoted s.toText
  | arr items => "[" ++ ", ".intercalate (shownItems items) ++ "]"
  | obj entries => "\x7b" ++ ", ".intercalate (shownEntries entries) ++ "\x7d"

def shownItems : List Json → List String
  | [] => []
  | item :: rest => item.shown :: shownItems rest

def shownEntries : List (Text.WideText × Json) → List String
  | [] => []
  | (key, value) :: rest => (Text.quoted key.toText ++ ": " ++ value.shown) :: shownEntries rest

end

/-- A value as messages show it on its own: a text is itself. -/
def text : Json → String
  | str s => s.toText
  | json => json.shown

/-- Whether a value counts as true. Zeros, empty texts, empty lists, empty objects and null do not. -/
def truthy : Json → Bool
  | null => false
  | bool b => b
  | num n => !n.eqv (.int 0)
  | str s => !s.isEmpty
  | arr items => !items.isEmpty
  | obj entries => !entries.isEmpty

end PointerScript.Json
