import PointerScript.Text.Character

/-! Names of variables. -/

namespace PointerScript

/-- Whether a text can name a variable: a letter or underscore, then letters, digits and
underscores. One line feed may follow. -/
def isVariableName (s : String) : Bool :=
  match s.toList with
  | [] => false
  | c :: cs =>
    let rest := cs.dropWhile Text.isNameChar
    Text.isNameStart c && (rest == [] || rest == ['\n'])

end PointerScript
