/-! Cutting text at a separator. -/

namespace PointerScript.Text

def breakAt? (sep : List Char) : List Char → Option (List Char × List Char)
  | [] => if sep.isEmpty then some ([], []) else none
  | c :: cs =>
    if sep.isPrefixOf (c :: cs) then some ([], (c :: cs).drop sep.length)
    else (breakAt? sep cs).map fun parts => (c :: parts.1, parts.2)

/-- The pieces of a text between separators, after at most `cuts` cuts from the left. -/
def splitAtMost (sep : List Char) : Nat → List Char → List (List Char)
  | 0, cs => [cs]
  | cuts + 1, cs =>
    match breakAt? sep cs with
    | none => [cs]
    | some (piece, rest) => piece :: splitAtMost sep cuts rest

def split (sep cs : List Char) : List (List Char) :=
  splitAtMost sep cs.length cs

def join (sep : String) (pieces : List String) : String :=
  String.intercalate sep pieces

end PointerScript.Text
