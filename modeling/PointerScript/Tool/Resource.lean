import PointerScript.Text.Split

/-! Paths of the files that belong to the program. -/

namespace PointerScript

/-- A path: where it is anchored, and the steps from there. The empty anchor is the working
directory. -/
structure ResourcePath where
  anchor : String
  steps : List String
  deriving DecidableEq

namespace ResourcePath

/-- The steps of a path text: the parts between slashes, without empty ones and single dots. -/
def stepsOf (text : List Char) : List String :=
  ((Text.splitAtMost ['/'] text.length text).map String.ofList).filter fun step =>
    step ≠ "" && step ≠ "."

/-- Where a path text is anchored: nowhere, at the root, or at a root of two slashes. -/
def anchorOf : List Char → String
  | '/' :: '/' :: '/' :: _ => "/"
  | '/' :: '/' :: _ => "//"
  | '/' :: _ => "/"
  | _ => ""

def parse (text : String) : ResourcePath where
  anchor := anchorOf text.toList
  steps := stepsOf text.toList

/-- A path seen from another one; an anchored path stands for itself. -/
def join (base path : ResourcePath) : ResourcePath :=
  if path.anchor = "" then { base with steps := base.steps ++ path.steps } else path

def text (p : ResourcePath) : String :=
  let body := "/".intercalate p.steps
  if p.anchor = "" then (if p.steps.isEmpty then "." else body)
  else if p.steps.isEmpty then p.anchor
  else if p.anchor.endsWith "/" then p.anchor ++ body
  else p.anchor ++ "/" ++ body

def projectRoot : ResourcePath := ⟨"<root>", []⟩

/-- The path of a file of the program: inside the bundle, if the program runs from one, else inside
the project. -/
def resolve (bundle : Option String) (relative : String) : ResourcePath :=
  let base := match bundle with
    | some directory => parse directory
    | none => projectRoot
  base.join (parse relative)

end ResourcePath

end PointerScript
