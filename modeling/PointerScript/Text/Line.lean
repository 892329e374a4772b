import PointerScript.Text.Character

/-! Cutting text into lines and bringing one line into its plain form. -/

namespace PointerScript.Text

def trimWhile (among : Char → Bool) (cs : List Char) : List Char :=
  ((cs.dropWhile among).reverse.dropWhile among).reverse

def trim (cs : List Char) : List Char :=
  trimWhile isBlank cs

/-- Writes one space for every run of blanks; `after` says that the character before was a blank. -/
def collapseFrom (after : Bool) : List Char → List Char
  | [] => []
  | c :: cs =>
    if isBlank c then
      if after then collapseFrom true cs else ' ' :: collapseFrom true cs
    else c :: collapseFrom false cs

def collapse (cs : List Char) : List Char :=
  collapseFrom false cs

/-- The lines of a text. A line end closes its line, so the text after the last one is a line only
if it is not empty; a carriage return and the line feed after it are one line end. -/
def lines : List Char → List (List Char)
  | [] => []
  | '\r' :: '\n' :: cs => [] :: lines cs
  | c :: cs =>
    if isLineEnd c then [] :: lines cs
    else
      match lines cs with
      | [] => [[c]]
      | line :: rest => (c :: line) :: rest

/-- Reads every carriage return, alone or before a line feed, as a line feed. -/
def unifyNewlines : List Char → List Char
  | [] => []
  | '\r' :: '\n' :: cs => '\n' :: unifyNewlines cs
  | c :: cs => (if c == '\r' then '\n' else c) :: unifyNewlines cs

end PointerScript.Text
