import PointerScript.Json.Basic
import PointerScript.Text.Quoted

/-! Writing JSON text: in pieces with one item to a line, or on one line in ASCII. -/

namespace PointerScript

namespace Json

open Text

/-- A character inside a string. With `ascii` everything beyond ASCII is escaped, in two parts if it
lies beyond U+FFFF. -/
def writeChar (ascii : Bool) (c : Char) : List Char :=
  let n := c.toNat
  if c == '"' then ['\\', '"']
  else if c == '\\' then ['\\', '\\']
  else if c == '\n' then ['\\', 'n']
  else if c == '\r' then ['\\', 'r']
  else if c == '\t' then ['\\', 't']
  else if n == 8 then ['\\', 'b']
  else if n == 12 then ['\\', 'f']
  else if n < 0x20 then '\\' :: 'u' :: hexDigits 4 n
  else if ascii && n ≥ 0x7f then
    if n < 0x10000 then '\\' :: 'u' :: hexDigits 4 n
    else
      let m := n - 0x10000
      ('\\' :: 'u' :: hexDigits 4 (0xd800 + m / 0x400)) ++ ('\\' :: 'u' :: hexDigits 4 (0xdc00 + m % 0x400))
  else [c]

def writePoint : CodePoint → WideText
  | .char c => .ofChars (writeChar false c)
  | .half place => [.half place]

def writeString (text : WideText) : WideText :=
  .char '"' :: (text.flatMap writePoint ++ [.char '"'])

def writePointAscii : CodePoint → List Char
  | .char c => writeChar true c
  | .half place => '\\' :: 'u' :: hexDigits 4 (CodePoint.half place).code

def writeStringAscii (text : WideText) : String :=
  "\"" ++ String.ofList (text.flatMap writePointAscii) ++ "\""

def writeNumber : Number → String
  | .float .nan => "NaN"
  | .float (.infinite negative) => if negative then "-Infinity" else "Infinity"
  | n => n.text

/-- A line break and four spaces for each level. -/
def newline (level : Nat) : WideText :=
  .ofChars ('\n' :: List.replicate (4 * level) ' ')

/-- A value that has no parts and is no text. -/
def writePlain : Json → String
  | null => "null"
  | bool b => if b then "true" else "false"
  | num n => writeNumber n
  | arr _ => "[]"
  | obj _ => "\x7b\x7d"
  | str _ => ""

mutual

/-- The pieces in which a value is written with one item to a line. The text that leads to an item of an
array is one piece with the item, unless the item has parts. -/
def piecesAt (level : Nat) (lead : WideText) : Json → List WideText
  | arr (item :: items) =>
    lead :: itemPieces (level + 1) (.char '[' :: newline (level + 1)) (item :: items) ++ [newline level ++ [.char ']']]
  | obj (entry :: entries) =>
    lead :: entryPieces (level + 1) (.char '\x7b' :: newline (level + 1)) (entry :: entries) ++
      [newline level ++ [.char '\x7d']]
  | str text => [lead ++ writeString text]
  | json => [lead ++ .ofChars json.writePlain.toList]

/-- The pieces of the items of an array; `lead` is the text before the first. -/
def itemPieces (level : Nat) (lead : WideText) : List Json → List WideText
  | [] => []
  | item :: items => piecesAt level lead item ++ itemPieces level (.char ',' :: newline level) items

def entryPieces (level : Nat) (lead : WideText) : List (WideText × Json) → List WideText
  | [] => []
  | (key, value) :: entries =>
    lead :: writeString key :: [.char ':', .char ' '] :: piecesAt level [] value ++
      entryPieces level (.char ',' :: newline level) entries

end

def pieces (json : Json) : List WideText :=
  piecesAt 0 [] json

mutual

def appendLine (out : String) : Json → String
  | arr (item :: items) => appendItems (appendLine (out ++ "[") item) items ++ "]"
  | obj ((key, value) :: entries) =>
    appendEntries (appendLine (out ++ "\x7b" ++ writeStringAscii key ++ ":") value) entries ++ "\x7d"
  | str text => out ++ writeStringAscii text
  | json => out ++ json.writePlain

def appendItems (out : String) : List Json → String
  | [] => out
  | item :: items => appendItems (appendLine (out ++ ",") item) items

def appendEntries (out : String) : List (WideText × Json) → String
  | [] => out
  | (key, value) :: entries =>
    appendEntries (appendLine (out ++ "," ++ writeStringAscii key ++ ":") value) entries

end

/-- A value on one line, in ASCII. -/
def writeLine (json : Json) : String :=
  appendLine "" json

end Json

end PointerScript
