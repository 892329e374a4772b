import PointerScript.Json.Shown
import PointerScript.Number.Places

/-! Messages with places that are filled with values.

A place starts with a percent sign. Then follow, all optional but the last: a key in parentheses,
flags, a least width, a precision after a point, and the letter that says how the value is written. -/

namespace PointerScript

namespace Template

structure Place where
  left : Bool := false
  plus : Bool := false
  blank : Bool := false
  alternate : Bool := false
  zero : Bool := false
  width : Nat := 0
  precision : Option Nat := none
  letter : Char := 's'

/-- The values to come: those of a list, or the entries of a table with the value that was looked up
last and is not used yet. -/
inductive Values where
  | list (values : List Json)
  | table (entries : List (Text.WideText × Json)) (current : Option Json)

def Values.next? : Values → Option (Json × Values)
  | list [] => none
  | list (v :: rest) => some (v, list rest)
  | table entries current => current.map fun v => (v, table entries none)

/-- Nothing may be left over of a list. -/
def Values.isDone : Values → Bool
  | list values => values.isEmpty
  | table _ _ => true

/-- The values of a message: a table alone in the list is taken for its entries. -/
def Values.ofList : List Json → Values
  | [.obj (e :: rest)] => table (e :: rest) (some (.obj (e :: rest)))
  | values => list values

/-- The text up to the parenthesis that closes a key, and the rest after it; `depth` counts the
parentheses that were opened inside. -/
def takeKey? : Nat → List Char → Option (List Char × List Char)
  | _, [] => none
  | depth, c :: cs =>
    if c == ')' then
      match depth with
      | 0 => some ([], cs)
      | depth + 1 => (takeKey? depth cs).map fun r => (c :: r.1, r.2)
    else (takeKey? (if c == '(' then depth + 1 else depth) cs).map fun r => (c :: r.1, r.2)

def readKey? (values : Values) : List Char → Option (Values × List Char)
  | '(' :: cs =>
    match values with
    | .list _ => none
    | .table entries _ => do
      let (key, rest) ← takeKey? 0 cs
      let value ← entries.lookup (.ofText (String.ofList key))
      return (.table entries (some value), rest)
  | cs => some (values, cs)

def readFlags (p : Place) : List Char → Place × List Char
  | '-' :: cs => readFlags { p with left := true } cs
  | '+' :: cs => readFlags { p with plus := true } cs
  | ' ' :: cs => readFlags { p with blank := true } cs
  | '#' :: cs => readFlags { p with alternate := true } cs
  | '0' :: cs => readFlags { p with zero := true } cs
  | cs => (p, cs)

def wholeOf? : Json → Option Int
  | .num (.int n) => some n
  | .bool b => some (if b then 1 else 0)
  | _ => none

def sizeLimit : Int := (Nat.pow 2 31 : Nat)

/-- Refuses a size that is too large or too far below zero. -/
def checkSize? (n : Int) : Option Int :=
  if -sizeLimit ≤ n && n < sizeLimit then some n else none

/-- There is no room for a text of this length or longer. -/
def room : Nat := Nat.pow 2 24

/-- Reads a size: digits, or a star for the next value. -/
def readSize? (values : Values) : List Char → Option (Int × Values × List Char)
  | '*' :: cs => do
    let (v, values) ← values.next?
    let n ← (wholeOf? v).bind checkSize?
    return (n, values, cs)
  | cs => do
    let digits := (cs.takeWhile Char.isDigit).filterMap Text.digitValue?
    let n ← checkSize? (Number.ofDigits digits : Nat)
    return (n, values, cs.dropWhile Char.isDigit)

def readPrecision? (p : Place) (values : Values) : List Char → Option (Place × Values × List Char)
  | '.' :: cs => do
    let (n, values, cs) ← readSize? values cs
    return ({ p with precision := some n.toNat }, values, cs)
  | cs => some (p, values, cs)

def skipLength : List Char → List Char
  | 'h' :: cs | 'l' :: cs | 'L' :: cs => cs
  | cs => cs

def readPlace? (values : Values) (cs : List Char) : Option (Place × Values × List Char) := do
  let (values, cs) ← readKey? values cs
  let (p, cs) := readFlags {} cs
  let (width, values, cs) ← readSize? values cs
  guard (width.natAbs < room)
  let p := { p with left := p.left || width < 0, width := width.natAbs }
  let (p, values, cs) ← readPrecision? p values cs
  match skipLength cs with
  | [] => none
  | letter :: rest => some ({ p with letter := letter }, values, rest)

/-- A value as it is written before it is brought to its width: a sign, a mark of its base, and the
rest. -/
structure Written where
  sign : List Char := []
  mark : List Char := []
  body : List Char

def signOf (p : Place) (negative : Bool) : List Char :=
  if negative then ['-'] else if p.plus then ['+'] else if p.blank then [' '] else []

def asciiOnly (cs : List Char) : List Char :=
  cs.flatMap fun c =>
    if c.toNat < 0x80 then [c] else Text.escapedCode (Text.codeOfChar c)

def writeText (p : Place) (cs : List Char) : Written :=
  { body := match p.precision with
      | some n => cs.take n
      | none => cs }

/-- A whole number in a base, if there is room for it; the precision is the least number of digits. -/
def writeWhole? (p : Place) (base : Nat) (mark : List Char) (n : Int) : Option Written :=
  let least := p.precision.getD 0
  if room ≤ least then none
  else some
    { sign := signOf p (n < 0)
      mark := if p.alternate then mark else []
      body := Number.padDigits least (Nat.toDigits base n.natAbs) }

def Written.upper (w : Written) : Written :=
  { w with body := w.body.map Char.toUpper }

/-- How the digits of a floating-point number are laid out: with a fixed number of decimal places, with
an exponent part, or in the shorter way of the two. -/
inductive Layout where
  | fixed
  | scientific
  | general
  deriving DecidableEq

def Layout.chars : Layout → Nat → Bool → Nat → List Char
  | .fixed => Number.fixedChars
  | .scientific => Number.scientificChars
  | .general => Number.generalChars

/-- The precision a layout works with, if there is room for its digits. Zeros at the end that are dropped
take no room. Before an exponent part there is one digit more than the precision says, and where their
number would be no size, there is one. -/
def Layout.precision? (layout : Layout) (p : Place) : Option Nat :=
  let n := p.precision.getD 6
  if layout = .scientific && sizeLimit ≤ n + 1 then some 0
  else if n < room || (layout = .general && !p.alternate) then some n
  else none

def writeFloat? (p : Place) (layout : Layout) (x : Binary64) : Option Written :=
  match x with
  | .nan => some { sign := signOf p false, body := "nan".toList }
  | .infinite negative => some { sign := signOf p negative, body := "inf".toList }
  | .finite negative rank =>
    (layout.precision? p).map fun n =>
      { sign := signOf p negative
        body := layout.chars n p.alternate (Binary64.quantaOfRank rank) }

def floatOf? : Json → Option Binary64
  | .num n => n.toFloat.toOption
  | .bool b => some (.ofInt (if b then 1 else 0))
  | _ => none

def truncated? : Json → Option Int
  | .num n => n.truncate.toOption
  | json => wholeOf? json

def charOf? : Json → Option Char
  | .str s =>
    match s.toText.toList with
    | [c] => some c
    | _ => none
  | json => do
    let n ← wholeOf? json
    if 0 ≤ n && n ≤ 0x10ffff then some (Text.charOfCode n.toNat) else none

def write? (p : Place) (value : Json) : Option Written :=
  match p.letter with
  | 's' => some (writeText p value.text.toList)
  | 'r' => some (writeText p value.shown.toList)
  | 'a' => some (writeText p (asciiOnly value.shown.toList))
  | 'd' | 'i' | 'u' => (truncated? value).bind (writeWhole? p 10 [])
  | 'o' => (wholeOf? value).bind (writeWhole? p 8 ['0', 'o'])
  | 'x' => (wholeOf? value).bind (writeWhole? p 16 ['0', 'x'])
  | 'X' => ((wholeOf? value).bind (writeWhole? p 16 ['0', 'X'])).map Written.upper
  | 'f' => (floatOf? value).bind (writeFloat? p .fixed)
  | 'e' => (floatOf? value).bind (writeFloat? p .scientific)
  | 'g' => (floatOf? value).bind (writeFloat? p .general)
  | 'F' => ((floatOf? value).bind (writeFloat? p .fixed)).map Written.upper
  | 'E' => ((floatOf? value).bind (writeFloat? p .scientific)).map Written.upper
  | 'G' => ((floatOf? value).bind (writeFloat? p .general)).map Written.upper
  | 'c' => (charOf? value).map fun c => { body := [c] }
  | _ => none

/-- Whether the letter of a place writes a number; only numbers are filled up with zeros. -/
def isNumeric (letter : Char) : Bool :=
  "diuoxXfFeEgG".toList.contains letter

def Written.fit (p : Place) (w : Written) : List Char :=
  let missing := p.width - (w.sign.length + w.mark.length + w.body.length)
  if p.zero && isNumeric p.letter then
    if p.left then w.sign ++ w.mark ++ w.body ++ List.replicate missing ' '
    else w.sign ++ w.mark ++ List.replicate missing '0' ++ w.body
  else if p.left then w.sign ++ w.mark ++ w.body ++ List.replicate missing ' '
  else List.replicate missing ' ' ++ w.sign ++ w.mark ++ w.body

/-- Fills the places of a text one after another; two percent signs stand for one. The fuel bounds the number of characters read. -/
def fillFrom : Nat → Values → List Char → Option (List Char)
  | _, values, [] => if values.isDone then some [] else none
  | 0, _, _ :: _ => none
  | fuel + 1, values, '%' :: '%' :: cs => (fillFrom fuel values cs).map ('%' :: ·)
  | fuel + 1, values, c :: cs =>
    if c != '%' then (fillFrom fuel values cs).map (c :: ·)
    else do
      let (p, values, rest) ← readPlace? values cs
      let (v, values) ← values.next?
      let w ← write? p v
      let filled ← fillFrom fuel values rest
      return w.fit p ++ filled

/-- A text with its places filled. There is none if a place cannot be read, if a value does not fit
its place, or if there are too few or too many values. -/
def fill? (template : String) (values : List Json) : Option String :=
  (fillFrom template.toList.length (Values.ofList values) template.toList).map String.ofList

end Template

end PointerScript
