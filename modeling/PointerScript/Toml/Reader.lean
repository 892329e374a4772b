import PointerScript.Number.Reading
import PointerScript.Text.Split
import PointerScript.Toml.Basic

/-! Reading TOML documents. -/

namespace PointerScript

namespace Toml

open Text

/-- Why a reader stopped: for a reason, with so many characters left, or because of a limit. -/
inductive Stop where
  | refused (reason : TomlReason) (left : Nat)
  | limit (cause : TomlLimit)

abbrev Attempt := Except Stop

def failAt {α : Type} (reason : TomlReason) (rest : List Char) : Attempt α :=
  .error (.refused reason rest.length)

def isGap (c : Char) : Bool := c == ' ' || c == '\t'

def isGapOrLine (c : Char) : Bool := isGap c || c == '\n'

def isBareKey (c : Char) : Bool := c.isAlphanum || c == '-' || c == '_'

/-- Characters that control devices. Tabs are not among them, nor line ends where `lines` are
allowed. -/
def isControl (lines : Bool) (c : Char) : Bool :=
  (c.toNat < 32 || c.toNat == 127) && c != '\t' && !(lines && c == '\n')

def skipGap (cs : List Char) : List Char := cs.dropWhile isGap

def checkPlain (lines : Bool) (before rest : List Char) : Attempt Unit :=
  match before.dropWhile fun c => !isControl lines c with
  | [] => .ok ()
  | c :: more => failAt (.invalidCharacter c) (c :: more ++ rest)

def skipComment (cs : List Char) : Attempt (List Char) :=
  match cs with
  | '#' :: more => do
    let rest := more.dropWhile (· != '\n')
    checkPlain false (more.takeWhile (· != '\n')) rest
    return rest
  | _ => .ok cs

/-- Skips blanks, line ends and comments; `inside` says that a comment goes on. -/
def skipLinesFrom (inside : Bool) : List Char → Attempt (List Char)
  | [] => .ok []
  | c :: cs =>
    if inside then
      if c == '\n' then skipLinesFrom false cs
      else if isControl false c then failAt (.invalidCharacter c) (c :: cs)
      else skipLinesFrom true cs
    else if isGapOrLine c then skipLinesFrom false cs
    else if c == '#' then skipLinesFrom true cs
    else .ok (c :: cs)

def skipLines (cs : List Char) : Attempt (List Char) :=
  skipLinesFrom false cs

/-- Reads up to an end mark, with no escapes on the way. -/
def readLiteral (lines : Bool) (mark : List Char) (cs : List Char) : Attempt (List Char × List Char) :=
  match breakAt? mark cs with
  | none => failAt (.expected (String.ofList mark)) []
  | some (before, rest) => do
    checkPlain lines before (mark ++ rest)
    return (before, rest)

def escaped? : Char → Option Char
  | 'b' => some (Char.ofNat 8)
  | 't' => some '\t'
  | 'n' => some '\n'
  | 'f' => some (Char.ofNat 12)
  | 'r' => some '\r'
  | '\\' => some '\\'
  | c => if c == doubleQuote then some c else none

def readCode (count : Nat) (cs : List Char) : Attempt (List Char × List Char) :=
  let digits := cs.take count
  if digits.length != count || !digits.all (fun c => (hexValue? c).isSome) then failAt .hexDigits cs
  else
    let code := digits.foldl (fun n c => n * 16 + (hexValue? c).getD 0) 0
    let rest := cs.drop count
    if code < 0xd800 || (0xe000 ≤ code && code ≤ 0x10ffff) then .ok ([Char.ofNat code], rest)
    else failAt .notACharacter rest

/-- Reads what follows a backslash. Where lines are allowed, a backslash at the end of a line swallows
the blanks and line ends after it. -/
def readEscape (lines : Bool) (cs : List Char) : Attempt (List Char × List Char) :=
  match cs with
  | [] => failAt .backslash []
  | e :: rest =>
    if lines && e == '\n' then .ok ([], rest.dropWhile isGapOrLine)
    else if lines && isGap e then
      match skipGap rest with
      | [] => .ok ([], [])
      | '\n' :: rest => .ok ([], rest.dropWhile isGapOrLine)
      | rest => failAt .backslash rest
    else if e == 'u' then readCode 4 rest
    else if e == 'U' then readCode 8 rest
    else
      match escaped? e with
      | some c => .ok ([c], rest)
      | none => failAt .backslash rest

/-- Reads a string with escapes up to its end, which is one double quote, or three where lines are
allowed. What is read stands in `done`, newest first. -/
def readBasic (lines : Bool) : Nat → List Char → List Char → Attempt (List Char × List Char)
  | 0, _, cs => failAt .unterminated cs
  | _ + 1, _, [] => failAt .unterminated []
  | fuel + 1, done, c :: rest =>
    if c == doubleQuote then
      if !lines then .ok (done.reverse, rest)
      else if [doubleQuote, doubleQuote].isPrefixOf rest then .ok (done.reverse, rest.drop 2)
      else readBasic lines fuel (c :: done) rest
    else if c == '\\' then do
      let (cs, rest) ← readEscape lines rest
      readBasic lines fuel (cs ++ done) rest
    else if isControl lines c then failAt (.illegalCharacter c) (c :: rest)
    else readBasic lines fuel (c :: done) rest

/-- Adds up to two marks that stand before the three at the end of a string. -/
def addMarks (mark : Char) (text rest : List Char) : List Char × List Char :=
  let extra := (rest.takeWhile (· == mark)).take 2
  (text ++ extra, rest.drop extra.length)

def dropLine : List Char → List Char
  | '\n' :: rest => rest
  | rest => rest

/-- Reads a string, in double quotes or apostrophes, of one line or of several. -/
def readString (mark : Char) (rest : List Char) : Attempt (String × List Char) := do
  let basic := mark == doubleQuote
  if [mark, mark].isPrefixOf rest then
    let body := dropLine (rest.drop 2)
    let (text, rest) ←
      if basic then readBasic true (body.length + 1) [] body else readLiteral true [mark, mark, mark] body
    let (text, rest) := addMarks mark text rest
    return (String.ofList text, rest)
  else
    let (text, rest) ←
      if basic then readBasic false (rest.length + 1) [] rest else readLiteral false [mark] rest
    return (String.ofList text, rest)

def readKeyPart (cs : List Char) : Attempt (String × List Char) :=
  match cs with
  | [] => failAt .keyStart []
  | c :: rest =>
    if isBareKey c then .ok (String.ofList (cs.takeWhile isBareKey), cs.dropWhile isBareKey)
    else if c == apostrophe then (readLiteral false [c] rest).map fun r => (String.ofList r.1, r.2)
    else if c == doubleQuote then
      (readBasic false (rest.length + 1) [] rest).map fun r => (String.ofList r.1, r.2)
    else failAt .keyStart cs

/-- Reads a key. The fuel bounds the number of its parts. -/
def readKey : Nat → List Char → Attempt (TomlKey × List Char)
  | 0, cs => failAt .keyStart cs
  | fuel + 1, cs => do
    let (part, rest) ← readKeyPart cs
    match skipGap rest with
    | '.' :: rest =>
      let (parts, rest) ← readKey fuel (skipGap rest)
      return (part :: parts, rest)
    | rest => return ([part], rest)

/-- Digits with single underscores between them; the first character is known to be a digit. -/
def digitRun (isDigit : Char → Bool) : List Char → List Char × List Char
  | '_' :: c :: cs =>
    if isDigit c then
      let (digits, rest) := digitRun isDigit cs
      (c :: digits, rest)
    else ([], '_' :: c :: cs)
  | c :: cs =>
    if isDigit c then
      let (digits, rest) := digitRun isDigit cs
      (c :: digits, rest)
    else ([], c :: cs)
  | [] => ([], [])

def readDigits? (isDigit : Char → Bool) (cs : List Char) : Option (List Char × List Char) :=
  match cs with
  | c :: _ => if isDigit c then some (digitRun isDigit cs) else none
  | [] => none

def valueOf (base : Nat) (digits : List Char) : Nat :=
  digits.foldl (fun n c => n * base + (hexValue? c).getD 0) 0

def readBased? : List Char → Option (Number × List Char)
  | '0' :: 'x' :: cs =>
    (readDigits? (fun c => (hexValue? c).isSome) cs).map fun r => (.int (valueOf 16 r.1), r.2)
  | '0' :: 'b' :: cs =>
    (readDigits? (fun c => c == '0' || c == '1') cs).map fun r => (.int (valueOf 2 r.1), r.2)
  | '0' :: 'o' :: cs =>
    (readDigits? (fun c => '0' ≤ c && c ≤ '7') cs).map fun r => (.int (valueOf 8 r.1), r.2)
  | _ => none

def readSign : List Char → List Char × List Char
  | '+' :: cs => (['+'], cs)
  | '-' :: cs => (['-'], cs)
  | cs => ([], cs)

/-- The digits before a point: a zero, or digits that do not start with one. -/
def readWholeDigits? : List Char → Option (List Char × List Char)
  | '0' :: cs => some (['0'], cs)
  | cs => readDigits? Char.isDigit cs

def readFraction (cs : List Char) : List Char × List Char :=
  match cs with
  | '.' :: rest =>
    match readDigits? Char.isDigit rest with
    | some (digits, rest) => ('.' :: digits, rest)
    | none => ([], cs)
  | _ => ([], cs)

def readExponent (cs : List Char) : List Char × List Char :=
  match cs with
  | e :: rest =>
    if e == 'e' || e == 'E' then
      let (sign, rest) := readSign rest
      match readDigits? Char.isDigit rest with
      | some (digits, rest) => ('e' :: sign ++ digits, rest)
      | none => ([], cs)
    else ([], cs)
  | [] => ([], cs)

/-- A number in decimal digits. Without a fraction and an exponent there is a limit on its digits. -/
def readDecimal? (cs : List Char) : Option (Attempt (Number × List Char)) := do
  let (sign, rest) := readSign cs
  let (whole, rest) ← readWholeDigits? rest
  let (fraction, rest) := readFraction rest
  let (exponent, rest) := readExponent rest
  if fraction.isEmpty && exponent.isEmpty then
    if whole.length > Number.digitLimit then return .error (.limit (.digits whole.length))
    else return .ok (.int (Binary64.signed (sign == ['-']) (valueOf 10 whole)), rest)
  else
    let x ← Number.readBinary64? (sign ++ whole ++ fraction ++ exponent)
    return .ok (.float x, rest)

def readSpecial? (cs : List Char) : Option (Number × List Char) :=
  let (sign, rest) := readSign cs
  if "inf".toList.isPrefixOf rest then some (.float (.infinite (sign == ['-'])), rest.drop 3)
  else if "nan".toList.isPrefixOf rest then some (.float .nan, rest.drop 3)
  else none

/-- A number of exactly `count` digits between two bounds. -/
def readField? (count least most : Nat) (cs : List Char) : Option (Nat × List Char) :=
  let digits := cs.take count
  if digits.length == count && digits.all Char.isDigit then
    let n := valueOf 10 digits
    if least ≤ n && n ≤ most then some (n, cs.drop count) else none
  else none

def dropChar? (c : Char) : List Char → Option (List Char)
  | d :: cs => if c == d then some cs else none
  | [] => none

def skipFraction (cs : List Char) : List Char :=
  match cs with
  | '.' :: c :: rest => if c.isDigit then rest.dropWhile Char.isDigit else cs
  | _ => cs

def skipTime? (cs : List Char) : Option (List Char) := do
  let (_, cs) ← readField? 2 0 23 cs
  let cs ← dropChar? ':' cs
  let (_, cs) ← readField? 2 0 59 cs
  let cs ← dropChar? ':' cs
  let (_, cs) ← readField? 2 0 59 cs
  return skipFraction cs

def skipOffset? (cs : List Char) : Option (List Char) :=
  match cs with
  | [] => none
  | c :: rest =>
    if c == 'Z' || c == 'z' then some rest
    else if c == '+' || c == '-' then do
      let (_, cs) ← readField? 2 0 23 rest
      let cs ← dropChar? ':' cs
      let (_, cs) ← readField? 2 0 59 cs
      return cs
    else none

def daysIn (year month : Nat) : Nat :=
  if month == 2 then
    if year % 4 == 0 && (year % 100 != 0 || year % 400 == 0) then 29 else 28
  else if [4, 6, 9, 11].contains month then 30
  else 31

/-- The rest after a date, and whether there is such a date. -/
def skipDate? (cs : List Char) : Option (Bool × List Char) := do
  let (year, cs) ← readField? 4 0 9999 cs
  let cs ← dropChar? '-' cs
  let (month, cs) ← readField? 2 1 12 cs
  let cs ← dropChar? '-' cs
  let (day, cs) ← readField? 2 1 31 cs
  return (1 ≤ year && day ≤ daysIn year month, cs)

def skipDateTime? (cs : List Char) : Option (List Char) :=
  match cs with
  | c :: rest =>
    if c == 'T' || c == 't' || c == ' ' then do
      let cs ← skipTime? rest
      return (skipOffset? cs).getD cs
    else none
  | [] => none

def between (cs rest : List Char) : String :=
  String.ofList (cs.take (cs.length - rest.length))

def readMoment? (cs : List Char) : Option (Attempt (Toml × List Char)) :=
  match skipDate? cs with
  | some (exists_, rest) =>
    if !exists_ then some (failAt .invalidDate cs)
    else
      match skipDateTime? rest with
      | some rest => some (.ok (.dateTime (between cs rest), rest))
      | none => some (.ok (.date (between cs rest), rest))
  | none => (skipTime? cs).map fun rest => .ok (.time (between cs rest), rest)

/-- A value that holds no other values and is no string. -/
def readPlain (cs : List Char) : Attempt (Toml × List Char) :=
  if "true".toList.isPrefixOf cs then .ok (.bool true, cs.drop 4)
  else if "false".toList.isPrefixOf cs then .ok (.bool false, cs.drop 5)
  else
    match readMoment? cs with
    | some r => r
    | none =>
      match (readBased? cs).map .ok <|> readDecimal? cs <|> (readSpecial? cs).map .ok with
      | some number => number.map fun (n, rest) => (.num n, rest)
      | none => failAt .value cs

def isNested : Toml → Bool
  | arr _ | table _ => true
  | _ => false

/-- Whether a key starts with one of some keys. -/
def reaches (keys : List TomlKey) (key : TomlKey) : Bool :=
  keys.any fun k => k.isPrefixOf key

def putInline (key : TomlKey) (value : Toml) (entries : List (String × Toml)) :
    Except TomlReason (List (String × Toml)) :=
  changeAt false (fun inner =>
    let stem := key.getLast?.getD ""
    if inner.any (·.1 = stem) then .error (.duplicateKey stem) else .ok (setEntry stem value inner))
    key.dropLast entries

/-- How deeply values may be nested. An array counts two and an inline table three. -/
def depthLimit : Nat := 980

/-- What is left of the depth inside an array or an inline table, which takes some of it. -/
def deeper (depth taken : Nat) : Attempt Nat :=
  if taken ≤ depth then .ok (depth - taken) else .error (.limit .depth)

mutual

/-- Reads a value. The fuel bounds the depth and the number of values; `depth` is what is left of the
depth. -/
def readValue : Nat → Nat → List Char → Attempt (Toml × List Char)
  | 0, _, cs => failAt .value cs
  | fuel + 1, depth, cs =>
    match cs with
    | [] => failAt .value []
    | c :: rest =>
      if c == doubleQuote || c == apostrophe then (readString c rest).map fun r => (.str r.1, r.2)
      else if c == '[' then do
        let depth ← deeper depth 2
        let rest ← skipLines rest
        match rest with
        | ']' :: rest => return (.arr [], rest)
        | rest =>
          let (items, rest) ← readItems fuel depth rest
          return (.arr items, rest)
      else if c == '\x7b' then do
        let depth ← deeper depth 3
        match skipGap rest with
        | '\x7d' :: rest => return (.table [], rest)
        | rest =>
          let (entries, rest) ← readEntries fuel depth [] [] rest
          return (.table entries, rest)
      else readPlain cs

def readItems : Nat → Nat → List Char → Attempt (List Toml × List Char)
  | 0, _, cs => failAt .value cs
  | fuel + 1, depth, cs => do
    let (item, rest) ← readValue fuel depth cs
    let rest ← skipLines rest
    match rest with
    | ']' :: rest => return ([item], rest)
    | ',' :: rest =>
      let rest ← skipLines rest
      match rest with
      | ']' :: rest => return ([item], rest)
      | rest =>
        let (items, rest) ← readItems fuel depth rest
        return (item :: items, rest)
    | rest => failAt .unclosedArray rest

/-- Reads the entries of an inline table up to its end. Entries that hold values cannot be changed by
later ones. -/
def readEntries :
    Nat → Nat → List TomlKey → List (String × Toml) → List Char → Attempt (List (String × Toml) × List Char)
  | 0, _, _, _, cs => failAt .value cs
  | fuel + 1, depth, frozen, done, cs => do
    let (key, value, rest) ← readPair fuel depth cs
    if reaches frozen key then failAt (.immutable key) rest
    else
      match putInline key value done with
      | .error reason => failAt reason rest
      | .ok done =>
        match skipGap rest with
        | '\x7d' :: rest => return (done, rest)
        | ',' :: rest =>
          readEntries fuel depth (if isNested value then key :: frozen else frozen) done (skipGap rest)
        | rest => failAt .unclosedTable rest

def readPair : Nat → Nat → List Char → Attempt (TomlKey × Toml × List Char)
  | 0, _, cs => failAt .value cs
  | fuel + 1, depth, cs => do
    let (key, rest) ← readKey (cs.length + 1) cs
    match rest with
    | '=' :: rest =>
      let (value, rest) ← readValue fuel depth (skipGap rest)
      return (key, value, rest)
    | rest => failAt .equalsSign rest

end

/-- A document as far as it has been read. Keys in `frozen` lead to values that cannot be changed,
those in `declared` cannot be declared again; `pending` ones join them at the next declaration. -/
structure Document where
  entries : List (String × Toml) := []
  header : TomlKey := []
  frozen : List TomlKey := []
  declared : List TomlKey := []
  pending : List TomlKey := []

namespace Document

def declareTable (d : Document) (key : TomlKey) : Except TomlReason Document := do
  if d.declared.contains key || reaches d.frozen key then throw (.declaredTwice key)
  let entries ← changeAt true .ok key d.entries
  return { d with entries := entries, header := key, declared := key :: d.declared }

def appendTable (name : String) (entries : List (String × Toml)) :
    Except TomlReason (List (String × Toml)) :=
  match entries.lookup name with
  | none => .ok (setEntry name (.arr [.table []]) entries)
  | some (.arr items) => .ok (setEntry name (.arr (items ++ [.table []])) entries)
  | some _ => .error .overwritten

/-- Declares another table of an array of tables; what was declared below it before is forgotten. -/
def declareItem (d : Document) (key : TomlKey) : Except TomlReason Document := do
  if reaches d.frozen key then throw (.immutable key)
  let outside := fun k : TomlKey => !key.isPrefixOf k
  let entries ← changeAt true (appendTable (key.getLast?.getD "")) key.dropLast d.entries
  return { d with
    entries := entries, header := key, frozen := d.frozen.filter outside,
    declared := key :: d.declared.filter outside }

/-- The keys on the way to a key, without the key itself. -/
def waypoints (header key : TomlKey) : List TomlKey :=
  (List.range (key.length - 1)).map fun n => header ++ key.take (n + 1)

def put (d : Document) (key : TomlKey) (value : Toml) : Except TomlReason Document := do
  let way := waypoints d.header key
  match way.find? d.declared.contains with
  | some k => throw (.redefined k)
  | none => pure ()
  let parent := d.header ++ key.dropLast
  if reaches d.frozen parent then throw (.immutable parent)
  let stem := key.getLast?.getD ""
  let entries ← changeAt true (fun inner =>
    if inner.any (·.1 = stem) then .error .overwritten else .ok (setEntry stem value inner)) parent d.entries
  return { d with
    entries := entries, pending := way ++ d.pending,
    frozen := if isNested value then (d.header ++ key) :: d.frozen else d.frozen }

/-- Pending keys cannot be declared any more. -/
def settle (d : Document) : Document :=
  { d with declared := d.pending ++ d.declared, pending := [] }

end Document

def placed {α : Type} (rest : List Char) (r : Except TomlReason α) : Attempt α :=
  r.mapError fun reason => .refused reason rest.length

def readDeclaration (d : Document) (item : Bool) (cs : List Char) : Attempt (Document × List Char) := do
  let (key, rest) ← readKey (cs.length + 1) (skipGap cs)
  let d ← placed rest (if item then d.declareItem key else d.declareTable key)
  let mark := if item then [']', ']'] else [']']
  if mark.isPrefixOf rest then return (d, rest.drop mark.length)
  else failAt (if item then .arrayEnd else .tableEnd) rest

def readStatement (d : Document) (c : Char) (rest : List Char) : Attempt (Document × List Char) :=
  if isBareKey c || c == doubleQuote || c == apostrophe then do
    let cs := c :: rest
    let (key, value, rest) ← readPair (2 * cs.length + 2) depthLimit cs
    let d ← placed rest (d.put key value)
    return (d, rest)
  else if c == '[' then
    match rest with
    | '[' :: rest => readDeclaration d.settle true rest
    | rest => readDeclaration d.settle false rest
  else if c == '#' then .ok (d, c :: rest)
  else failAt .statement (c :: rest)

/-- Reads statements to the end. The fuel bounds their number. -/
def readStatements : Nat → Document → List Char → Attempt Document
  | 0, d, _ => .ok d
  | fuel + 1, d, cs =>
    match skipGap cs with
    | [] => .ok d
    | '\n' :: rest => readStatements fuel d rest
    | c :: rest => do
      let (d, rest) ← readStatement d c rest
      let rest ← skipComment (skipGap rest)
      match rest with
      | [] => return d
      | '\n' :: rest => readStatements fuel d rest
      | rest => failAt .lineEnd rest

def dropReturns : List Char → List Char
  | '\r' :: '\n' :: cs => '\n' :: dropReturns cs
  | c :: cs => c :: dropReturns cs
  | [] => []

/-- The line and column where some characters are left; there is none at the end. -/
def placeOf (source : List Char) (left : Nat) : Option (Nat × Nat) :=
  if left = 0 then none
  else
    let before := source.take (source.length - left)
    let line := (before.filter (· == '\n')).length + 1
    some (line, (before.reverse.takeWhile (· != '\n')).length + 1)

def read (text : String) : Except TomlFault (List (String × Toml)) :=
  let source := dropReturns text.toList
  match readStatements (source.length + 1) {} source with
  | .ok d => .ok d.entries
  | .error (.refused reason left) => .error (.refused reason (placeOf source left))
  | .error (.limit cause) => .error (.limit cause)

end Toml

end PointerScript
