import PointerScript.Json.Basic
import PointerScript.Text.Quoted

/-! Reading JSON text.

The numbers `NaN`, `Infinity` and `-Infinity` are read too. Of several entries of an object with one
key the last value counts, at the place of the first. -/

namespace PointerScript

namespace Json

open Text

def isSpace (c : Char) : Bool :=
  c == ' ' || c == '\t' || c == '\n' || c == '\r'

def skipSpace (cs : List Char) : List Char :=
  cs.dropWhile isSpace

def dropWord? (word : String) (cs : List Char) : Option (List Char) :=
  if word.toList.isPrefixOf cs then some (cs.drop word.length) else none

def readHex4? : List Char → Option (Nat × List Char)
  | a :: b :: c :: d :: rest => do
    let a ← hexValue? a
    let b ← hexValue? b
    let c ← hexValue? c
    let d ← hexValue? d
    return (((a * 16 + b) * 16 + c) * 16 + d, rest)
  | _ => none

/-- The code point written by `\u` and four digits, or by two of these for a character beyond
U+FFFF. Half of such a pair may stand alone. -/
def readEscapedUnit? (cs : List Char) : Option (CodePoint × List Char) := do
  let (code, rest) ← readHex4? cs
  let alone := (CodePoint.ofNat code, rest)
  if isHighHalf code then
    match rest with
    | '\\' :: 'u' :: more =>
      match readHex4? more with
      | some (low, rest) => return if isLowHalf low then (.char (joinHalves code low), rest) else alone
      | none => return alone
    | _ => return alone
  else return alone

def escapedChar? : Char → Option Char
  | '"' => some '"'
  | '\\' => some '\\'
  | '/' => some '/'
  | 'b' => some '\x08'
  | 'f' => some '\x0c'
  | 'n' => some '\n'
  | 'r' => some '\r'
  | 't' => some '\t'
  | _ => none

/-- The text of a string up to its closing quote, and the rest; `done` is what was read, newest first. -/
def readString? (fuel : Nat) (done : WideText) (cs : List Char) : Option (WideText × List Char) :=
  match fuel with
  | 0 => none
  | fuel + 1 =>
    match cs with
    | [] => none
    | '"' :: rest => some (done.reverse, rest)
    | '\\' :: 'u' :: rest => do
      let (p, rest) ← readEscapedUnit? rest
      readString? fuel (p :: done) rest
    | '\\' :: e :: rest => do
      let c ← escapedChar? e
      readString? fuel (.char c :: done) rest
    | c :: rest => if c.toNat < 0x20 then none else readString? fuel (.char c :: done) rest

def takeDigits (cs : List Char) : List Char × List Char :=
  (cs.takeWhile Char.isDigit, cs.dropWhile Char.isDigit)

/-- The fraction part of a number at the start; without a digit after the point there is none. -/
def readFraction (cs : List Char) : List Char × List Char :=
  match cs with
  | '.' :: rest =>
    match takeDigits rest with
    | ([], _) => ([], cs)
    | (digits, rest) => ('.' :: digits, rest)
  | _ => ([], cs)

def readExponent (cs : List Char) : List Char × List Char :=
  match cs with
  | e :: rest =>
    if e == 'e' || e == 'E' then
      let (sign, afterSign) :=
        match rest with
        | '+' :: more => (['+'], more)
        | '-' :: more => (['-'], more)
        | _ => ([], rest)
      match takeDigits afterSign with
      | ([], _) => ([], cs)
      | (digits, more) => ('e' :: (sign ++ digits), more)
    else ([], cs)
  | [] => ([], cs)

/-- The digits before the point: a zero, or digits that do not start with one. -/
def readWholePart? (cs : List Char) : Option (List Char × List Char) :=
  match cs with
  | '0' :: rest => some (['0'], rest)
  | _ =>
    match takeDigits cs with
    | ([], _) => none
    | (digits, rest) => some (digits, rest)

inductive Limit where
  | digits (count : Nat)
  | depth (table : Bool)
  deriving DecidableEq

def Limit.message : Limit → String
  | digits count => Number.tooManyDigitsMessage count
  | depth table =>
    "maximum recursion depth exceeded while decoding a JSON " ++ (if table then "object" else "array") ++
      " from a unicode string"

/-- Why a text cannot be read: it is not JSON, or a limit was met before that was known. -/
inductive ReadFault where
  | notJson
  | limit (cause : Limit)
  deriving DecidableEq

abbrev Attempt := Except ReadFault

def attempt {α : Type} (result : Option α) : Attempt α :=
  match result with
  | some r => .ok r
  | none => .error .notJson

def readWord (word : String) (value : Json) (cs : List Char) : Attempt (Json × List Char) :=
  attempt ((dropWord? word cs).map fun rest => (value, rest))

def readNumber (cs : List Char) : Attempt (Number × List Char) := do
  let (sign, body) := match cs with
    | '-' :: rest => (['-'], rest)
    | _ => ([], cs)
  let (whole, rest) ← attempt (readWholePart? body)
  let (fraction, rest) := readFraction rest
  let (exponent, rest) := readExponent rest
  if fraction.isEmpty && exponent.isEmpty then
    match Number.readWhole (sign ++ whole) with
    | .ok n => return (.int n, rest)
    | .error .notWhole => throw .notJson
    | .error (.tooManyDigits count) => throw (.limit (.digits count))
  else
    match Number.readBinary64? (sign ++ whole ++ fraction ++ exponent) with
    | some x => return (.float x, rest)
    | none => throw .notJson

def setEntry (key : WideText) (value : Json) : List (WideText × Json) → List (WideText × Json)
  | [] => [(key, value)]
  | entry :: rest =>
    if entry.1 = key then (key, value) :: rest else entry :: setEntry key value rest

mutual

/-- A value at the start, and the rest. The fuel bounds the depth, the number of values and the length of
strings: twice the number of characters is enough. `depth` more arrays and objects may be opened. -/
def readValue (fuel depth : Nat) (cs : List Char) : Attempt (Json × List Char) :=
  match fuel with
  | 0 => .error .notJson
  | fuel + 1 =>
    match cs with
    | '"' :: rest => (attempt (readString? fuel [] rest)).map fun (s, rest) => (.str s, rest)
    | '[' :: rest =>
      match depth with
      | 0 => .error (.limit (.depth false))
      | depth + 1 =>
        match skipSpace rest with
        | ']' :: rest => .ok (.arr [], rest)
        | rest => (readItems fuel depth rest).map fun (items, rest) => (.arr items, rest)
    | '\x7b' :: rest =>
      match depth with
      | 0 => .error (.limit (.depth true))
      | depth + 1 =>
        match skipSpace rest with
        | '\x7d' :: rest => .ok (.obj [], rest)
        | rest => (readEntries fuel depth [] rest).map fun (entries, rest) => (.obj entries, rest)
    | 'n' :: _ => readWord "null" .null cs
    | 't' :: _ => readWord "true" (.bool true) cs
    | 'f' :: _ => readWord "false" (.bool false) cs
    | 'N' :: _ => readWord "NaN" (.num (.float .nan)) cs
    | 'I' :: _ => readWord "Infinity" (.num (.float (.infinite false))) cs
    | '-' :: 'I' :: _ => readWord "-Infinity" (.num (.float (.infinite true))) cs
    | _ => (readNumber cs).map fun (n, rest) => (.num n, rest)

def readItems (fuel depth : Nat) (cs : List Char) : Attempt (List Json × List Char) :=
  match fuel with
  | 0 => .error .notJson
  | fuel + 1 => do
    let (item, rest) ← readValue fuel depth (skipSpace cs)
    match skipSpace rest with
    | ']' :: rest => return ([item], rest)
    | ',' :: rest =>
      let (items, rest) ← readItems fuel depth rest
      return (item :: items, rest)
    | _ => throw .notJson

def readEntries (fuel depth : Nat) (done : List (WideText × Json)) (cs : List Char) :
    Attempt (List (WideText × Json) × List Char) :=
  match fuel with
  | 0 => .error .notJson
  | fuel + 1 =>
    match skipSpace cs with
    | '"' :: rest => do
      let (key, rest) ← attempt (readString? fuel [] rest)
      match skipSpace rest with
      | ':' :: rest =>
        let (value, rest) ← readValue fuel depth (skipSpace rest)
        let done := setEntry key value done
        match skipSpace rest with
        | '\x7d' :: rest => return (done, rest)
        | ',' :: rest => readEntries fuel depth done rest
        | _ => throw .notJson
      | _ => throw .notJson
    | _ => .error .notJson

end

/-- Reads a text that is one JSON value with white space around it, with at most `depthLimit` arrays and objects inside
each other. -/
def read (depthLimit : Nat) (text : String) : Attempt Json := do
  let cs := text.toList
  let (value, rest) ← readValue (2 * cs.length + 2) depthLimit (skipSpace cs)
  if (skipSpace rest).isEmpty then return value else throw .notJson

end Json

end PointerScript
