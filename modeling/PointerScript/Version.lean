import PointerScript.Text.Character
import PointerScript.Text.Split
import PointerScript.Toml.Reader

/-! Versions of the program: their normal form, and the version that a project file gives.

A version is read in two steps: its text is taken apart, and then its numbers are read, of which none may
have too many digits. -/

namespace PointerScript

/-- The stages before a release. A stage that is spelled with letters like those of its word is not
recognised for one of the others and keeps its spelling. -/
inductive Stage where
  | alpha
  | beta
  | candidate
  | spelled (word : String)
  deriving DecidableEq

inductive LocalPart where
  | number (value : Nat)
  | word (text : String)
  deriving DecidableEq

structure Version where
  epoch : Nat := 0
  release : List Nat
  stage : Option (Stage × Nat) := none
  post : Option Nat := none
  dev : Option Nat := none
  name : List LocalPart := []
  deriving DecidableEq

namespace Version

open Text

def own : String := "1.0.3"

/-- The parts of a version as they are spelled; numbers that are left out have no digits. -/
structure Spelling where
  epoch : List Char
  release : List (List Char)
  stage : Option (List Char × List Char)
  post : Option (List Char)
  dev : Option (List Char)
  name : List (List Char)

/-- The letter that a character counts as, whatever its case: the long s counts as s, the sign of the
kelvin as k, and both the i without its point and the capital i with it count as i. -/
def letterOf (c : Char) : Char :=
  match c.toNat with
  | 0x17f => 's'
  | 0x212a => 'k'
  | 0x130 | 0x131 => 'i'
  | _ => c.toLower

def isSeparator (c : Char) : Bool := c == '-' || c == '_' || c == '.'

def isNameChar (c : Char) : Bool :=
  c.isDigit || ('a' ≤ letterOf c && letterOf c ≤ 'z')

def dropSeparator : List Char → List Char
  | c :: cs => if isSeparator c then cs else c :: cs
  | [] => []

def readDigits? (cs : List Char) : Option (List Char × List Char) :=
  match cs.takeWhile Char.isDigit with
  | [] => none
  | digits => some (digits, cs.dropWhile Char.isDigit)

/-- The first of some words that stands at the start, as it is spelled there, with the rest. -/
def readWord? (words : List String) (cs : List Char) : Option (List Char × List Char) :=
  words.findSome? fun word =>
    if word.toList.isPrefixOf (cs.map letterOf) then some (cs.take word.length, cs.drop word.length) else none

/-- A word with an optional number: separators may stand before and after the word. -/
def readLabelled? (words : List String) (cs : List Char) : Option ((List Char × List Char) × List Char) := do
  let (word, rest) ← readWord? words (dropSeparator cs)
  match readDigits? (dropSeparator rest) with
  | some (digits, rest) => return ((word, digits), rest)
  | none => return ((word, []), dropSeparator rest)

def stageWords : List String := ["alpha", "a", "beta", "b", "preview", "pre", "c", "rc"]

def postWords : List String := ["post", "rev", "r"]

def devWords : List String := ["dev"]

def readEpoch (cs : List Char) : List Char × List Char :=
  match readDigits? cs with
  | some (digits, '!' :: rest) => (digits, rest)
  | _ => ([], cs)

def readReleaseTail : Nat → List Char → List (List Char) × List Char
  | fuel + 1, '.' :: cs =>
    match readDigits? cs with
    | some (digits, rest) =>
      let (more, rest) := readReleaseTail fuel rest
      (digits :: more, rest)
    | none => ([], '.' :: cs)
  | _, cs => ([], cs)

def readRelease? (cs : List Char) : Option (List (List Char) × List Char) := do
  let (digits, rest) ← readDigits? cs
  let (more, rest) := readReleaseTail rest.length rest
  return (digits :: more, rest)

/-- The number after a release, with a word or after a single hyphen. -/
def readPost? (cs : List Char) : Option (List Char × List Char) :=
  let plain := match cs with
    | '-' :: rest => readDigits? rest
    | _ => none
  plain <|> (readLabelled? postWords cs).map fun r => (r.1.2, r.2)

def readName? : Nat → List Char → Option (List (List Char) × List Char)
  | 0, _ => none
  | fuel + 1, cs =>
    match cs.takeWhile isNameChar, cs.dropWhile isNameChar with
    | [], _ => none
    | part, c :: rest =>
      if isSeparator c then (readName? fuel rest).map fun r => (part :: r.1, r.2)
      else some ([part], c :: rest)
    | part, [] => some ([part], [])

def readLocal? (cs : List Char) : Option (List (List Char) × List Char) :=
  match cs with
  | '+' :: rest => readName? (rest.length + 1) rest
  | _ => some ([], cs)

def optional {α : Type} (part : Option (α × List Char)) (cs : List Char) : Option α × List Char :=
  match part with
  | some (value, rest) => (some value, rest)
  | none => (none, cs)

def dropMark : List Char → List Char
  | c :: cs => if letterOf c == 'v' then cs else c :: cs
  | [] => []

def spelling? (text : String) : Option Spelling := do
  let cs := dropMark (text.toList.dropWhile isBlank)
  let (epoch, cs) := readEpoch cs
  let (release, cs) ← readRelease? cs
  let (stage, cs) := optional (readLabelled? stageWords cs) cs
  let (post, cs) := optional (readPost? cs) cs
  let (dev, cs) := optional ((readLabelled? devWords cs).map fun r => (r.1.2, r.2)) cs
  let (name, cs) ← readLocal? cs
  if cs.all isBlank then
    return { epoch := epoch, release := release, stage := stage, post := post, dev := dev, name := name }
  else none

structure TooManyDigits where
  count : Nat
  deriving DecidableEq

/-- The value of decimal digits; none at all are zero. -/
def valueOf (digits : List Char) : Except TooManyDigits Nat :=
  if digits.length > Number.digitLimit then .error ⟨digits.length⟩
  else .ok (digits.foldl (fun n c => n * 10 + (c.toNat - 48)) 0)

def Stage.ofWord (word : String) : Stage :=
  match word with
  | "alpha" | "a" => .alpha
  | "beta" | "b" => .beta
  | "preview" | "pre" | "c" | "rc" => .candidate
  | word => .spelled word

def localPart (cs : List Char) : Except TooManyDigits LocalPart :=
  if cs.all Char.isDigit then (valueOf cs).map .number else .ok (.word (lower (String.ofList cs)))

/-- The version of a spelling. Its numbers are read in the order of the fields. -/
def Spelling.version (s : Spelling) : Except TooManyDigits Version := do
  let epoch ← valueOf s.epoch
  let release ← s.release.mapM valueOf
  let stage ← s.stage.mapM fun (word, digits) =>
    (valueOf digits).map fun n => (Stage.ofWord (lower (String.ofList word)), n)
  let post ← s.post.mapM valueOf
  let dev ← s.dev.mapM valueOf
  let name ← s.name.mapM localPart
  return { epoch := epoch, release := release, stage := stage, post := post, dev := dev, name := name }

def read (text : String) : Except TooManyDigits (Option Version) :=
  (spelling? text).mapM Spelling.version

def Stage.text : Stage → String
  | .alpha => "a"
  | .beta => "b"
  | .candidate => "rc"
  | .spelled word => word

def LocalPart.text : LocalPart → String
  | .number n => toString n
  | .word text => text

def text (v : Version) : String :=
  (if v.epoch = 0 then "" else toString v.epoch ++ "!") ++
    ".".intercalate (v.release.map toString) ++
    ((v.stage.map fun s => Stage.text s.1 ++ toString s.2).getD "") ++
    ((v.post.map fun n => ".post" ++ toString n).getD "") ++
    ((v.dev.map fun n => ".dev" ++ toString n).getD "") ++
    (if v.name.isEmpty then "" else "+" ++ ".".intercalate (v.name.map LocalPart.text))

end Version

inductive ProjectFault where
  | document (fault : TomlFault)
  | missing (key : String)
  | textIndex
  | listIndex
  | notATable (kind : String)
  | notText (kind : String)
  | tooManyDigits (count : Nat)
  deriving DecidableEq

namespace ProjectFault

def message : ProjectFault → String
  | document fault => fault.message
  | missing key => Text.quoted key
  | textIndex => "string indices must be integers, not 'str'"
  | listIndex => "list indices must be integers or slices, not str"
  | notATable kind => "'" ++ kind ++ "' object is not subscriptable"
  | notText kind => "expected string or bytes-like object, got '" ++ kind ++ "'"
  | tooManyDigits count => Number.tooManyDigitsMessage count

end ProjectFault

namespace Version

def entryOf (value : Toml) (key : String) : Except ProjectFault Toml :=
  match value with
  | .table entries =>
    match entries.lookup key with
    | some value => .ok value
    | none => .error (.missing key)
  | .str _ => .error .textIndex
  | .arr _ => .error .listIndex
  | value => .error (.notATable value.kindName)

/-- The version that a project file gives; there is none if its text is no version. -/
def ofProject (text : String) : Except ProjectFault (Option Version) := do
  let document ← (Toml.read text).mapError .document
  let project ← entryOf (.table document) "project"
  match ← entryOf project "version" with
  | .str s => (read s).mapError fun fault => .tooManyDigits fault.count
  | value => throw (.notText value.kindName)

end Version

end PointerScript
