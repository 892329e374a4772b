/-! Halves of surrogate pairs.

A character beyond U+FFFF can be written as a pair of code points from U+D800 to U+DFFF, and a text may hold half of
such a pair alone. What comes from a file or goes to one, and the script in the editor, is a `WideText`, where halves
and characters are told apart. Messages, and scripts as they are compiled, hold a half as a stand-in: the character that
lies `standInShift` above it, in a part of the code space where no characters are. -/

namespace PointerScript.Text

def isHighHalf (code : Nat) : Bool := 0xd800 ≤ code && code < 0xdc00

def isLowHalf (code : Nat) : Bool := 0xdc00 ≤ code && code < 0xe000

def joinHalves (high low : Nat) : Char :=
  Char.ofNat (0x10000 + (high - 0xd800) * 0x400 + (low - 0xdc00))

/-- A code point of a text: a character, or a half by its place from U+D800 on. -/
inductive CodePoint where
  | char (c : Char)
  | half (place : Fin 0x800)
  deriving DecidableEq

namespace CodePoint

def ofNat (code : Nat) : CodePoint :=
  if h : 0xd800 ≤ code ∧ code < 0xe000 then half ⟨code - 0xd800, by omega⟩ else char (Char.ofNat code)

def code : CodePoint → Nat
  | char c => c.toNat
  | half place => 0xd800 + place

def char? : CodePoint → Option Char
  | char c => some c
  | half _ => none

def isHalf : CodePoint → Bool
  | char _ => false
  | half _ => true

end CodePoint

def standInShift : Nat := 0x90000

/-- The character of a code point; a half gives its stand-in. -/
def charOfCode (code : Nat) : Char :=
  if isHighHalf code || isLowHalf code then Char.ofNat (code + standInShift) else Char.ofNat code

def isStandIn (c : Char) : Bool :=
  standInShift + 0xd800 ≤ c.toNat && c.toNat < standInShift + 0xe000

/-- The code point of a character, for a stand-in that of its half. -/
def codeOfChar (c : Char) : Nat :=
  if isStandIn c then c.toNat - standInShift else c.toNat

/-- A text in which halves of pairs may stand alone. -/
abbrev WideText := List CodePoint

namespace WideText

def ofChars (cs : List Char) : WideText :=
  cs.map .char

def chars (text : WideText) : List Char :=
  text.filterMap CodePoint.char?

def string? (text : WideText) : Option String :=
  if text.any CodePoint.isHalf then none else some (String.ofList text.chars)

/-- The halves for the stand-ins of a text. -/
def ofText (s : String) : WideText :=
  s.toList.map fun c => .ofNat (codeOfChar c)

def toText (text : WideText) : String :=
  String.ofList (text.map fun p => charOfCode p.code)

end WideText

end PointerScript.Text
