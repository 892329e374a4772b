import PointerScript.Text.Quoted

/-! Text as bytes, in UTF-8. -/

namespace PointerScript.Text

abbrev Bytes := List UInt8

/-- The bytes of pairs of hexadecimal digits; other characters count as zero. -/
def bytesOfHex : List Char → Bytes
  | a :: b :: rest =>
    UInt8.ofNat ((hexValue? a).getD 0 * 16 + (hexValue? b).getD 0) :: bytesOfHex rest
  | _ => []

def Bytes.ofHex (text : String) : Bytes :=
  bytesOfHex text.toList

/-- A byte that continues a character of several bytes: six bits below a mark. -/
def continuation (n : Nat) : UInt8 :=
  UInt8.ofNat (0x80 + n % 64)

def encodeChar (c : Char) : Bytes :=
  let n := c.toNat
  if n < 0x80 then [UInt8.ofNat n]
  else if n < 0x800 then [UInt8.ofNat (0xc0 + n / 64), continuation n]
  else if n < 0x10000 then [UInt8.ofNat (0xe0 + n / 4096), continuation (n / 64), continuation n]
  else
    [UInt8.ofNat (0xf0 + n / 262144), continuation (n / 4096), continuation (n / 64), continuation n]

/-- Halves of surrogate pairs that keep a text from being written as bytes, and where they are. -/
structure EncodeFault where
  position : Nat
  halves : List CodePoint
  deriving DecidableEq

namespace EncodeFault

def message (f : EncodeFault) : String :=
  let place :=
    match f.halves with
    | [half] =>
      "character '" ++ String.ofList (escapedCode half.code) ++ "' in position " ++ toString f.position
    | halves =>
      "characters in position " ++ toString f.position ++ "-" ++ toString (f.position + halves.length - 1)
  "'utf-8' codec can't encode " ++ place ++ ": surrogates not allowed"

end EncodeFault

def encodeFault? (text : WideText) : Option EncodeFault :=
  match text.dropWhile fun p => !p.isHalf with
  | [] => none
  | rest => some ⟨text.length - rest.length, rest.takeWhile CodePoint.isHalf⟩

def bytesOf (cs : List Char) : Bytes :=
  cs.flatMap encodeChar

def encode (text : WideText) : Except EncodeFault Bytes :=
  match encodeFault? text with
  | some fault => .error fault
  | none => .ok (bytesOf text.chars)

/-- The bytes of pieces of text, up to the first piece that has none. -/
def encodePieces : List WideText → Bytes × Option EncodeFault
  | [] => ([], none)
  | piece :: rest =>
    match encode piece with
    | .error fault => ([], some fault)
    | .ok bytes =>
      let (more, fault) := encodePieces rest
      (bytes ++ more, fault)

inductive Utf8Reason where
  | start
  | continuation
  | ending
  deriving DecidableEq

namespace Utf8Reason

def message : Utf8Reason → String
  | start => "invalid start byte"
  | continuation => "invalid continuation byte"
  | ending => "unexpected end of data"

end Utf8Reason

/-- What stands at the start of some bytes: a character and its length, or a number of bytes that are
not text. -/
inductive Utf8Step where
  | char (c : Char) (length : Nat)
  | bad (reason : Utf8Reason) (length : Nat)
  deriving DecidableEq

def isContinuation (b : UInt8) : Bool :=
  0x80 ≤ b.toNat && b.toNat < 0xc0

/-- Whether the second byte of a character may follow its first: the bounds keep out characters
written too long and code points that are no characters. -/
def secondAllowed (first second : UInt8) : Bool :=
  let a := first.toNat
  let b := second.toNat
  isContinuation second &&
    (a != 0xe0 || b ≥ 0xa0) && (a != 0xed || b < 0xa0) && (a != 0xf0 || b ≥ 0x90) && (a != 0xf4 || b < 0x90)

/-- The six bits of a continuation byte. -/
def low (b : UInt8) : Nat := b.toNat % 64

/-- Decodes the start of some bytes. Bytes that break off inside a character run to the end. -/
def decodeStep (b : UInt8) (rest : Bytes) : Utf8Step :=
  let n := b.toNat
  if n < 0x80 then .char (Char.ofNat n) 1
  else if n < 0xc2 then .bad .start 1
  else if n < 0xe0 then
    match rest with
    | [] => .bad .ending 1
    | c :: _ =>
      if isContinuation c then .char (Char.ofNat ((n - 0xc0) * 64 + low c)) 2 else .bad .continuation 1
  else if n < 0xf0 then
    match rest with
    | [] => .bad .ending 1
    | c :: rest =>
      if !secondAllowed b c then .bad .continuation 1
      else
        match rest with
        | [] => .bad .ending 2
        | d :: _ =>
          if isContinuation d then
            .char (Char.ofNat (((n - 0xe0) * 64 + low c) * 64 + low d)) 3
          else .bad .continuation 2
  else if n < 0xf5 then
    match rest with
    | [] => .bad .ending 1
    | c :: rest =>
      if !secondAllowed b c then .bad .continuation 1
      else
        match rest with
        | [] => .bad .ending 2
        | d :: rest =>
          if !isContinuation d then .bad .continuation 2
          else
            match rest with
            | [] => .bad .ending 3
            | e :: _ =>
              if isContinuation e then
                .char (Char.ofNat ((((n - 0xf0) * 64 + low c) * 64 + low d) * 64 + low e)) 4
              else .bad .continuation 3
  else .bad .start 1

structure Utf8Fault where
  reason : Utf8Reason
  first : UInt8
  position : Nat
  length : Nat
  deriving DecidableEq

namespace Utf8Fault

def message (f : Utf8Fault) : String :=
  let place :=
    if f.length = 1 then
      "byte 0x" ++ String.ofList (hexDigits 2 f.first.toNat) ++ " in position " ++ toString f.position
    else
      "bytes in position " ++ toString f.position ++ "-" ++ toString (f.position + f.length - 1)
  "'utf-8' codec can't decode " ++ place ++ ": " ++ f.reason.message

end Utf8Fault

/-- The characters of some bytes from a position on. The fuel bounds their number. -/
def decodeFrom : Nat → Nat → Bytes → Except Utf8Fault (List Char)
  | 0, _, _ => .ok []
  | _ + 1, _, [] => .ok []
  | fuel + 1, position, b :: rest =>
    match decodeStep b rest with
    | .char c length => do
      let cs ← decodeFrom fuel (position + length) (rest.drop (length - 1))
      return c :: cs
    | .bad reason length => .error ⟨reason, b, position, length⟩

def decode (bytes : Bytes) : Except Utf8Fault String :=
  (decodeFrom bytes.length 0 bytes).map String.ofList

/-- The characters of some bytes, with a mark in the place of what is not text. -/
def decodeLossyFrom : Nat → Bytes → List Char
  | 0, _ => []
  | _ + 1, [] => []
  | fuel + 1, b :: rest =>
    match decodeStep b rest with
    | .char c length => c :: decodeLossyFrom fuel (rest.drop (length - 1))
    | .bad _ length => '�' :: decodeLossyFrom fuel (rest.drop (length - 1))

def decodeLossy (bytes : Bytes) : String :=
  String.ofList (decodeLossyFrom bytes.length bytes)

end PointerScript.Text
