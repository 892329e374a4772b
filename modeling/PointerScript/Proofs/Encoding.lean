import Mathlib.Data.List.TakeWhile
import PointerScript.Files

/-! Text as bytes and back. A text without halves of surrogate pairs has bytes, and they are decoded to the same
text. -/

namespace PointerScript

namespace Text

theorem toNat_continuation (n : Nat) : (continuation n).toNat = 0x80 + n % 64 := by
  rw [continuation, UInt8.toNat_ofNat']
  omega

@[simp] theorem isContinuation_continuation (n : Nat) : isContinuation (continuation n) = true := by
  simp only [isContinuation, toNat_continuation, Bool.and_eq_true, decide_eq_true_eq]
  omega

@[simp] theorem low_continuation (n : Nat) : low (continuation n) = n % 64 := by
  rw [low, toNat_continuation]
  omega

theorem toNat_ofNat_of_lt {n : Nat} (h : n < 256) : (UInt8.ofNat n).toNat = n := by
  rw [UInt8.toNat_ofNat', Nat.mod_eq_of_lt h]

/-- The second byte of a character is bounded by what the character is: it is not written too long, and it is no half
of a pair. -/
theorem secondAllowed_continuation {a n : Nat} (ha : a < 256) (h0 : a = 0xe0 → 0x20 ≤ n % 64)
    (hd : a = 0xed → n % 64 < 0x20) (hf : a = 0xf0 → 0x10 ≤ n % 64) (h4 : a = 0xf4 → n % 64 < 0x10) :
    secondAllowed (UInt8.ofNat a) (continuation n) = true := by
  simp only [secondAllowed, isContinuation_continuation, toNat_continuation, toNat_ofNat_of_lt ha, Bool.true_and,
    Bool.and_eq_true, Bool.or_eq_true, bne_iff_ne, ne_eq, decide_eq_true_eq]
  omega

/-- Decoding finds the character whose bytes come first. -/
theorem decodeStep_encodeChar (c : Char) (rest : Bytes) :
    ∃ b tail, encodeChar c = b :: tail ∧ decodeStep b (tail ++ rest) = .char c (tail.length + 1) := by
  have hvalid : c.toNat < 0xd800 ∨ 0xdfff < c.toNat ∧ c.toNat < 0x110000 := c.valid
  have hchar {n : Nat} (h : n = c.toNat) : Char.ofNat n = c := by rw [h, Char.ofNat_toNat]
  unfold encodeChar
  dsimp only
  split
  · refine ⟨_, _, rfl, ?_⟩
    simp only [decodeStep, toNat_ofNat_of_lt (by omega : c.toNat < 256)]
    rw [if_pos (by assumption), hchar rfl]
    rfl
  · split
    · refine ⟨_, _, rfl, ?_⟩
      simp only [decodeStep, toNat_ofNat_of_lt (by omega : 0xc0 + c.toNat / 64 < 256)]
      rw [if_neg (by omega), if_neg (by omega), if_pos (by omega)]
      simp only [List.cons_append, isContinuation_continuation, if_true, low_continuation]
      rw [hchar (by omega)]
      rfl
    · split
      · refine ⟨_, _, rfl, ?_⟩
        simp only [decodeStep, toNat_ofNat_of_lt (by omega : 0xe0 + c.toNat / 4096 < 256)]
        rw [if_neg (by omega), if_neg (by omega), if_neg (by omega), if_pos (by omega)]
        simp only [List.cons_append]
        rw [secondAllowed_continuation (by omega) (by omega) (by omega) (by omega) (by omega)]
        simp only [isContinuation_continuation, if_true, low_continuation]
        rw [hchar (by omega)]
        rfl
      · refine ⟨_, _, rfl, ?_⟩
        simp only [decodeStep, toNat_ofNat_of_lt (by omega : 0xf0 + c.toNat / 262144 < 256)]
        rw [if_neg (by omega), if_neg (by omega), if_neg (by omega), if_neg (by omega), if_pos (by omega)]
        simp only [List.cons_append]
        rw [secondAllowed_continuation (by omega) (by omega) (by omega) (by omega) (by omega)]
        simp only [isContinuation_continuation, if_true, low_continuation]
        rw [hchar (by omega)]
        rfl

theorem decodeFrom_bytesOf (cs : List Char) {fuel : Nat} (h : (bytesOf cs).length ≤ fuel) (position : Nat) :
    decodeFrom fuel position (bytesOf cs) = .ok cs := by
  induction cs generalizing fuel position with
  | nil => cases fuel <;> rfl
  | cons c cs ih =>
    obtain ⟨b, tail, hbytes, hstep⟩ := decodeStep_encodeChar c (bytesOf cs)
    have hcons : bytesOf (c :: cs) = b :: (tail ++ bytesOf cs) := by
      rw [bytesOf, List.flatMap_cons, hbytes]
      rfl
    rw [hcons, List.length_cons, List.length_append] at h
    obtain ⟨fuel, rfl⟩ : ∃ k, fuel = k + 1 := ⟨fuel - 1, by omega⟩
    rw [hcons, decodeFrom, hstep]
    simp only [Nat.add_sub_cancel, List.drop_left]
    rw [ih (by omega)]
    rfl

theorem decode_bytesOf (cs : List Char) : decode (bytesOf cs) = .ok (String.ofList cs) := by
  rw [decode, decodeFrom_bytesOf cs (Nat.le_refl _)]
  rfl

namespace WideText

@[simp] theorem chars_cons (c : Char) (text : WideText) : chars (.char c :: text) = c :: text.chars := rfl

@[simp] theorem chars_append (text rest : WideText) : chars (text ++ rest) = text.chars ++ rest.chars :=
  List.filterMap_append

@[simp] theorem chars_ofChars (cs : List Char) : (ofChars cs).chars = cs := by
  induction cs with
  | nil => rfl
  | cons c cs ih => rw [ofChars, List.map_cons, chars_cons, ← ofChars, ih]

theorem chars_flatMap {α : Type} (f : α → WideText) (as : List α) :
    chars (as.flatMap f) = as.flatMap fun a => (f a).chars :=
  List.filterMap_flatMap

end WideText

/-- Whether a text holds no half of a surrogate pair. -/
def IsWhole (text : WideText) : Prop :=
  ∀ p ∈ text, p.isHalf = false

theorem IsWhole.ofChars_chars {text : WideText} (h : IsWhole text) : WideText.ofChars text.chars = text := by
  induction text with
  | nil => rfl
  | cons p text ih =>
    rw [IsWhole, List.forall_mem_cons] at h
    cases p with
    | char c => exact congrArg (CodePoint.char c :: ·) (ih h.2)
    | half place => cases h.1

theorem isWhole_ofChars (cs : List Char) : IsWhole (.ofChars cs) := by
  intro p hp
  obtain ⟨c, _, rfl⟩ := List.mem_map.mp hp
  rfl

theorem encodeFault?_eq_none {text : WideText} : encodeFault? text = none ↔ IsWhole text := by
  have hnil : text.dropWhile (fun p => !p.isHalf) = [] ↔ IsWhole text := by
    simp [List.dropWhile_eq_nil_iff, IsWhole]
  rw [encodeFault?, ← hnil]
  cases text.dropWhile fun p => !p.isHalf <;> simp

/-- Pieces of text have bytes exactly if none holds half of a pair, and then the bytes are those of the whole text. -/
theorem encodePieces_eq_none {pieces : List WideText} : (encodePieces pieces).2 = none ↔ IsWhole pieces.flatten := by
  induction pieces with
  | nil => simp [encodePieces, IsWhole]
  | cons piece rest ih =>
    rw [List.flatten_cons, IsWhole, List.forall_mem_append, ← IsWhole, ← IsWhole, ← ih, ← encodeFault?_eq_none,
      encodePieces, encode]
    cases encodeFault? piece <;> simp

theorem encodePieces_of_isWhole {pieces : List WideText} (h : IsWhole pieces.flatten) :
    encodePieces pieces = (bytesOf (WideText.chars pieces.flatten), none) := by
  induction pieces with
  | nil => rfl
  | cons piece rest ih =>
    rw [List.flatten_cons, IsWhole, List.forall_mem_append] at h
    rw [encodePieces, encode, encodeFault?_eq_none.mpr h.1, ih h.2, List.flatten_cons, WideText.chars_append]
    simp [bytesOf]

theorem unifyNewlines_eq_self {cs : List Char} (h : ∀ c ∈ cs, c ≠ '\r') : unifyNewlines cs = cs := by
  induction cs with
  | nil => rfl
  | cons c cs ih =>
    rw [List.forall_mem_cons] at h
    rw [unifyNewlines, ih h.2]
    · simp [h.1]
    · rintro rest rfl
      exact absurd rfl h.1

end Text

end PointerScript
