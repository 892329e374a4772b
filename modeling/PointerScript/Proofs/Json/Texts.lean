import PointerScript.Proofs.Json.ReadBack

/-! The texts inside a JSON value and what is written for them. Whatever is written around them is ASCII, and so is every
escape, so what is written for a value has bytes just if its texts have, and it holds no carriage return. -/

namespace PointerScript

namespace Json

open Text

theorem all_congr_of_mem {α : Type} {f g : α → Bool} {as : List α} (h : ∀ a ∈ as, f a = g a) : as.all f = as.all g := by
  rw [Bool.eq_iff_iff, List.all_eq_true, List.all_eq_true]
  exact forall₂_congr fun a ha => by rw [h a ha]

/-- Whether a property of code points holds of all characters that are written outside texts. -/
def AllowsPlain (p : CodePoint → Bool) : Prop :=
  ∀ c, isPlain c = true → p (.char c) = true

section Plain

variable {p : CodePoint → Bool}

theorem AllowsPlain.all_ofChars (hp : AllowsPlain p) (cs : List Char) (h : cs.all isPlain = true) :
    (WideText.ofChars cs).all p = true := by
  rw [WideText.ofChars, List.all_map, List.all_eq_true]
  exact fun c hc => hp c (List.all_eq_true.mp h c hc)

theorem AllowsPlain.all_newline (hp : AllowsPlain p) (level : Nat) : (newline level).all p = true := by
  refine hp.all_ofChars _ ?_
  rw [List.all_cons, List.all_replicate]
  split <;> decide

theorem all_isPlain_writeNumber {n : Number} (h : CanRead n) : (writeNumber n).toList.all isPlain = true := by
  have hgraphic := all_isGraphic_writeNumber h
  rw [List.all_eq_true] at hgraphic ⊢
  intro c hc
  rw [isPlain, hgraphic c hc, Bool.or_true]

theorem AllowsPlain.all_writeString (hp : AllowsPlain p) (s : WideText) :
    (writeString s).all p = s.all fun q => (writePoint q).all p := by
  rw [writeString, List.all_cons, List.all_append, List.all_flatMap, hp '"' (by decide)]
  simp [hp '"' (by decide)]

/-- What holds of all plain characters holds of all that is written for a value just if it holds of what is written for
its texts. -/
theorem AllowsPlain.all_pointsAt (hp : AllowsPlain p) {depth : Nat} {json : Json} (h : Readable depth json) (level : Nat) :
    (pointsAt level json).all p = json.texts.all fun text => text.all fun q => (writePoint q).all p := by
  have hbreak := hp.all_newline
  induction h generalizing level with
  | null => exact hp.all_ofChars "null".toList (by decide)
  | bool b =>
    cases b
    · exact hp.all_ofChars "false".toList (by decide)
    · exact hp.all_ofChars "true".toList (by decide)
  | num h =>
    rw [pointsAt_num]
    exact hp.all_ofChars _ (all_isPlain_writeNumber h)
  | str s =>
    rw [pointsAt_str, hp.all_writeString, texts, List.all_cons, List.all_nil, Bool.and_true]
  | @arr depth items h ih =>
    rw [texts, itemTexts_eq, List.all_flatMap, ← all_congr_of_mem fun item hitem => ih item hitem (level + 1)]
    cases items with
    | nil => exact hp.all_ofChars "[]".toList (by decide)
    | cons item items =>
      rw [pointsAt_arr]
      simp only [List.all_cons, List.all_append, List.all_flatMap, List.all_nil, hbreak, hp '[' (by decide),
        hp ']' (by decide), hp ',' (by decide), Bool.true_and, Bool.and_true]
  | @obj depth entries hkeys h ih =>
    have hentry : ∀ entry ∈ entries, (entryPointsAt (level + 1) entry).all p =
        (entry.1 :: entry.2.texts).all fun text => text.all fun q => (writePoint q).all p := by
      intro entry hentry
      rw [List.all_cons, ← ih entry hentry (level + 1), entryPointsAt, List.all_append, hp.all_writeString]
      simp only [List.all_cons, hp ':' (by decide), hp ' ' (by decide), Bool.true_and]
    rw [texts, entryTexts_eq, List.all_flatMap, ← all_congr_of_mem hentry]
    cases entries with
    | nil => exact hp.all_ofChars "\x7b\x7d".toList (by decide)
    | cons entry entries =>
      rw [pointsAt_obj]
      simp only [List.all_cons, List.all_append, List.all_flatMap, List.all_nil, hbreak, hp '\x7b' (by decide),
        hp '\x7d' (by decide), hp ',' (by decide), Bool.true_and, Bool.and_true]

theorem all_isPlain_hexDigits (n : Nat) : (hexDigits 4 n).all isPlain = true := by
  have hdigit : ∀ d < 16, isPlain (hexDigit d) = true := by decide
  simp [hexDigits, hdigit, Nat.mod_lt]

/-- What holds of all plain characters holds of what is written for a character, if it is not one that stands for
itself. -/
theorem AllowsPlain.all_writeChar (hp : AllowsPlain p) {c : Char} (hc : 0x20 ≤ c.toNat → p (.char c) = true) :
    (writePoint (.char c)).all p = true := by
  rw [writePoint]
  rcases writeChar_cases c with ⟨e, hwrite, -, -, he, -⟩ | ⟨hwrite, -⟩ | ⟨hwrite, -, -, hlarge⟩
  · rw [hwrite]
    exact hp.all_ofChars _ (by simp [he, show isPlain '\\' = true by decide])
  · rw [hwrite]
    exact hp.all_ofChars _ (by simp [all_isPlain_hexDigits, show isPlain '\\' = true by decide,
      show isPlain 'u' = true by decide])
  · simp [hwrite, WideText.ofChars, hc hlarge]

end Plain

/-- What is written for a value has bytes just if all its texts have. -/
theorem isWhole_pointsAt {depth : Nat} {json : Json} (h : Readable depth json) (level : Nat) :
    IsWhole (pointsAt level json) ↔ json.Whole := by
  have hall (text : WideText) : IsWhole text ↔ (text.all fun q => !q.isHalf) = true := by
    simp [IsWhole]
  have hplain : AllowsPlain fun q => !q.isHalf := fun _ _ => rfl
  have hpoint (q : CodePoint) : ((writePoint q).all fun q => !q.isHalf) = !q.isHalf := by
    cases q with
    | char c => exact hplain.all_writeChar fun _ => rfl
    | half place => rfl
  rw [hall, hplain.all_pointsAt h, List.all_eq_true, Whole]
  refine forall₂_congr fun text _ => ?_
  simp only [hall, hpoint]

theorem return_not_mem_charsAt {depth : Nat} {json : Json} (h : Readable depth json) (level : Nat) :
    ∀ c ∈ charsAt level json, c ≠ '\r' := by
  have hplain : AllowsPlain fun q => q != .char '\r' := by
    intro c hc
    rw [bne_iff_ne]
    intro he
    obtain rfl := CodePoint.char.inj he
    exact absurd hc (by decide)
  have hpoint (q : CodePoint) : ((writePoint q).all fun q => q != .char '\r') = true := by
    cases q with
    | char c =>
      refine hplain.all_writeChar fun hlarge => ?_
      rw [bne_iff_ne]
      intro he
      obtain rfl := CodePoint.char.inj he
      exact absurd hlarge (by decide)
    | half place => rfl
  have hall : ((pointsAt level json).all fun q => q != .char '\r') = true := by
    rw [hplain.all_pointsAt h]
    simp only [hpoint, List.all_eq_true, implies_true]
  intro c hc
  obtain ⟨q, hq, hchar⟩ := List.mem_filterMap.mp hc
  cases q with
  | char d =>
    obtain rfl := Option.some.inj hchar
    rintro rfl
    exact absurd (List.all_eq_true.mp hall _ hq) (by decide)
  | half place => cases hchar

end Json

end PointerScript
