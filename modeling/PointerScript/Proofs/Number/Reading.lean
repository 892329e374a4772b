import PointerScript.Script.Operand

/-! How numbers and operands are read. A text without blanks is read as it stands. One that starts with a
digit is a decimal or nothing; one that starts with a letter is one of the names of numbers or nothing. -/

namespace PointerScript

namespace Text

theorem toNat_of_isDigit {c : Char} (h : c.isDigit = true) : 48 ≤ c.toNat ∧ c.toNat ≤ 57 := by
  simpa [Char.isDigit, UInt32.le_iff_toNat_le] using h

theorem isBlank_of_isDigit {c : Char} (h : c.isDigit = true) : isBlank c = false := by
  have := toNat_of_isDigit h
  refine Bool.eq_false_iff.mpr fun hb => ?_
  simp only [isBlank, Bool.or_eq_true, Bool.and_eq_true, decide_eq_true_eq, beq_iff_eq] at hb
  omega

theorem toLower_of_isDigit {c : Char} (h : c.isDigit = true) : c.toLower = c := by
  have hd := toNat_of_isDigit h
  refine dif_neg fun hu => ?_
  have hle : 'A'.val.toNat ≤ c.toNat := UInt32.le_iff_toNat_le.mp hu.1
  have hA : 'A'.val.toNat = 65 := rfl
  omega

theorem digitValue?_of_isDigit {c : Char} (h : c.isDigit = true) : digitValue? c = some (c.toNat - 48) := by
  have := toNat_of_isDigit h
  rw [digitValue?, if_pos (by omega), if_pos h]

theorem trimWhile_none {among : Char → Bool} {cs : List Char} (h : ∀ c ∈ cs, among c = false) :
    trimWhile among cs = cs := by
  have hdrop {ds : List Char} (hd : ∀ c ∈ ds, among c = false) : ds.dropWhile among = ds := by
    cases ds with
    | nil => rfl
    | cons c cs => exact List.dropWhile_cons_of_neg (by simp [hd c (by simp)])
  rw [trimWhile, hdrop h, hdrop fun c hc => h c (by simpa using hc), List.reverse_reverse]

end Text

open Text

namespace Number

theorem takeSign_of_ne {c : Char} (cs : List Char) (hminus : c ≠ '-') (hplus : c ≠ '+') :
    takeSign (c :: cs) = (false, c :: cs) := by
  unfold takeSign
  split
  · rename_i he
    exact absurd (List.cons.inj he).1 hminus
  · rename_i he
    exact absurd (List.cons.inj he).1 hplus
  · rfl

/-- A text that starts with a digit is no name of a number. -/
theorem readNamed?_digit {c : Char} (cs : List Char) (h : c.isDigit = true) (negative : Bool) :
    readNamed? negative (c :: cs) = none := by
  have hne (d : Char) (ds : List Char) (hd : d.isDigit = false) :
      String.ofList ((c :: cs).map Char.toLower) ≠ String.ofList (d :: ds) := by
    intro he
    have hl := congrArg String.toList he
    simp only [String.toList_ofList, List.map_cons, toLower_of_isDigit h, List.cons.injEq] at hl
    simp [← hl.1, h] at hd
  unfold readNamed?
  split
  · rename_i he
    exact absurd he (hne 'i' ['n', 'f'] rfl)
  · rename_i he
    exact absurd he (hne 'i' ['n', 'f', 'i', 'n', 'i', 't', 'y'] rfl)
  · rename_i he
    exact absurd he (hne 'n' ['a', 'n'] rfl)
  · rfl

theorem digitRunFrom_stop {c : Char} (cs : List Char) (hd : digitValue? c = none) (hu : c ≠ '_') (after : Bool) :
    digitRunFrom after (c :: cs) = ([], c :: cs) := by
  rw [digitRunFrom, hd]
  simp [hu]

/-- Digits are taken up to where they stop. -/
theorem digitRunFrom_append {cs rest : List Char} (h : ∀ c ∈ cs, c.isDigit = true)
    (hr : ∀ after, digitRunFrom after rest = ([], rest)) (after : Bool) :
    digitRunFrom after (cs ++ rest) = (cs.map fun c => c.toNat - 48, rest) := by
  induction cs generalizing after with
  | nil => exact hr after
  | cons c cs ih =>
    rw [List.forall_mem_cons] at h
    rw [List.cons_append, digitRunFrom, digitValue?_of_isDigit h.1]
    simp only [ih h.2, List.map_cons]

/-- The number that digits write. -/
theorem ofDigits_map (cs : List Char) : ofDigits (cs.map fun c => c.toNat - 48) = Nat.ofDigitChars 10 cs 0 := by
  simp [ofDigits, List.foldl_map, Nat.ofDigitChars]

/-- Digits with a point among them, and what follows, are read as a decimal. -/
theorem readDecimal?_point {whole fraction tail : List Char} {e : Int} (hne : whole ≠ [])
    (hw : ∀ c ∈ whole, c.isDigit = true) (hf : ∀ c ∈ fraction, c.isDigit = true)
    (hstop : ∀ after, digitRunFrom after tail = ([], tail)) (ht : readExponent? tail = some (e, [])) :
    readDecimal? (whole ++ '.' :: (fraction ++ tail)) =
      some ⟨Nat.ofDigitChars 10 (whole ++ fraction) 0, e - fraction.length⟩ := by
  have hwhole : digitRun (whole ++ '.' :: (fraction ++ tail)) =
      (whole.map fun c => c.toNat - 48, '.' :: (fraction ++ tail)) :=
    digitRunFrom_append hw (digitRunFrom_stop _ (by decide) (by decide)) false
  have hfraction : digitRun (fraction ++ tail) = (fraction.map fun c => c.toNat - 48, tail) :=
    digitRunFrom_append hf hstop false
  simp only [readDecimal?, hwhole, readFraction, hfraction, ht]
  rw [if_neg (by simp [hne]), ← List.map_append, ofDigits_map, List.length_map]

/-- Digits without a point, and what follows, are read as a decimal. -/
theorem readDecimal?_whole {whole tail : List Char} {e : Int} (hne : whole ≠ [])
    (hw : ∀ c ∈ whole, c.isDigit = true) (hpoint : tail.head? ≠ some '.')
    (hstop : ∀ after, digitRunFrom after tail = ([], tail)) (ht : readExponent? tail = some (e, [])) :
    readDecimal? (whole ++ tail) = some ⟨Nat.ofDigitChars 10 whole 0, e⟩ := by
  have hwhole : digitRun (whole ++ tail) = (whole.map fun c => c.toNat - 48, tail) :=
    digitRunFrom_append hw hstop false
  have hfraction : readFraction tail = ([], tail) := by
    unfold readFraction
    split
    · simp at hpoint
    · rfl
  simp only [readDecimal?, hwhole, hfraction, ht]
  rw [if_neg (by simp [hne]), List.append_nil, ofDigits_map]
  simp

theorem readBinary64?_unpadded {cs : List Char} (h : ∀ c ∈ cs, isBlank c = false) :
    readBinary64? cs =
      match readNamed? (takeSign cs).1 (takeSign cs).2 with
      | some x => some x
      | none => (readDecimal? (takeSign cs).2).map (Decimal.nearest (takeSign cs).1) := by
  rewrite [readBinary64?, trimWhile_none fun c hc => by simp [isPadding, h c hc]]
  rfl

/-- A text that starts with a digit is a decimal or no number. -/
theorem readBinary64?_digit {c : Char} {cs : List Char} (hc : c.isDigit = true)
    (h : ∀ d ∈ c :: cs, isBlank d = false) :
    readBinary64? (c :: cs) = (readDecimal? (c :: cs)).map (Decimal.nearest false) := by
  have hminus : c ≠ '-' := by rintro rfl; exact absurd hc (by decide)
  have hplus : c ≠ '+' := by rintro rfl; exact absurd hc (by decide)
  simp only [readBinary64?_unpadded h, takeSign_of_ne cs hminus hplus, readNamed?_digit cs hc]

/-- A text that starts with neither a sign nor a digit nor a point is the name of a number or no number. -/
theorem readBinary64?_letter {c : Char} {cs : List Char} (hminus : c ≠ '-') (hplus : c ≠ '+') (hpoint : c ≠ '.')
    (hdigit : digitValue? c = none) (h : ∀ d ∈ c :: cs, isBlank d = false) :
    readBinary64? (c :: cs) = readNamed? false (c :: cs) := by
  have hrun : digitRun (c :: cs) = ([], c :: cs) := by
    rw [digitRun, digitRunFrom, hdigit]
    rfl
  have hfraction : readFraction (c :: cs) = ([], c :: cs) := by
    unfold readFraction
    split
    · rename_i he
      exact absurd (List.cons.inj he).1 hpoint
    · rfl
  have hnone : readDecimal? (c :: cs) = none := by
    simp only [readDecimal?, hrun, hfraction, List.isEmpty_nil, Bool.and_true, if_true]
  simp only [readBinary64?_unpadded h, takeSign_of_ne cs hminus hplus, hnone, Option.map_none]
  cases readNamed? false (c :: cs) <;> rfl

end Number

/-- An operand without blanks is a number if it spells one, and a name otherwise. -/
theorem Operand.read_unblank {s : String} (h : ∀ c ∈ s.toList, isBlank c = false) :
    Operand.read s =
      match Number.readBinary64? s.toList with
      | some x => .literal (.float x)
      | none => .named s := by
  rewrite [Operand.read, Text.trim, trimWhile_none h, String.ofList_toList]
  rfl

end PointerScript
