import Mathlib.Algebra.Order.Field.Rat
import Mathlib.Tactic.FieldSimp
import Mathlib.Tactic.NormNum
import PointerScript.Proofs.Number.Reading
import PointerScript.Proofs.Number.Rounding

/-! What is written as a number reads back as the same number. The text of a decimal is read as a decimal of
the same value, however it is laid out, and the text of a floating-point number stands for a decimal whose
nearest floating-point number it is. -/

namespace PointerScript

def Decimal.value (d : Decimal) : ℚ :=
  d.digits * 10 ^ d.exponent

open Text

namespace Number

theorem digitChars_digits (n : Nat) : ∀ c ∈ digitChars n, c.isDigit = true :=
  fun _ hc => Nat.isDigit_of_mem_toDigits (by decide) (by decide) hc

theorem digitChars_ne_nil (n : Nat) : digitChars n ≠ [] :=
  Nat.toDigits_ne_nil

theorem ofDigitChars_digitChars (n : Nat) : Nat.ofDigitChars 10 (digitChars n) 0 = n :=
  Nat.ofDigitChars_toDigits (by decide) (by decide)

theorem ofDigitChars_append_zeros (cs : List Char) (z : Nat) :
    Nat.ofDigitChars 10 (cs ++ List.replicate z '0') 0 = Nat.ofDigitChars 10 cs 0 * 10 ^ z := by
  induction z with
  | zero => simp
  | succ z ih =>
    rw [List.replicate_succ', ← List.append_assoc, Nat.ofDigitChars_append, ih, Nat.ofDigitChars_cons,
      Nat.ofDigitChars_nil, Nat.sub_self, Nat.add_zero, Nat.mul_comm 10, Nat.pow_succ, Nat.mul_assoc]

theorem ofDigitChars_zeros_append (cs : List Char) (z : Nat) :
    Nat.ofDigitChars 10 (List.replicate z '0' ++ cs) 0 = Nat.ofDigitChars 10 cs 0 := by
  have hzero := ofDigitChars_append_zeros [] z
  rw [List.nil_append, Nat.ofDigitChars_nil, Nat.zero_mul] at hzero
  rw [Nat.ofDigitChars_append, hzero]

/-- Dropping zeros at the end leaves the leading digits. -/
theorem dropTrailingZeros_append {all : List Char} (hne : all ≠ []) :
    ∃ z, all = dropTrailingZeros all ++ List.replicate z '0' := by
  have hzeros : ∃ z, all.reverse = List.replicate z '0' ++ all.reverse.dropWhile (· == '0') := by
    generalize all.reverse = cs
    induction cs with
    | nil => exact ⟨0, rfl⟩
    | cons c cs ih =>
      by_cases hc : c = '0'
      · obtain ⟨z, hz⟩ := ih
        refine ⟨z + 1, ?_⟩
        rw [hc, List.dropWhile_cons_of_pos (by rfl), List.replicate_succ, List.cons_append, ← hz]
      · exact ⟨0, by rw [List.dropWhile_cons_of_neg (by simpa using hc)]; rfl⟩
  obtain ⟨z, hz⟩ := hzeros
  have hall := congrArg List.reverse hz
  rw [List.reverse_reverse, List.reverse_append, List.reverse_replicate] at hall
  unfold dropTrailingZeros
  split
  · rename_i hnil
    rw [hnil, List.reverse_nil, List.nil_append] at hall
    cases z with
    | zero => exact absurd hall hne
    | succ z => exact ⟨z, hall⟩
  · exact ⟨z, hall⟩

theorem dropTrailingZeros_ne_nil (all : List Char) : dropTrailingZeros all ≠ [] := by
  unfold dropTrailingZeros
  split
  · simp
  · rename_i hne
    simpa using hne

/-- An exponent part is read as the exponent it writes. -/
theorem readExponent?_exponentChars (e : Int) : readExponent? (exponentChars e) = some (e, []) := by
  obtain ⟨digits, hdigits, hne, hvalue, htext⟩ : ∃ digits : List Char, (∀ c ∈ digits, c.isDigit = true) ∧
      digits ≠ [] ∧ Nat.ofDigitChars 10 digits 0 = e.natAbs ∧
      exponentChars e = 'e' :: (if e < 0 then '-' else '+') :: digits := by
    have hdigits := digitChars_digits e.natAbs
    have hvalue := ofDigitChars_digitChars e.natAbs
    by_cases hlen : (digitChars e.natAbs).length < 2
    · refine ⟨'0' :: digitChars e.natAbs, List.forall_mem_cons.mpr ⟨rfl, hdigits⟩, by simp, ?_, ?_⟩
      · exact (ofDigitChars_zeros_append _ 1).trans hvalue
      · simp only [exponentChars, if_pos hlen]
    · exact ⟨_, hdigits, digitChars_ne_nil _, hvalue, by simp only [exponentChars, if_neg hlen]⟩
  have hrun : digitRun digits = (digits.map fun c => c.toNat - 48, []) := by
    have happend := @digitRunFrom_append digits [] hdigits (fun _ => rfl) false
    rwa [List.append_nil] at happend
  have hread (negative : Bool) : readExponent? ('e' :: (if negative then '-' else '+') :: digits) =
      some (Binary64.signed negative e.natAbs, []) := by
    rw [← hvalue, ← ofDigits_map]
    cases negative <;> cases digits with
    | nil => exact absurd rfl hne
    | cons c cs => simp only [readExponent?, takeSign, hrun, List.map_cons, Bool.false_eq_true, if_false, if_true]
  rw [htext]
  have hsign := hread (e < 0)
  simp only [decide_eq_true_eq] at hsign
  rw [hsign, Binary64.signed]
  split
  · rename_i hneg
    have : e < 0 := of_decide_eq_true hneg
    congr 2
    omega
  · rename_i hneg
    have : ¬ e < 0 := fun h => hneg (decide_eq_true h)
    congr 2
    omega

private theorem value_shift (n k : Nat) (e : Int) :
    (⟨n * 10 ^ k, e⟩ : Decimal).value = (⟨n, e + k⟩ : Decimal).value := by
  simp only [Decimal.value, Nat.cast_mul, Nat.cast_pow, Nat.cast_ofNat]
  rw [zpow_add₀ (by norm_num), zpow_natCast, mul_assoc, mul_comm ((10 : ℚ) ^ k)]

/-- Digits with a point behind the first and an exponent part are read as a decimal. -/
private theorem readDecimal?_mantissa (digits : List Char) (leading : Int) :
    digits ≠ [] → (∀ c ∈ digits, c.isDigit = true) →
    readDecimal? ((match digits with
      | [one] => [one]
      | first :: rest => first :: '.' :: rest
      | [] => []) ++ exponentChars leading) =
        some ⟨Nat.ofDigitChars 10 digits 0, leading - (digits.length - 1 : Nat)⟩ := by
  intro hne hd
  have hstop : ∀ after, digitRunFrom after (exponentChars leading) = ([], exponentChars leading) :=
    digitRunFrom_stop _ (by decide) (by decide)
  have hread := readExponent?_exponentChars leading
  rcases digits with _ | ⟨first, _ | ⟨second, rest⟩⟩
  · exact absurd rfl hne
  · have hw := readDecimal?_whole hne hd (by simp [exponentChars]) hstop hread
    simpa using hw
  · rw [List.forall_mem_cons] at hd
    exact @readDecimal?_point [first] (second :: rest) _ leading (by simp) (by simpa using hd.1) hd.2 hstop hread

/-- The text of a decimal is read as a decimal of the same value. -/
theorem readDecimal?_write (layout : Layout) (d : Decimal) :
    ∃ read, readDecimal? (layout.write d) = some read ∧ read.value = d.value := by
  obtain ⟨z, hall⟩ := dropTrailingZeros_append (digitChars_ne_nil d.digits)
  have hne := dropTrailingZeros_ne_nil (digitChars d.digits)
  have hdigits := digitChars_digits d.digits
  have hnumber := ofDigitChars_digitChars d.digits
  unfold Layout.write
  dsimp only
  generalize dropTrailingZeros (digitChars d.digits) = digits at *
  rw [hall] at hdigits hnumber ⊢
  rw [ofDigitChars_append_zeros] at hnumber
  rw [List.forall_mem_append] at hdigits
  have hzeros {k : Nat} : ∀ c ∈ List.replicate k '0', c.isDigit = true := by
    intro c hc
    rw [List.eq_of_mem_replicate hc]
    rfl
  have hvalue : d.value = (⟨Nat.ofDigitChars 10 digits 0, d.exponent + z⟩ : Decimal).value := by
    rw [← value_shift, hnumber]
  rw [hvalue, List.length_append, List.length_replicate]
  generalize hleading : d.exponent + ((digits.length + z : Nat) : Int) - 1 = leading
  have hlength := List.length_pos_iff.mpr hne
  have hexponent : d.exponent + z = leading - (digits.length - 1 : Nat) := by omega
  rw [hexponent]
  split
  · split
    · -- Zeros between the point and the digits.
      have hall : ∀ c ∈ List.replicate (-leading - 1).toNat '0' ++ digits, c.isDigit = true :=
        List.forall_mem_append.mpr ⟨hzeros, hdigits.1⟩
      have hread := @readDecimal?_point ['0'] _ [] 0 (by simp) (by simp) hall (fun _ => rfl) rfl
      rw [List.append_nil] at hread
      refine ⟨_, hread, ?_⟩
      rw [List.singleton_append, ← List.cons_append, ← List.replicate_succ, ofDigitChars_zeros_append,
        List.length_append, List.length_replicate]
      congr 2
      omega
    · split
      · -- Zeros between the digits and the point.
        have hwhole : ∀ c ∈ digits ++ List.replicate (leading.toNat + 1 - digits.length) '0', c.isDigit = true :=
          List.forall_mem_append.mpr ⟨hdigits.1, hzeros⟩
        have hread := @readDecimal?_point _ ['0'] [] 0 (by simp [hne]) hwhole (by simp) (fun _ => rfl) rfl
        refine ⟨_, hread, ?_⟩
        rw [List.append_assoc, ← List.replicate_succ', ofDigitChars_append_zeros, value_shift]
        congr 2
        simp only [List.length_singleton]
        omega
      · have hread := @readDecimal?_point (digits.take (leading.toNat + 1)) (digits.drop (leading.toNat + 1)) [] 0
          (by simp [hne]) (fun c hc => hdigits.1 c (List.mem_of_mem_take hc))
          (fun c hc => hdigits.1 c (List.mem_of_mem_drop hc)) (fun _ => rfl) rfl
        rw [List.append_nil, List.take_append_drop] at hread
        refine ⟨_, hread, ?_⟩
        rw [List.length_drop]
        congr 2
        omega
  · exact ⟨_, readDecimal?_mantissa digits leading hne hdigits.1, rfl⟩

end Number

namespace Decimal

open Binary64

private theorem two_pow_le_ten_pow {a b : Nat} (h : a ≤ 3 * b) : 2 ^ a ≤ 10 ^ b :=
  calc 2 ^ a ≤ 2 ^ (3 * b) := Nat.pow_le_pow_right Nat.zero_lt_two h
    _ = 8 ^ b := Nat.pow_mul 2 3 b
    _ ≤ 10 ^ b := Nat.pow_le_pow_left (by decide) b

/-- A decimal with the value of a finite number is nearest to that number. -/
theorem nearest_of_value {d : Decimal} {rank : Fin magnitudes}
    (h : d.value = (quantaOfRank rank : ℚ) / unit) (negative : Bool) : d.nearest negative = .finite negative rank := by
  have hunit : (unit : ℚ) ≠ 0 := Nat.cast_ne_zero.mpr unit_pos.ne'
  have hexact {c : Nat} (hc : 0 < c) := ofQuanta_quantaOfRank negative rank hc
  obtain ⟨ubits, hubits, hpow⟩ := exists_unit_eq
  unfold nearest
  rw [Decimal.value, eq_div_iff hunit] at h
  split
  · rename_i h0
    rw [h0, Nat.cast_zero, zero_mul, zero_mul, eq_comm, Nat.cast_eq_zero] at h
    rw [← hexact Nat.one_pos, h]
    rfl
  rename_i h0
  have hpos : 0 < d.digits := Nat.pos_of_ne_zero h0
  split
  · rename_i hexp
    obtain ⟨n, hn⟩ := Int.eq_ofNat_of_zero_le hexp
    rw [hn, zpow_natCast] at h
    have hquanta : d.digits * 10 ^ n * unit = quantaOfRank rank := by exact_mod_cast h
    split
    · -- A number as large as this would not be finite.
      rename_i hextreme
      obtain ⟨bits, hbits, hlt⟩ := quantaOfRank_lt rank
      have hlarge : 2 ^ bits ≤ d.digits * 10 ^ n :=
        (two_pow_le_ten_pow (by simp only [extremeExponent] at hextreme; omega)).trans (Nat.le_mul_of_pos_left _ hpos)
      rw [← hquanta] at hlt
      exact absurd (Nat.mul_le_mul_right unit hlarge) (Nat.not_le.mpr hlt)
    · simp only [hn, Int.toNat_natCast, Nat.pow_eq]
      have hfinite := hexact Nat.one_pos
      rwa [Nat.mul_one, ← hquanta] at hfinite
  · rename_i hexp
    obtain ⟨p, hp⟩ : ∃ p : Nat, d.exponent = -p := ⟨(-d.exponent).toNat, by omega⟩
    have hten : ((10 : ℚ) ^ p) ≠ 0 := by positivity
    rw [hp, zpow_neg, zpow_natCast, mul_comm, ← mul_assoc, mul_inv_eq_iff_eq_mul₀ hten] at h
    have hquanta : unit * d.digits = quantaOfRank rank * 10 ^ p := by exact_mod_cast h
    have hplaces : (-d.exponent).toNat = p := by omega
    simp only [hplaces, Nat.pow_eq]
    split
    · -- A positive number as small as this would be less than a quantum.
      rename_i hextreme
      simp only [extremeExponent] at hextreme
      have hrank : 0 < quantaOfRank rank := by
        refine Nat.pos_of_ne_zero fun hz => ?_
        rw [hz, Nat.zero_mul] at hquanta
        exact absurd hquanta (Nat.mul_pos unit_pos hpos).ne'
      have hsmall : unit * d.digits < 10 ^ p := by
        calc unit * d.digits < unit * 2 ^ (d.digits.log2 + 1) :=
              Nat.mul_lt_mul_of_pos_left Nat.lt_log2_self unit_pos
          _ = 2 ^ (ubits + (d.digits.log2 + 1)) := by rw [hpow, ← Nat.pow_add]
          _ ≤ 10 ^ p := two_pow_le_ten_pow (by omega)
      rw [hquanta] at hsmall
      exact absurd (Nat.le_mul_of_pos_left (10 ^ p) hrank) (Nat.not_le.mpr hsmall)
    · rw [Nat.mul_comm, hquanta]
      exact hexact (Nat.pow_pos (by decide))

theorem nearest_neg (d : Decimal) : d.nearest true = (d.nearest false).neg := by
  have hrank (rank : Nat) : ofRank true rank = (ofRank false rank).neg := by
    unfold ofRank
    split <;> rfl
  unfold nearest
  simp only [ofQuanta, zero, hrank]
  split
  · rfl
  · split
    · split <;> rfl
    · split <;> rfl

end Decimal

namespace Number

def isNumeral (c : Char) : Bool :=
  c.isDigit || c == '.' || c == 'e' || c == '+' || c == '-'

theorem isNumeral_of_isDigit {c : Char} (h : c.isDigit = true) : isNumeral c = true := by
  simp [isNumeral, h]

theorem unblank_of_isNumeral {c : Char} (h : isNumeral c = true) : isBlank c = false ∧ c ≠ ';' := by
  simp only [isNumeral, Bool.or_eq_true, beq_iff_eq] at h
  rcases h with (((hdigit | rfl) | rfl) | rfl) | rfl
  · refine ⟨isBlank_of_isDigit hdigit, ?_⟩
    rintro rfl
    exact absurd hdigit (by decide)
  all_goals decide

private theorem isNumeral_exponentChars (e : Int) : ∀ c ∈ exponentChars e, isNumeral c = true := by
  have hdigits : ∀ c ∈ digitChars e.natAbs, isNumeral c = true := fun c hc =>
    isNumeral_of_isDigit (digitChars_digits _ c hc)
  unfold exponentChars
  dsimp only
  simp only [List.forall_mem_cons]
  refine ⟨rfl, ?_, ?_⟩
  · split <;> rfl
  · split
    · exact List.forall_mem_cons.mpr ⟨rfl, hdigits⟩
    · exact hdigits

/-- The text of a decimal is written with these characters and starts with a digit. -/
theorem write_numeral (layout : Layout) (d : Decimal) :
    (∀ c ∈ layout.write d, isNumeral c = true) ∧ ∃ c cs, layout.write d = c :: cs ∧ c.isDigit = true := by
  obtain ⟨z, hall⟩ := dropTrailingZeros_append (digitChars_ne_nil d.digits)
  have hne := dropTrailingZeros_ne_nil (digitChars d.digits)
  have hdigits := digitChars_digits d.digits
  unfold Layout.write
  dsimp only
  generalize dropTrailingZeros (digitChars d.digits) = digits at *
  rw [hall, List.forall_mem_append] at hdigits
  obtain ⟨first, rest, rfl⟩ := List.exists_cons_of_ne_nil hne
  have hfirst : first.isDigit = true := hdigits.1 first (by simp)
  have hnumeral : ∀ c ∈ first :: rest, isNumeral c = true := fun c hc => isNumeral_of_isDigit (hdigits.1 c hc)
  have hzeros {k : Nat} : ∀ c ∈ List.replicate k '0', isNumeral c = true := by
    intro c hc
    rw [List.eq_of_mem_replicate hc]
    rfl
  split
  · split
    · refine ⟨?_, '0', _, rfl, rfl⟩
      simp only [List.forall_mem_cons, List.forall_mem_append]
      exact ⟨rfl, rfl, hzeros, List.forall_mem_cons.mp hnumeral⟩
    · split
      · refine ⟨?_, first, _, rfl, hfirst⟩
        rw [List.forall_mem_append, List.forall_mem_append]
        exact ⟨⟨hnumeral, hzeros⟩, List.forall_mem_cons.mpr ⟨rfl, List.forall_mem_singleton.mpr rfl⟩⟩
      · refine ⟨?_, first, _, rfl, hfirst⟩
        rw [List.forall_mem_append, List.forall_mem_cons]
        exact ⟨fun c hc => hnumeral c (List.mem_of_mem_take hc), rfl,
          fun c hc => hnumeral c (List.mem_of_mem_drop hc)⟩
  · cases rest with
    | nil =>
      refine ⟨?_, first, _, rfl, hfirst⟩
      exact List.forall_mem_append.mpr ⟨hnumeral, isNumeral_exponentChars _⟩
    | cons second rest =>
      refine ⟨?_, first, _, rfl, hfirst⟩
      rw [List.forall_mem_cons] at hnumeral
      refine List.forall_mem_append.mpr ⟨?_, isNumeral_exponentChars _⟩
      exact List.forall_mem_cons.mpr ⟨hnumeral.1, List.forall_mem_cons.mpr ⟨rfl, hnumeral.2⟩⟩

/-- The text of a magnitude is that of a decimal. -/
theorem exists_write_eq (rank : Fin Binary64.magnitudes) : ∃ d, magnitudeChars rank = standardLayout.write d := by
  unfold magnitudeChars
  dsimp only
  split
  · rename_i text htext
    obtain ⟨d, _, hd⟩ := List.mem_map.mp (List.mem_of_find?_eq_some htext)
    exact ⟨d, hd.symm⟩
  · exact ⟨_, rfl⟩

private theorem value_exactDecimal (quanta : Nat) :
    (exactDecimal quanta).value = (quanta : ℚ) / Binary64.unit := by
  obtain ⟨bits, hbits, hunit⟩ := Binary64.exists_unit_eq
  have hfive : Nat.pow 5 1074 = 5 ^ bits := by
    subst hbits
    decide +kernel
  have hplaces : (-1074 : Int) = -bits := by omega
  have hexact : exactDecimal quanta = ⟨quanta * 5 ^ bits, -bits⟩ := by rw [exactDecimal, hfive, hplaces]
  rw [hexact, hunit, Decimal.value]
  simp only [Nat.cast_mul, Nat.cast_pow, Nat.cast_ofNat]
  rw [zpow_neg, zpow_natCast, show (10 : ℚ) = 2 * 5 by norm_num, mul_pow]
  field_simp

theorem readBinary64?_magnitudeChars (rank : Fin Binary64.magnitudes) :
    readBinary64? (magnitudeChars rank) = some (.finite false rank) := by
  unfold magnitudeChars
  dsimp only
  split
  · rename_i text htext
    have hread := List.find?_some htext
    exact eq_of_beq hread
  · obtain ⟨hnumeral, c, cs, htext, hc⟩ := write_numeral standardLayout (exactDecimal (Binary64.quantaOfRank rank))
    obtain ⟨read, hread, hvalue⟩ := readDecimal?_write standardLayout (exactDecimal (Binary64.quantaOfRank rank))
    rw [value_exactDecimal] at hvalue
    rw [htext] at hnumeral hread ⊢
    rw [readBinary64?_digit hc fun d hd => (unblank_of_isNumeral (hnumeral d hd)).1, hread, Option.map_some,
      Decimal.nearest_of_value hvalue]

/-- A minus sign is read as the sign of the number behind it. -/
private theorem readBinary64?_minus {c : Char} {cs : List Char} (hc : c.isDigit = true)
    (h : ∀ d ∈ c :: cs, isBlank d = false) :
    readBinary64? ('-' :: c :: cs) = (readDecimal? (c :: cs)).map (Decimal.nearest true) := by
  have hblank : ∀ d ∈ '-' :: c :: cs, isBlank d = false := List.forall_mem_cons.mpr ⟨by decide, h⟩
  simp only [readBinary64?_unpadded hblank, takeSign, readNamed?_digit cs hc]

private theorem binary64Chars_finite (negative : Bool) (rank : Fin Binary64.magnitudes) :
    binary64Chars (.finite negative rank) = (if negative then ['-'] else []) ++ magnitudeChars rank := by
  rw [binary64Chars]

/-- Every floating-point number is read back from its text. -/
theorem readBinary64?_binary64Chars (x : Binary64) : readBinary64? (binary64Chars x) = some x := by
  cases x with
  | nan => decide +kernel
  | infinite negative => cases negative <;> decide +kernel
  | finite negative rank =>
    have hread := readBinary64?_magnitudeChars rank
    obtain ⟨d, hd⟩ := exists_write_eq rank
    obtain ⟨hnumeral, c, cs, htext, hc⟩ := write_numeral standardLayout d
    have hblank : ∀ e ∈ c :: cs, isBlank e = false := by
      rw [← htext]
      exact fun e he => (unblank_of_isNumeral (hnumeral e he)).1
    cases negative with
    | false =>
      rw [binary64Chars_finite]
      simp only [Bool.false_eq_true, if_false, List.nil_append]
      exact hread
    | true =>
      rw [hd, htext, readBinary64?_digit hc hblank] at hread
      obtain ⟨decimal, hdecimal, hnearest⟩ := Option.map_eq_some_iff.mp hread
      have hminus : binary64Chars (.finite true rank) = '-' :: c :: cs := by
        rw [binary64Chars_finite, hd, htext]
        rfl
      rw [hminus, readBinary64?_minus hc hblank, hdecimal, Option.map_some, Decimal.nearest_neg, hnearest,
        Binary64.neg, Bool.not_false]

private theorem unblank_of_all {cs : List Char} (h : (cs.all fun c => !isBlank c && c != ';') = true) :
    ∀ c ∈ cs, isBlank c = false ∧ c ≠ ';' := by
  simpa using h

/-- The text of a floating-point number is a word. -/
theorem binary64Chars_unblank (x : Binary64) :
    binary64Chars x ≠ [] ∧ ∀ c ∈ binary64Chars x, isBlank c = false ∧ c ≠ ';' := by
  cases x with
  | nan => exact ⟨nofun, unblank_of_all (by decide)⟩
  | infinite negative => cases negative <;> exact ⟨nofun, unblank_of_all (by decide)⟩
  | finite negative rank =>
    obtain ⟨d, hd⟩ := exists_write_eq rank
    obtain ⟨hnumeral, c, cs, htext, _⟩ := write_numeral standardLayout d
    rw [binary64Chars_finite, hd]
    refine ⟨by simp [htext], ?_⟩
    rw [List.forall_mem_append]
    refine ⟨?_, fun e he => unblank_of_isNumeral (hnumeral e he)⟩
    cases negative <;> exact unblank_of_all (by decide)

/-- The text of a whole number is a word. -/
theorem intChars_unblank (n : Int) : intChars n ≠ [] ∧ ∀ c ∈ intChars n, isBlank c = false ∧ c ≠ ';' := by
  rw [intChars, List.forall_mem_append]
  refine ⟨by simp [digitChars_ne_nil], ?_, ?_⟩
  · split <;> exact unblank_of_all (by decide)
  · exact fun c hc => unblank_of_isNumeral (isNumeral_of_isDigit (digitChars_digits _ c hc))

/-- A whole number of at most 53 bits is read back from its text as a floating-point number. -/
theorem readBinary64?_intChars {n : Int} (h : n.natAbs ≤ 2 ^ 53) :
    ∃ x, readBinary64? (intChars n) = some x ∧ x.quanta? = some (n * Binary64.unit) := by
  obtain ⟨rank, hrank⟩ := Binary64.exists_rank_whole h
  have hdigits := digitChars_digits n.natAbs
  have hdecimal := @readDecimal?_whole _ [] 0 (digitChars_ne_nil n.natAbs) hdigits (by simp) (fun _ => rfl) rfl
  rw [List.append_nil, ofDigitChars_digitChars] at hdecimal
  have hvalue : (⟨n.natAbs, 0⟩ : Decimal).value = (Binary64.quantaOfRank rank : ℚ) / Binary64.unit := by
    have hunit : (Binary64.unit : ℚ) ≠ 0 := Nat.cast_ne_zero.mpr Binary64.unit_pos.ne'
    rw [hrank, Nat.cast_mul, mul_div_cancel_right₀ _ hunit, Decimal.value, zpow_zero, mul_one]
  have hblank : ∀ c ∈ digitChars n.natAbs, isBlank c = false := fun c hc => isBlank_of_isDigit (hdigits c hc)
  refine ⟨.finite (n < 0) rank, ?_, ?_⟩
  · obtain ⟨c, cs, htext⟩ := List.exists_cons_of_ne_nil (digitChars_ne_nil n.natAbs)
    rw [intChars, htext]
    rw [htext] at hdecimal hblank hdigits
    by_cases hneg : n < 0
    · rw [if_pos hneg, List.singleton_append, readBinary64?_minus (hdigits c (by simp)) hblank, hdecimal,
        Option.map_some, Decimal.nearest_of_value hvalue, decide_eq_true hneg]
    · rw [if_neg hneg, List.nil_append, readBinary64?_digit (hdigits c (by simp)) hblank, hdecimal,
        Option.map_some, Decimal.nearest_of_value hvalue, decide_eq_false hneg]
  · rw [Binary64.quanta?, hrank, Binary64.signed_natAbs]

end Number

namespace Operand

theorem read_float (x : Binary64) : read (Number.float x).text = .literal (.float x) := by
  have htext : (Number.float x).text.toList = Number.binary64Chars x := String.toList_ofList
  have hblank : ∀ c ∈ (Number.float x).text.toList, isBlank c = false := by
    rw [htext]
    exact fun c hc => ((Number.binary64Chars_unblank x).2 c hc).1
  rw [read_unblank hblank, htext, Number.readBinary64?_binary64Chars]

theorem read_int {n : Int} (h : n.natAbs ≤ 2 ^ 53) :
    ∃ x, read (Number.int n).text = .literal (.float x) ∧ (Number.float x).truncate = .ok n := by
  obtain ⟨x, hread, hquanta⟩ := Number.readBinary64?_intChars h
  have htext : (Number.int n).text.toList = Number.intChars n := String.toList_ofList
  have hblank : ∀ c ∈ (Number.int n).text.toList, isBlank c = false := by
    rw [htext]
    exact fun c hc => ((Number.intChars_unblank n).2 c hc).1
  refine ⟨x, by rw [read_unblank hblank, htext, hread], ?_⟩
  cases x with
  | nan => exact absurd hquanta.symm (Option.some_ne_none _)
  | infinite negative => exact absurd hquanta.symm (Option.some_ne_none _)
  | finite negative rank =>
    have hunit : (Binary64.unit : Int) ≠ 0 := Int.natCast_ne_zero.mpr Binary64.unit_pos.ne'
    rw [Number.truncate, Binary64.truncate?, hquanta, Option.map_some, Option.getD_some, Int.mul_tdiv_cancel _ hunit]
    all_goals exact nofun

end Operand

end PointerScript
