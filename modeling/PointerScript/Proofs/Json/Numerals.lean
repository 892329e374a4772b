import Mathlib.Data.List.Induction
import Mathlib.Data.Nat.Digits.Defs
import PointerScript.Json.Reader
import PointerScript.Json.Writer
import PointerScript.Proofs.Number.ReadBack

/-! Numbers in JSON text. A numeral has digits without idle zeros in front, perhaps a fraction, and perhaps an exponent,
and that is how numbers are written. What follows a numeral does not go on with it, so reading stops at its end and gives
the number back. -/

namespace PointerScript

open Text

namespace Number

/-- A number that is not zero does not start with one. -/
theorem head_digitChars {n : Nat} (h : n ≠ 0) : (digitChars n).head? ≠ some '0' := by
  induction n using Nat.strongRecOn with
  | ind n ih =>
    rw [digitChars]
    by_cases hlt : n < 10
    · rw [Nat.toDigits_of_lt_base hlt]
      intro he
      have hvalue := ofDigitChars_digitChars n
      rw [digitChars, Nat.toDigits_of_lt_base hlt, Option.some.inj he] at hvalue
      exact h hvalue.symm
    · have hne := digitChars_ne_nil (n / 10)
      rw [Nat.toDigits_of_base_le (by decide) (by omega), List.head?_append]
      have hih := ih (n / 10) (by omega) (by omega)
      rw [digitChars] at hne hih
      rw [List.head?_eq_some_head hne] at hih ⊢
      exact hih

/-- A whole number within the digit limit is read back from its text. -/
theorem readWhole_intChars {n : Int} (h : (digitChars n.natAbs).length ≤ digitLimit) :
    readWhole (intChars n) = .ok n := by
  have hdigits := digitChars_digits n.natAbs
  have hpadding : ∀ c ∈ intChars n, isPadding c = false := fun c hc => by
    simp [isPadding, ((intChars_unblank n).2 c hc).1]
  have hsign : takeSign (intChars n) = (decide (n < 0), digitChars n.natAbs) := by
    rw [intChars]
    split
    · rename_i hneg
      simp [takeSign, hneg]
    · rename_i hneg
      obtain ⟨c, cs, hcs⟩ := List.exists_cons_of_ne_nil (digitChars_ne_nil n.natAbs)
      rw [hcs] at hdigits ⊢
      have hc := hdigits c (by simp)
      rw [List.nil_append, takeSign_of_ne]
      · simp [hneg]
      · rintro rfl
        exact absurd hc (by decide)
      · rintro rfl
        exact absurd hc (by decide)
  have hrun : digitRun (digitChars n.natAbs) = ((digitChars n.natAbs).map fun c => c.toNat - 48, []) := by
    have happend := @digitRunFrom_append _ [] hdigits (fun _ => rfl) false
    rwa [List.append_nil] at happend
  have hvalue : Binary64.signed (decide (n < 0)) n.natAbs = n := by
    rw [Binary64.signed]
    split
    · rename_i hneg
      have := of_decide_eq_true hneg
      omega
    · rename_i hneg
      have : ¬ n < 0 := by simpa using hneg
      omega
  obtain ⟨d, ds, hds⟩ := List.exists_cons_of_ne_nil (mt List.map_eq_nil_iff.mp (digitChars_ne_nil n.natAbs))
  simp only [readWhole, trimWhile_none hpadding, hsign, hrun]
  rw [hds]
  dsimp only
  rw [← hds, List.length_map, if_neg (Nat.not_lt.mpr h), ofDigits_map, ofDigitChars_digitChars, hvalue]
  rfl

theorem digitValue?_lt {c : Char} {d : Nat} (h : digitValue? c = some d) : d < 10 := by
  rw [digitValue?] at h
  split at h
  · split at h
    · rename_i hdigit
      have hrange := toNat_of_isDigit hdigit
      have hd := Option.some.inj h
      omega
    · cases h
  · obtain ⟨range, -, rfl⟩ := Option.map_eq_some_iff.mp h
    exact Nat.mod_lt _ (by decide)

theorem digitRunFrom_lt (after : Bool) (cs : List Char) : ∀ d ∈ (digitRunFrom after cs).1, d < 10 := by
  induction cs generalizing after with
  | nil => simp [digitRunFrom]
  | cons c cs ih =>
    rw [digitRunFrom]
    split
    · rename_i hd
      simpa using ⟨digitValue?_lt hd, ih true⟩
    · split
      · exact ih false
      · simp

theorem ofDigits_lt {digits : List Nat} (h : ∀ d ∈ digits, d < 10) : ofDigits digits < 10 ^ digits.length := by
  induction digits using List.reverseRecOn with
  | nil => decide
  | append_singleton digits d ih =>
    rw [List.forall_mem_append] at h
    have hd := h.2 d (by simp)
    have hdigits := ih h.1
    rw [ofDigits, List.foldl_append, List.length_append, List.length_singleton, Nat.pow_succ, ← ofDigits]
    simp only [List.foldl_cons, List.foldl_nil]
    omega

/-- A whole number that is read keeps to the digit limit. -/
theorem length_le_of_readWhole {cs : List Char} {n : Int} (h : readWhole cs = .ok n) :
    (digitChars n.natAbs).length ≤ digitLimit := by
  rw [readWhole] at h
  generalize takeSign (trimWhile isPadding cs) = signed at h
  have hsmall := digitRunFrom_lt false signed.2
  rw [← digitRun] at hsmall
  dsimp only at h
  generalize digitRun signed.2 = run at h hsmall
  split at h
  · cases h
  · cases h
  · dsimp only at hsmall
    split at h
    · cases h
    · rename_i digits rest _ _ hlength
      split at h
      · cases h
        have habs : (Binary64.signed signed.1 (ofDigits digits)).natAbs = ofDigits digits := by
          rw [Binary64.signed]
          split <;> omega
        rw [habs]
        refine Nat.toDigits_length _ _ _ (by decide) ?_
        exact Nat.lt_of_lt_of_le (ofDigits_lt hsmall) (Nat.pow_le_pow_right (by decide) (Nat.not_lt.mp hlength))
      · cases h
end Number

namespace Json

/-- The digits before the point: a zero alone, or digits that do not start with one. -/
def IsWholePart (whole : List Char) : Prop :=
  whole = ['0'] ∨ whole ≠ [] ∧ (∀ c ∈ whole, c.isDigit = true) ∧ whole.head? ≠ some '0'

/-- The fraction of a numeral: nothing, or a point and digits. -/
def IsFraction (fraction : List Char) : Prop :=
  fraction = [] ∨ ∃ digits, fraction = '.' :: digits ∧ digits ≠ [] ∧ ∀ c ∈ digits, c.isDigit = true

/-- The exponent of a numeral: nothing, or a mark, a sign and digits. -/
def IsExponent (exponent : List Char) : Prop :=
  exponent = [] ∨ ∃ sign digits, exponent = 'e' :: sign :: digits ∧ (sign = '+' ∨ sign = '-') ∧ digits ≠ [] ∧
    ∀ c ∈ digits, c.isDigit = true

structure IsNumeral (whole fraction exponent : List Char) : Prop where
  whole : IsWholePart whole
  fraction : IsFraction fraction
  exponent : IsExponent exponent

/-- What follows a numeral and does not go on with it. -/
def EndsNumeral (rest : List Char) : Prop :=
  ∀ c, rest.head? = some c → c.isDigit = false ∧ c ≠ '.' ∧ c ≠ 'e' ∧ c ≠ 'E'

theorem takeDigits_append {digits rest : List Char} (h : ∀ c ∈ digits, c.isDigit = true)
    (hr : ∀ c, rest.head? = some c → c.isDigit = false) : takeDigits (digits ++ rest) = (digits, rest) := by
  have hstop : rest.takeWhile Char.isDigit = [] ∧ rest.dropWhile Char.isDigit = rest := by
    cases rest with
    | nil => exact ⟨rfl, rfl⟩
    | cons c cs => simp [hr c rfl]
  rw [takeDigits, List.takeWhile_append_of_pos h, List.dropWhile_append_of_pos h, hstop.1, hstop.2, List.append_nil]

theorem readWholePart?_append {whole rest : List Char} (h : IsWholePart whole)
    (hr : ∀ c, rest.head? = some c → c.isDigit = false) : readWholePart? (whole ++ rest) = some (whole, rest) := by
  rcases h with rfl | ⟨hne, hdigits, hhead⟩
  · rfl
  · obtain ⟨c, cs, rfl⟩ := List.exists_cons_of_ne_nil hne
    have htake := takeDigits_append hdigits hr
    rw [List.cons_append] at htake ⊢
    unfold readWholePart?
    split
    · rename_i he
      exact absurd (congrArg some (List.cons.inj he).1) hhead
    · rw [htake]

theorem readFraction_append {fraction rest : List Char} (h : IsFraction fraction)
    (hr : ∀ c, rest.head? = some c → c.isDigit = false ∧ c ≠ '.') :
    readFraction (fraction ++ rest) = (fraction, rest) := by
  rcases h with rfl | ⟨digits, rfl, hne, hdigits⟩
  · rw [List.nil_append]
    unfold readFraction
    split
    · exact absurd rfl (hr _ rfl).2
    · rfl
  · obtain ⟨c, cs, rfl⟩ := List.exists_cons_of_ne_nil hne
    rw [List.cons_append, readFraction, takeDigits_append hdigits fun c hc => (hr c hc).1]

theorem readExponent_append {exponent rest : List Char} (h : IsExponent exponent) (hr : EndsNumeral rest) :
    readExponent (exponent ++ rest) = (exponent, rest) := by
  rcases h with rfl | ⟨sign, digits, rfl, hsign, hne, hdigits⟩
  · cases rest with
    | nil => rfl
    | cons c cs =>
      obtain ⟨_, _, he, hE⟩ := hr c rfl
      simp [readExponent, he, hE]
  · obtain ⟨c, cs, rfl⟩ := List.exists_cons_of_ne_nil hne
    have htake := takeDigits_append hdigits fun c hc => (hr c hc).1
    rcases hsign with rfl | rfl <;> simp only [List.cons_append] at htake ⊢ <;> simp [readExponent, htake]

theorem head?_append_eq {α : Type} {first second : List α} {a : α} (h : (first ++ second).head? = some a) :
    first.head? = some a ∨ first = [] ∧ second.head? = some a := by
  cases first with
  | nil => exact .inr ⟨rfl, h⟩
  | cons b bs => exact .inl h

/-- The number that a numeral stands for: a whole number if it has digits alone. -/
def Denotes (sign whole fraction exponent : List Char) : Number → Prop
  | .int n => fraction = [] ∧ exponent = [] ∧ Number.readWhole (sign ++ whole) = .ok n
  | .float x => ¬ (fraction = [] ∧ exponent = []) ∧
    Number.readBinary64? (sign ++ whole ++ fraction ++ exponent) = some x

/-- Reading takes a numeral apart, stops at its end and gives its number. -/
theorem readNumber_append {sign whole fraction exponent rest : List Char} {n : Number}
    (hs : sign = [] ∨ sign = ['-']) (h : IsNumeral whole fraction exponent) (hr : EndsNumeral rest)
    (hn : Denotes sign whole fraction exponent n) :
    readNumber (sign ++ (whole ++ (fraction ++ (exponent ++ rest)))) = .ok (n, rest) := by
  have hexponent : ∀ c, (exponent ++ rest).head? = some c → c.isDigit = false ∧ c ≠ '.' := by
    intro c hc
    rcases head?_append_eq hc with he | ⟨_, he⟩
    · rcases h.exponent with rfl | ⟨mark, digits, rfl, _⟩
      · cases he
      · obtain rfl := Option.some.inj he
        decide
    · exact ⟨(hr c he).1, (hr c he).2.1⟩
  have hfraction : ∀ c, (fraction ++ (exponent ++ rest)).head? = some c → c.isDigit = false := by
    intro c hc
    rcases head?_append_eq hc with he | ⟨_, he⟩
    · rcases h.fraction with rfl | ⟨digits, rfl, _⟩
      · cases he
      · obtain rfl := Option.some.inj he
        rfl
    · exact (hexponent c he).1
  unfold readNumber
  split
  rename_i sign' body hmatch
  obtain ⟨rfl, rfl⟩ : sign = sign' ∧ whole ++ (fraction ++ (exponent ++ rest)) = body := by
    rcases hs with rfl | rfl
    · obtain ⟨c, cs, rfl, hc⟩ : ∃ c cs, whole = c :: cs ∧ c ≠ '-' := by
        rcases h.whole with rfl | ⟨hne, hdigits, _⟩
        · exact ⟨'0', [], rfl, by decide⟩
        · obtain ⟨c, cs, rfl⟩ := List.exists_cons_of_ne_nil hne
          refine ⟨c, cs, rfl, ?_⟩
          rintro rfl
          exact absurd (hdigits '-' (by simp)) (by decide)
      rw [List.nil_append, List.cons_append] at hmatch
      split at hmatch
      · rename_i he
        exact absurd (List.cons.inj he).1 hc
      · exact Prod.mk.inj hmatch
    · exact Prod.mk.inj hmatch
  rw [readWholePart?_append h.whole hfraction]
  simp only [attempt, bind, Except.bind, readFraction_append h.fraction hexponent, readExponent_append h.exponent hr]
  cases n with
  | int n =>
    obtain ⟨rfl, rfl, hn⟩ := hn
    rw [hn]
    rfl
  | float x =>
    rw [if_neg (by simpa using hn.1), hn.2]
    rfl

end Json

namespace Number

theorem exponentChars_isExponent (e : Int) : Json.IsExponent (exponentChars e) := by
  have hdigits := digitChars_digits e.natAbs
  refine .inr ⟨if e < 0 then '-' else '+', _, rfl, ?_, ?_, ?_⟩
  · split
    · exact .inr rfl
    · exact .inl rfl
  · split
    · simp
    · exact digitChars_ne_nil _
  · split
    · exact List.forall_mem_cons.mpr ⟨rfl, hdigits⟩
    · exact hdigits

/-- The text of a decimal other than zero is a numeral with a fraction or an exponent. -/
theorem write_isNumeral (layout : Layout) {d : Decimal} (h : d.digits ≠ 0) :
    ∃ whole fraction exponent, layout.write d = whole ++ fraction ++ exponent ∧
      Json.IsNumeral whole fraction exponent ∧ ¬ (fraction = [] ∧ exponent = []) := by
  obtain ⟨z, hall⟩ := dropTrailingZeros_append (digitChars_ne_nil d.digits)
  have hne := dropTrailingZeros_ne_nil (digitChars d.digits)
  have hdigits := digitChars_digits d.digits
  have hhead := head_digitChars h
  unfold Layout.write
  dsimp only
  generalize dropTrailingZeros (digitChars d.digits) = digits at *
  rw [hall, List.forall_mem_append] at hdigits
  obtain ⟨first, rest, rfl⟩ := List.exists_cons_of_ne_nil hne
  rw [hall] at hhead
  generalize d.exponent + ((digitChars d.digits).length : Int) - 1 = leading
  have hzeros {k : Nat} : ∀ c ∈ List.replicate k '0', c.isDigit = true := by
    intro c hc
    rw [List.eq_of_mem_replicate hc]
    rfl
  have hexponent := exponentChars_isExponent leading
  split
  · split
    · -- Zeros between the point and the digits.
      refine ⟨['0'], '.' :: (List.replicate (-leading - 1).toNat '0' ++ first :: rest), [], by simp,
        ⟨.inl rfl, ?_, .inl rfl⟩, by simp⟩
      exact .inr ⟨_, rfl, by simp, List.forall_mem_append.mpr ⟨hzeros, hdigits.1⟩⟩
    · split
      · -- Zeros between the digits and the point.
        refine ⟨first :: rest ++ List.replicate (leading.toNat + 1 - (first :: rest).length) '0', ['.', '0'], [],
          by simp, ⟨.inr ⟨by simp, ?_, hhead⟩, .inr ⟨['0'], rfl, by simp, by simp⟩, .inl rfl⟩, by simp⟩
        exact List.forall_mem_append.mpr ⟨hdigits.1, hzeros⟩
      · rename_i hlong
        refine ⟨(first :: rest).take (leading.toNat + 1), '.' :: (first :: rest).drop (leading.toNat + 1), [], by simp,
          ⟨.inr ⟨by simp, fun c hc => hdigits.1 c (List.mem_of_mem_take hc), hhead⟩, ?_, .inl rfl⟩, by simp⟩
        refine .inr ⟨_, rfl, ?_, fun c hc => hdigits.1 c (List.mem_of_mem_drop hc)⟩
        rw [ne_eq, List.drop_eq_nil_iff]
        omega
  · have hone : Json.IsWholePart [first] :=
      .inr ⟨by simp, by simpa using hdigits.1 first (by simp), hhead⟩
    cases rest with
    | nil => exact ⟨[first], [], _, by simp, ⟨hone, .inl rfl, hexponent⟩, by simp [exponentChars]⟩
    | cons second rest =>
      refine ⟨[first], '.' :: second :: rest, _, by simp, ⟨hone, .inr ⟨_, rfl, by simp, ?_⟩, hexponent⟩, by simp⟩
      exact fun c hc => hdigits.1 c (List.mem_cons_of_mem _ hc)

/-- So is the text of every magnitude. -/
theorem magnitudeChars_isNumeral (rank : Fin Binary64.magnitudes) :
    ∃ whole fraction exponent, magnitudeChars rank = whole ++ fraction ++ exponent ∧
      Json.IsNumeral whole fraction exponent ∧ ¬ (fraction = [] ∧ exponent = []) := by
  by_cases hzero : rank = ⟨0, by decide⟩
  · have htext : magnitudeChars ⟨0, by decide⟩ = ['0', '.', '0'] := by decide +kernel
    subst hzero
    exact ⟨['0'], ['.', '0'], [], htext, ⟨.inl rfl, .inr ⟨['0'], rfl, by simp, by simp⟩, .inl rfl⟩, by simp⟩
  · obtain ⟨d, hd⟩ := exists_write_eq rank
    have hdigits : d.digits ≠ 0 := by
      intro h0
      have hread := readBinary64?_magnitudeChars rank
      obtain ⟨hnumeral, c, cs, htext, hc⟩ := write_numeral standardLayout d
      obtain ⟨read, hdecimal, hvalue⟩ := readDecimal?_write standardLayout d
      rw [hd, htext, readBinary64?_digit hc fun e he => (unblank_of_isNumeral (hnumeral e (htext ▸ he))).1, ← htext,
        hdecimal] at hread
      have hpow : (10 : ℚ) ^ read.exponent ≠ 0 := zpow_ne_zero _ (by norm_num)
      have hread0 : read.digits = 0 := by simpa [Decimal.value, h0, hpow] using hvalue
      rw [Option.map_some, Decimal.nearest, if_pos hread0] at hread
      exact hzero (Binary64.finite.inj (Option.some.inj hread)).2.symm
    rw [hd]
    exact write_isNumeral standardLayout hdigits

end Number

namespace Json

/-- Whether a number can be written and read again: a whole number within the digit limit, or any other number. -/
def CanRead : Number → Prop
  | .int n => (Number.digitChars n.natAbs).length ≤ Number.digitLimit
  | .float _ => True

/-- A number with digits is written as a numeral that denotes it. -/
theorem writeNumber_isNumeral {n : Number} (h : CanRead n) (hnan : n ≠ .float .nan)
    (hinfinite : ∀ negative, n ≠ .float (.infinite negative)) :
    ∃ sign whole fraction exponent, (writeNumber n).toList = sign ++ (whole ++ (fraction ++ exponent)) ∧
      (sign = [] ∨ sign = ['-']) ∧ IsNumeral whole fraction exponent ∧ Denotes sign whole fraction exponent n := by
  have hsign {p : Prop} [Decidable p] : (if p then ['-'] else []) = [] ∨ (if p then ['-'] else []) = ['-'] := by
    split
    · exact .inr rfl
    · exact .inl rfl
  cases n with
  | int n =>
    have hread := Number.readWhole_intChars h
    refine ⟨if n < 0 then ['-'] else [], Number.digitChars n.natAbs, [], [], ?_, hsign, ⟨?_, .inl rfl, .inl rfl⟩, rfl, rfl, hread⟩
    · rw [List.append_nil, List.append_nil]
      exact String.toList_ofList
    · by_cases h0 : n.natAbs = 0
      · rw [h0]
        exact .inl rfl
      · exact .inr ⟨Number.digitChars_ne_nil _, Number.digitChars_digits _, Number.head_digitChars h0⟩
  | float x =>
    cases x with
    | nan => exact absurd rfl hnan
    | infinite negative => exact absurd rfl (hinfinite negative)
    | finite negative rank =>
      obtain ⟨whole, fraction, exponent, htext, hnumeral, hne⟩ := Number.magnitudeChars_isNumeral rank
      have hread := Number.readBinary64?_binary64Chars (.finite negative rank)
      rw [Number.binary64Chars, htext] at hread
      refine ⟨if negative then ['-'] else [], whole, fraction, exponent, ?_, hsign, hnumeral, hne, ?_⟩
      · rw [← List.append_assoc whole, ← htext]
        exact String.toList_ofList
      · simpa [List.append_assoc] using hread

theorem readNumber_writeNumber {n : Number} (h : CanRead n) (hnan : n ≠ .float .nan)
    (hinfinite : ∀ negative, n ≠ .float (.infinite negative)) {rest : List Char} (hr : EndsNumeral rest) :
    readNumber ((writeNumber n).toList ++ rest) = .ok (n, rest) := by
  obtain ⟨sign, whole, fraction, exponent, htext, hsign, hnumeral, hn⟩ := writeNumber_isNumeral h hnan hinfinite
  have hread := readNumber_append hsign hnumeral hr hn
  rwa [htext, List.append_assoc, List.append_assoc, List.append_assoc]

theorem of_bind_eq_ok {α β : Type} {first : Attempt α} {next : α → Attempt β} {b : β}
    (h : first >>= next = .ok b) : ∃ a, first = .ok a ∧ next a = .ok b := by
  cases first with
  | error fault => cases h
  | ok a => exact ⟨a, rfl, h⟩

/-- A number that is read can be written and read again. -/
theorem canRead_of_readNumber {cs rest : List Char} {n : Number} (h : readNumber cs = .ok (n, rest)) : CanRead n := by
  cases n with
  | float x => exact True.intro
  | int n =>
    unfold readNumber at h
    obtain ⟨whole, -, h⟩ := of_bind_eq_ok h
    dsimp only at h
    split at h
    · split at h
      · rename_i hread
        cases h
        exact Number.length_le_of_readWhole hread
      · cases h
      · cases h
    · split at h <;> cases h

/-- The printable characters of ASCII other than the space. -/
def isGraphic (c : Char) : Bool :=
  0x20 < c.toNat && c.toNat < 0x7f

theorem all_isGraphic_digits {digits : List Char} (h : ∀ c ∈ digits, c.isDigit = true) :
    digits.all isGraphic = true := by
  rw [List.all_eq_true]
  intro c hc
  have hrange := toNat_of_isDigit (h c hc)
  rw [isGraphic, Bool.and_eq_true, decide_eq_true_eq, decide_eq_true_eq]
  omega

/-- A number is written in graphic characters. -/
theorem all_isGraphic_writeNumber {n : Number} (h : CanRead n) : (writeNumber n).toList.all isGraphic = true := by
  by_cases hnan : n = .float .nan
  · subst hnan
    rfl
  by_cases hinfinite : ∃ negative, n = .float (.infinite negative)
  · obtain ⟨negative, rfl⟩ := hinfinite
    cases negative <;> rfl
  obtain ⟨sign, whole, fraction, exponent, htext, hsign, hnumeral, -⟩ :=
    writeNumber_isNumeral h hnan fun negative he => hinfinite ⟨negative, he⟩
  rw [htext, List.all_append, List.all_append, List.all_append, Bool.and_eq_true, Bool.and_eq_true, Bool.and_eq_true]
  refine ⟨?_, ?_, ?_, ?_⟩
  · rcases hsign with rfl | rfl <;> rfl
  · rcases hnumeral.whole with rfl | ⟨-, hall, -⟩
    · rfl
    · exact all_isGraphic_digits hall
  · rcases hnumeral.fraction with rfl | ⟨digits, rfl, -, hall⟩
    · rfl
    · rw [List.all_cons, all_isGraphic_digits hall]
      rfl
  · rcases hnumeral.exponent with rfl | ⟨sign, digits, rfl, hmark, -, hall⟩
    · rfl
    · rw [List.all_cons, List.all_cons, all_isGraphic_digits hall]
      rcases hmark with rfl | rfl <;> rfl

/-- A number other than `NaN` and the infinities starts with a digit, perhaps after a minus sign. -/
theorem writeNumber_starts {n : Number} (h : CanRead n) (hnan : n ≠ .float .nan)
    (hinfinite : ∀ negative, n ≠ .float (.infinite negative)) :
    ∃ sign c cs, (writeNumber n).toList = sign ++ c :: cs ∧ (sign = [] ∨ sign = ['-']) ∧ c.isDigit = true := by
  obtain ⟨sign, whole, fraction, exponent, htext, hsign, hnumeral, -⟩ := writeNumber_isNumeral h hnan hinfinite
  obtain ⟨c, cs, rfl, hc⟩ : ∃ c cs, whole = c :: cs ∧ c.isDigit = true := by
    rcases hnumeral.whole with rfl | ⟨hne, hdigits, -⟩
    · exact ⟨'0', [], rfl, rfl⟩
    · obtain ⟨c, cs, rfl⟩ := List.exists_cons_of_ne_nil hne
      exact ⟨c, cs, rfl, hdigits c (by simp)⟩
  exact ⟨sign, c, _, htext, hsign, hc⟩

end Json

end PointerScript
