import PointerScript.Number.Mixed

/-! Comparing numbers. Numbers are compared by their extents, so the comparisons go together as those of
whole numbers do; NaN is in none of them. -/

namespace PointerScript

namespace Number

theorem extent?_finite (negative : Bool) (rank : Fin Binary64.magnitudes) :
    (float (.finite negative rank)).extent? = some (0, Binary64.signed negative (Binary64.quantaOfRank rank)) := rfl

theorem extent?_infinite (negative : Bool) :
    (float (.infinite negative)).extent? = some (if negative then -1 else 1, 0) := rfl

theorem extent?_zero : (int 0).extent? = some (0, 0) := by
  rw [extent?, Int.zero_mul]

section

variable {x y : Number} {a b : Int × Int} (hx : x.extent? = some a) (hy : y.extent? = some b)
include hx hy

theorem lt_iff : x.lt y = true ↔ a.1 < b.1 ∨ a.1 = b.1 ∧ a.2 < b.2 := by
  simp only [lt, hx, hy, Bool.or_eq_true, Bool.and_eq_true, decide_eq_true_eq, beq_iff_eq]

theorem le_iff : x.le y = true ↔ a.1 < b.1 ∨ a.1 = b.1 ∧ a.2 ≤ b.2 := by
  simp only [le, hx, hy, Bool.or_eq_true, Bool.and_eq_true, decide_eq_true_eq, beq_iff_eq]

end

/-- Numbers that are compared have extents. -/
theorem extents_of_lt {x y : Number} (h : x.lt y = true) : ∃ a b, x.extent? = some a ∧ y.extent? = some b := by
  unfold lt at h
  split at h
  · rename_i a b ha hb
    exact ⟨a, b, ha, hb⟩
  · exact absurd h Bool.false_ne_true

theorem extents_of_le {x y : Number} (h : x.le y = true) : ∃ a b, x.extent? = some a ∧ y.extent? = some b := by
  unfold le at h
  split at h
  · rename_i a b ha hb
    exact ⟨a, b, ha, hb⟩
  · exact absurd h Bool.false_ne_true

theorem lt_of_lt_of_le {x y z : Number} (hxy : x.lt y = true) (hyz : y.le z = true) : x.lt z = true := by
  obtain ⟨a, b, ha, hb⟩ := extents_of_lt hxy
  obtain ⟨b', c, hb', hc⟩ := extents_of_le hyz
  obtain rfl : b = b' := Option.some.inj (hb.symm.trans hb')
  rw [lt_iff ha hb] at hxy
  rw [le_iff hb hc] at hyz
  rw [lt_iff ha hc]
  omega

theorem lt_eq_false_of_le {x y : Number} (h : x.le y = true) : y.lt x = false := by
  obtain ⟨a, b, ha, hb⟩ := extents_of_le h
  rw [le_iff ha hb] at h
  rw [Bool.eq_false_iff, Ne, lt_iff hb ha]
  omega

/-- A finite number is compared with a whole number by its quanta. -/
theorem le_int {x : Binary64} {q : Int} (hq : x.quanta? = some q) (v : Int) :
    (Number.float x).le (.int v) = decide (q ≤ v * Binary64.unit) := by
  have hx : (Number.float x).extent? = some (0, q) := by
    cases x with
    | finite negative rank => rw [extent?_finite, ← Option.some.inj hq]
    | nan => exact absurd hq.symm (Option.some_ne_none _)
    | infinite negative => exact absurd hq.symm (Option.some_ne_none _)
  have hv : (Number.int v).extent? = some (0, v * Binary64.unit) := rfl
  rw [Bool.eq_iff_iff, le_iff hx hv, decide_eq_true_eq]
  generalize v * (Binary64.unit : Int) = bound
  omega

/-- A number above zero carries no minus sign. -/
theorem sign_of_pos {x : Binary64} (h : (Number.int 0).lt (.float x) = true) : x ≠ .nan ∧ x.isNegative = false := by
  obtain ⟨_, b, _, hb⟩ := extents_of_lt h
  rw [lt_iff extent?_zero hb] at h
  cases x with
  | nan => exact absurd hb.symm (Option.some_ne_none _)
  | infinite negative =>
    rw [extent?_infinite, Option.some.injEq] at hb
    subst hb
    cases negative with
    | false => exact ⟨nofun, rfl⟩
    | true => simp only [if_true] at h; omega
  | finite negative rank =>
    rw [extent?_finite, Option.some.injEq] at hb
    subst hb
    cases negative with
    | false => exact ⟨nofun, rfl⟩
    | true => simp only [Binary64.signed, if_true] at h; omega

theorem lt_zero_of_sign {x : Binary64} (h : x.isNegative = false) : (Number.float x).lt (.int 0) = false := by
  rw [Bool.eq_false_iff]
  intro hlt
  obtain ⟨a, _, ha, _⟩ := extents_of_lt hlt
  rw [lt_iff ha extent?_zero] at hlt
  cases x with
  | nan => exact absurd ha.symm (Option.some_ne_none _)
  | infinite negative =>
    obtain rfl : negative = false := h
    rw [extent?_infinite, Option.some.injEq] at ha
    subst ha
    simp only [Bool.false_eq_true, if_false] at hlt
    omega
  | finite negative rank =>
    obtain rfl : negative = false := h
    rw [extent?_finite, Option.some.injEq] at ha
    subst ha
    simp only [Binary64.signed, Bool.false_eq_true, if_false] at hlt
    omega

end Number

/-- Rounding keeps the sign. -/
theorem Binary64.roundPlaces_sign {x : Binary64} (h : x ≠ .nan ∧ x.isNegative = false) (places : Nat) :
    x.roundPlaces places ≠ .nan ∧ (x.roundPlaces places).isNegative = false := by
  cases x with
  | nan => exact h
  | infinite negative => exact h
  | finite negative rank =>
    obtain rfl : negative = false := h.2
    simp only [roundPlaces, ofQuanta, ofRank]
    split <;> exact ⟨nofun, rfl⟩

end PointerScript
