import Mathlib.Algebra.Order.Ring.Nat
import PointerScript.Number.Decimal

/-! Rounding gives back the numbers that need none. Every rank stands for a number of at most 53 bits times
a power of two, and a fraction that is such a number is rounded to its rank. -/

namespace PointerScript.Binary64

theorem roundDiv_mul (a : Nat) {b : Nat} (hb : 0 < b) : roundDiv (a * b) b = a := by
  simp only [roundDiv, Nat.mul_mod_left, Nat.mul_zero, hb, if_true]
  exact Nat.mul_div_cancel a hb

/-- The ranks from 2^52 on, by the leading 53 bits of their numbers. -/
theorem quantaOfRank_normal {a : Nat} (hl : 2 ^ 52 ≤ a) (hu : a < 2 ^ 53) (s : Nat) :
    quantaOfRank (s * 2 ^ 52 + a) = a * 2 ^ s := by
  obtain ⟨low, rfl⟩ := Nat.exists_eq_add_of_le hl
  have hlow : low < 2 ^ 52 := by omega
  have hquot : (s * 2 ^ 52 + (2 ^ 52 + low)) / 2 ^ 52 - 1 = s := by omega
  have hrem : (s * 2 ^ 52 + (2 ^ 52 + low)) % 2 ^ 52 = low := by omega
  simp only [quantaOfRank, Nat.pow_eq]
  rw [if_neg (by omega), hquot, hrem]

theorem quantaOfRank_small {a : Nat} (h : a < 2 ^ 52) : quantaOfRank a = a :=
  if_pos h

/-- A rank is small, or its number has 53 leading bits. -/
theorem rank_cases (rank : Nat) :
    rank < 2 ^ 52 ∨ ∃ a s, 2 ^ 52 ≤ a ∧ a < 2 ^ 53 ∧ rank = s * 2 ^ 52 + a := by
  rcases Nat.lt_or_ge rank (2 ^ 52) with h | h
  · exact .inl h
  · exact .inr ⟨2 ^ 52 + rank % 2 ^ 52, rank / 2 ^ 52 - 1, by omega, by omega, by omega⟩

private theorem log2_normal {a : Nat} (hl : 2 ^ 52 ≤ a) (hu : a < 2 ^ 53) (s : Nat) :
    Nat.log2 (a * 2 ^ s) = 52 + s := by
  have hpos : 0 < a * 2 ^ s := Nat.mul_pos (by omega) (Nat.two_pow_pos s)
  rw [Nat.log2_eq_iff (by omega)]
  constructor
  · rw [Nat.pow_add]
    exact Nat.mul_le_mul_right _ hl
  · rw [Nat.add_right_comm, Nat.pow_add]
    exact Nat.mul_lt_mul_of_pos_right hu (Nat.two_pow_pos s)

theorem nearestRank_normal {a c : Nat} (hl : 2 ^ 52 ≤ a) (hu : a < 2 ^ 53) (hc : 0 < c) (s : Nat) :
    nearestRank (a * 2 ^ s * c) c = s * 2 ^ 52 + a := by
  have hround : roundDiv (a * 2 ^ s * c) (c * 2 ^ s) = a := by
    rw [Nat.mul_assoc, Nat.mul_comm (2 ^ s)]
    exact roundDiv_mul a (Nat.mul_pos hc (Nat.two_pow_pos s))
  simp only [nearestRank, Nat.mul_div_cancel _ hc, log2_normal hl hu, Nat.add_sub_cancel_left, Nat.pow_eq, hround]

theorem nearestRank_small {a c : Nat} (h : a < 2 ^ 52) (hc : 0 < c) : nearestRank (a * c) c = a := by
  have hlog : Nat.log2 a - 52 = 0 := by
    by_cases h0 : a = 0
    · simp [h0]
    · have := (Nat.log2_lt h0).mpr h
      omega
  simp only [nearestRank, Nat.mul_div_cancel _ hc, hlog, Nat.pow_eq, Nat.pow_zero, Nat.mul_one, Nat.zero_mul,
    Nat.zero_add, roundDiv_mul a hc]

/-- The number of a rank is rounded to that rank, whatever fraction it is written as. -/
theorem nearestRank_quantaOfRank (rank : Nat) {c : Nat} (hc : 0 < c) :
    nearestRank (quantaOfRank rank * c) c = rank := by
  rcases rank_cases rank with h | ⟨a, s, hl, hu, rfl⟩
  · rw [quantaOfRank_small h, nearestRank_small h hc]
  · rw [quantaOfRank_normal hl hu, nearestRank_normal hl hu hc]

theorem ofQuanta_quantaOfRank (negative : Bool) (rank : Fin magnitudes) {c : Nat} (hc : 0 < c) :
    ofQuanta negative (quantaOfRank rank * c) c = .finite negative rank := by
  rw [ofQuanta, nearestRank_quantaOfRank rank.val hc, ofRank, dif_pos rank.isLt]

/-- One is a power of two in quanta. -/
theorem exists_unit_eq : ∃ bits, bits = 1074 ∧ unit = 2 ^ bits :=
  ⟨1074, rfl, by decide +kernel⟩

theorem unit_pos : 0 < unit := by
  obtain ⟨bits, _, hu⟩ := exists_unit_eq
  rw [hu]
  exact Nat.two_pow_pos bits

private theorem normal_lt_magnitudes {a s : Nat} (hu : a < 2 ^ 53) (hs : s ≤ 2045) :
    s * 2 ^ 52 + a < magnitudes := by
  simp only [magnitudes, Nat.pow_eq]
  omega

/-- No finite number is as large as 2^1024. -/
theorem quantaOfRank_lt (rank : Fin magnitudes) : ∃ bits, bits = 1024 ∧ quantaOfRank rank < 2 ^ bits * unit := by
  obtain ⟨ubits, hubits, hunit⟩ := exists_unit_eq
  refine ⟨_, rfl, ?_⟩
  generalize hbits : 1024 = bits
  rw [hunit, ← Nat.pow_add]
  rcases rank_cases rank.val with h | ⟨a, s, hl, hu, hr⟩
  · rw [quantaOfRank_small h]
    exact Nat.lt_of_lt_of_le h (Nat.pow_le_pow_right Nat.zero_lt_two (by omega))
  · have hs : s ≤ 2045 := by
      have hlt := rank.isLt
      simp only [magnitudes, Nat.pow_eq] at hlt
      omega
    rw [hr, quantaOfRank_normal hl hu]
    calc a * 2 ^ s < 2 ^ 53 * 2 ^ s := Nat.mul_lt_mul_of_pos_right hu (Nat.two_pow_pos s)
      _ = 2 ^ (53 + s) := (Nat.pow_add 2 53 s).symm
      _ ≤ 2 ^ (bits + ubits) := Nat.pow_le_pow_right Nat.zero_lt_two (by omega)

/-- A whole number of at most 53 bits has a rank. -/
theorem exists_rank_whole {k : Nat} (h : k ≤ 2 ^ 53) : ∃ rank : Fin magnitudes, quantaOfRank rank = k * unit := by
  obtain ⟨bits, hbits, hunit⟩ := exists_unit_eq
  rw [hunit]
  have hnormal {a s : Nat} (hl : 2 ^ 52 ≤ a) (hu : a < 2 ^ 53) (hs : s ≤ 2045) (he : a * 2 ^ s = k * 2 ^ bits) :
      ∃ rank : Fin magnitudes, quantaOfRank rank = k * 2 ^ bits :=
    ⟨⟨s * 2 ^ 52 + a, normal_lt_magnitudes hu hs⟩, by rw [quantaOfRank_normal hl hu, he]⟩
  by_cases h0 : k = 0
  · exact ⟨⟨0, by decide⟩, by rw [h0, Nat.zero_mul, quantaOfRank_small (by decide)]⟩
  · by_cases htop : k = 2 ^ 53
    · refine @hnormal (2 ^ 52) (bits + 1) (Nat.le_refl _) (by decide) (by omega) ?_
      rw [htop, Nat.pow_succ]
      omega
    · -- Shifting its leading bit to the 53rd place makes it a number of 53 bits.
      have hlog : k.log2 < 53 := (Nat.log2_lt h0).mpr (by omega)
      have hlow := Nat.log2_self_le h0
      have hhigh := @Nat.lt_log2_self k
      refine @hnormal (k * 2 ^ (52 - k.log2)) (bits - (52 - k.log2)) ?_ ?_ (by omega) ?_
      · calc 2 ^ 52 = 2 ^ k.log2 * 2 ^ (52 - k.log2) := by
              rw [← Nat.pow_add, Nat.add_sub_cancel' (by omega)]
          _ ≤ k * 2 ^ (52 - k.log2) := Nat.mul_le_mul_right _ hlow
      · calc k * 2 ^ (52 - k.log2) < 2 ^ (k.log2 + 1) * 2 ^ (52 - k.log2) :=
              Nat.mul_lt_mul_of_pos_right hhigh (Nat.two_pow_pos _)
          _ = 2 ^ 53 := by
              have hexp : k.log2 + 1 + (52 - k.log2) = 53 := by omega
              rw [← Nat.pow_add, hexp]
      · have hexp : 52 - k.log2 + (bits - (52 - k.log2)) = bits := by omega
        rw [Nat.mul_assoc, ← Nat.pow_add, hexp]

/-- A whole number in quanta, by its sign and its magnitude. -/
theorem signed_natAbs (n : Int) : signed (n < 0) (n.natAbs * unit) = n * unit := by
  rw [signed]
  split
  · rename_i hneg
    have : n < 0 := of_decide_eq_true hneg
    rw [Int.natCast_mul, ← Int.neg_mul]
    congr 1
    omega
  · rename_i hneg
    have : ¬ n < 0 := fun hn => hneg (decide_eq_true hn)
    rw [Int.natCast_mul]
    congr 1
    omega

end PointerScript.Binary64
