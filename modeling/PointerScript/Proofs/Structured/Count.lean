import PointerScript.Proofs.Number.Reading
import PointerScript.Proofs.Structured.Lines

/-! The counts of loops: a whole number written in decimal digits is read as the floating-point number
nearest to it, so it spells itself if that number is exact. -/

namespace PointerScript

open Text Number

private theorem nearest_whole {n : Nat} (h : 0 < n) : Decimal.nearest false ⟨n, 0⟩ = Binary64.ofInt n := by
  have hneg : decide ((n : Int) < 0) = false := by simp
  rw [Decimal.nearest, if_neg (by simp only; omega), if_pos (by simp), if_neg (by simp), Binary64.ofInt, hneg]
  simp

/-- A positive number in decimal digits spells itself if the floating-point number nearest to it is
exact. -/
theorem spells_toString {n : Nat} (h0 : 0 < n)
    (h : (Binary64.ofInt n).quanta? = some ((n * Binary64.unit : Nat) : Int)) : Spells (toString n) n := by
  refine ⟨Binary64.ofInt n, ?_, h⟩
  have hdigits : ∀ c ∈ Nat.toDigits 10 n, c.isDigit = true := fun c hc =>
    Nat.isDigit_of_mem_toDigits (by decide) (by decide) hc
  have hvalue : Nat.ofDigitChars 10 (Nat.toDigits 10 n) 0 = n := Nat.ofDigitChars_toDigits (by decide) (by decide)
  have htext : (toString n).toList = Nat.toDigits 10 n := by simp
  generalize Nat.toDigits 10 n = cs at hdigits hvalue htext
  have hne : cs ≠ [] := by
    rintro rfl
    simp at hvalue
    omega
  have hblank : ∀ c ∈ cs, isBlank c = false := fun c hc => isBlank_of_isDigit (hdigits c hc)
  have hread : readBinary64? cs = some (Binary64.ofInt n) := by
    have hdecimal := @readDecimal?_whole cs [] 0 hne hdigits (by simp) (fun _ => rfl) rfl
    rw [List.append_nil] at hdecimal
    obtain ⟨c, rest, rfl⟩ := List.exists_cons_of_ne_nil hne
    rw [readBinary64?_digit (hdigits c (by simp)) hblank, hdecimal, hvalue, Option.map_some, nearest_whole h0]
  rw [Operand.read_unblank (by rwa [htext]), htext, hread]

end PointerScript
