import Mathlib.Algebra.Order.Floor.Semifield
import Mathlib.Tactic.LinearCombination
import Pseudocode.Proofs.Numeric.Decimals

/-! How powers of ten lie among powers of two, for the exponents that 32-bit numbers have. -/

namespace Pseudocode

/-- A power of two as an exact number. -/
def powerOfTwo (exp : Int) : Exact where
  negative := false
  num := 1
  den := 1
  exp := exp
  den_pos := Nat.zero_lt_one

/-- The exponent of the greatest power of two that is not above a power of ten. -/
def tenLog (t : Int) : Int :=
  -- The power of ten is an exact number like any other.
  (Decimal.toExact ⟨false, 1, t⟩).log2

/-- That power of two over the power of ten, as a numerator and a denominator. -/
def tenRatio (t : Int) : Nat × Nat :=
  (powerOfTwo (tenLog t)).decimalRatio t

/-- Of the two multiples of a power of ten around a certain power of two, the lower one is nearer
and about a quarter of a place away, or more, and the upper one is less than about half of a place
away. The power of two is `2 ^ 24` times the one that is next to the power of ten, and its place
counts `2 ^ 23` times. -/
def Crowded (ratio : Nat × Nat) : Prop :=
  let rest := 2 ^ 24 * ratio.1 % ratio.2
  255 * ratio.1 ≤ 512 * rest ∧ 512 * (ratio.2 - rest) ≤ 513 * ratio.1 ∧ 2 * rest ≤ ratio.2

/-- Whether a ratio is crowded is decided by three comparisons of natural numbers. -/
instance (ratio : Nat × Nat) : Decidable (Crowded ratio) :=
  inferInstanceAs (Decidable (_ ∧ _ ∧ _))

-- All powers of ten are looked at that can be the last place of nine digits or fewer.

/-- No power of ten but one is near to a power of two. -/
theorem tenRatio_clear : ∀ k : Nat, k < 92 → k ≠ 53 →
    129 * (tenRatio ((k : Int) - 53)).1 < 128 * (tenRatio ((k : Int) - 53)).2 ∧
      129 * (tenRatio ((k : Int) - 53)).2 < 256 * (tenRatio ((k : Int) - 53)).1 := by
  -- The statement is about finitely many natural numbers, and each is computed.
  decide +kernel

/-- Three powers of two are crowded. -/
theorem tenRatio_crowded : ∀ k : Nat, k < 92 → k ≠ 53 → Crowded (tenRatio ((k : Int) - 53)) →
    tenLog ((k : Int) - 53) + 24 = -96 ∨ tenLog ((k : Int) - 53) + 24 = 87 ∨
      tenLog ((k : Int) - 53) + 24 = 90 := by
  -- Here most of the cases are settled by the condition, which does not hold.
  decide +kernel

/-- Both powers are whole numbers of one unit. -/
theorem tenRatio_mul (t : Int) :
    ∃ unit : ℚ, 0 < unit ∧ 2 ^ tenLog t = (tenRatio t).1 * unit ∧
      10 ^ t = (tenRatio t).2 * unit := by
  -- The ratio in natural numbers stands for the quotient of the two powers.
  have ratio : ((tenRatio t).1 : ℚ) / (tenRatio t).2 = 2 ^ tenLog t / 10 ^ t := by
    rw [tenRatio, Exact.decimalRatio_eq]
    simp [Exact.magnitude, powerOfTwo]
  have divisor : (0 : ℚ) < (tenRatio t).2 := by
    exact_mod_cast Nat.mul_pos (Nat.mul_pos (powerOfTwo (tenLog t)).den_pos
      (scale_pos (by decide) _)) (scale_pos (by decide) t)
  have power : (0 : ℚ) < 10 ^ t := by positivity
  -- The unit is chosen so that the power of ten is its multiple by the denominator.
  refine ⟨10 ^ t / (tenRatio t).2, by positivity, ?_, by field_simp⟩
  rw [div_eq_div_iff divisor.ne' power.ne'] at ratio
  rw [← mul_div_assoc, eq_div_iff divisor.ne', ratio]

section

variable {t : Int} (low : -53 ≤ t) (high : t ≤ 38) (nonzero : t ≠ 0)
include low high nonzero

/-- A power of ten is clear of the powers of two around it. -/
theorem ten_zpow_clear :
    129 * (2 : ℚ) ^ tenLog t < 128 * 10 ^ t ∧ 129 * (10 : ℚ) ^ t < 256 * 2 ^ tenLog t := by
  -- The exponent is written as a natural number, as in the statement that has been computed.
  obtain ⟨k, rfl⟩ : ∃ k : Nat, t = k - 53 := ⟨(t + 53).toNat, by omega⟩
  obtain ⟨below, above⟩ := tenRatio_clear k (by omega) (by omega)
  obtain ⟨unit, positive, two, ten⟩ := tenRatio_mul ((k : Int) - 53)
  rw [two, ten, ← mul_assoc, ← mul_assoc, ← mul_assoc, ← mul_assoc]
  generalize (tenRatio ((k : Int) - 53)).1 = num at below above ⊢
  generalize (tenRatio ((k : Int) - 53)).2 = den at below above ⊢
  have below' : 129 * (num : ℚ) < 128 * den := by exact_mod_cast below
  have above' : 129 * (den : ℚ) < 256 * num := by exact_mod_cast above
  -- Multiplying by the unit carries both bounds over.
  exact ⟨mul_lt_mul_of_pos_right below' positive, mul_lt_mul_of_pos_right above' positive⟩

/-- The multiples of a power of ten lie around a power of two in a crowded way in three places only.
-/
theorem ten_zpow_crowded {q : ℚ} {whole : Nat} (power : q = 2 ^ (tenLog t + 24))
    (floor : whole = ⌊q / 10 ^ t⌋₊) (least : 255 * 2 ^ tenLog t ≤ 512 * (q - whole * 10 ^ t))
    (most : 512 * ((whole + 1) * 10 ^ t - q) ≤ 513 * 2 ^ tenLog t)
    (nearer : q - whole * 10 ^ t ≤ (whole + 1) * 10 ^ t - q) :
    tenLog t + 24 = -96 ∨ tenLog t + 24 = 87 ∨ tenLog t + 24 = 90 := by
  obtain ⟨k, rfl⟩ : ∃ k : Nat, t = k - 53 := ⟨(t + 53).toNat, by omega⟩
  refine tenRatio_crowded k (by omega) (by omega) ?_
  obtain ⟨unit, positive, two, ten⟩ := tenRatio_mul ((k : Int) - 53)
  -- The power of two in question is `2 ^ 24` times the one that is next to the power of ten.
  rw [zpow_add₀ (by norm_num), two, show (2 : ℚ) ^ (24 : Int) = 2 ^ 24 by norm_num] at power
  rw [ten] at floor least most nearer
  rw [two] at least most
  unfold Crowded
  generalize (tenRatio ((k : Int) - 53)).1 = num at *
  generalize (tenRatio ((k : Int) - 53)).2 = den at *
  have some : 0 < den := by
    have size : (0 : ℚ) < den * unit := by
      rw [← ten]
      positivity
    exact_mod_cast (mul_pos_iff_of_pos_right positive).mp size
  -- The floor and what is left over are the quotient and the remainder of a division.
  have quotient : whole = 2 ^ 24 * num / den := by
    rw [floor, ← Nat.floor_div_eq_div (K := ℚ), power]
    rw [mul_right_comm, mul_div_mul_right _ _ positive.ne', mul_comm]
    norm_cast
  have law : ((den * whole + 2 ^ 24 * num % den : Nat) : ℚ) = (2 ^ 24 * num : Nat) := by
    rw [quotient, Nat.div_add_mod]
  have small := Nat.mod_lt (2 ^ 24 * num) some
  generalize 2 ^ 24 * num % den = rest at *
  -- What the lower multiple leaves is the remainder of that division.
  have below : q - whole * (den * unit) = rest * unit := by
    push_cast at law
    rw [power]
    linear_combination (-unit) * law
  -- What the upper multiple exceeds is the rest of the divisor.
  have above : (whole + 1) * (den * unit) - q = ((den - rest : Nat) : ℚ) * unit := by
    rw [Nat.cast_sub small.le]
    linear_combination -below
  -- In each of the three bounds the unit cancels.
  rw [below, ← mul_assoc, ← mul_assoc, mul_le_mul_iff_of_pos_right positive] at least
  rw [above, ← mul_assoc, ← mul_assoc, mul_le_mul_iff_of_pos_right positive] at most
  rw [below, above, mul_le_mul_iff_of_pos_right positive] at nearer
  have nearer' : rest ≤ den - rest := by exact_mod_cast nearer
  exact ⟨by exact_mod_cast least, by exact_mod_cast most, by omega⟩

end

end Pseudocode
