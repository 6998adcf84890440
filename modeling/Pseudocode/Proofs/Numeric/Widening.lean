import Mathlib.Algebra.Order.Field.Basic
import Mathlib.Data.Rat.Defs
import Mathlib.Tactic.Ring
import Pseudocode.Numeric.Binary

/-! Numbers of a format stay what they are in a wider format. -/

namespace Pseudocode

/-- The value of a finite number. -/
def Binary.value {format : Format} (x : Binary format) : ℚ :=
  x.signed * 2 ^ x.exp

/-- A format has room for every number of another. -/
structure Format.Extends (wide narrow : Format) : Prop where
  /-- Its significands are at least as long. -/
  precision : narrow.precision ≤ wide.precision
  /-- Its finest place is at least as fine. -/
  minExp : wide.minExp ≤ narrow.minExp
  /-- Its coarsest place is at least as coarse. -/
  maxExp : narrow.maxExp ≤ wide.maxExp

/-- The 64-bit format has room for every 32-bit number. -/
theorem Format.double_extends_single : double.Extends single := by
  -- There are three numbers to be compared on each side.
  constructor <;> decide

namespace Binary

variable {narrow wide : Format}

/-- The logarithm of a number is that of its significand, moved by its exponent. -/
theorem log2_toExact (x : Binary narrow) (nonzero : x.mant ≠ 0) :
    x.toExact.log2 = (x.mant.log2 : Int) + x.exp := by
  -- The first guess is right, because a power of two is at most the significand.
  have low : 2 ^ x.mant.log2 ≤ x.mant := Nat.log2_self_le nonzero
  have right : ¬ x.mant * scale 2 (-(x.mant.log2 : Int)) < 1 * scale 2 (x.mant.log2 : Int) := by
    have one : (-(x.mant.log2 : Int)).toNat = 0 := by omega
    simp only [scale, Nat.pow_eq, one, pow_zero, mul_one, one_mul, Int.toNat_natCast]
    omega
  -- The denominator is one, and its logarithm is zero.
  have single : Nat.log2 1 = 0 := by decide
  simp only [Exact.log2, toExact, single, Int.ofNat_zero, sub_zero]
  rw [if_neg right]

/-- In units that are not coarser than its last place, a number is a whole number of them. -/
theorem units_toExact (x : Binary narrow) {exp : Int} (fine : exp ≤ x.exp) :
    x.toExact.units exp = x.mant * 2 ^ (x.exp - exp).toNat := by
  -- The exact number is divided by one, so that the rounding has nothing to round.
  have one : (exp - x.exp).toNat = 0 := by omega
  have exact := roundDiv_mul_self (x.mant * 2 ^ (x.exp - exp).toNat) 1 Nat.one_pos
  simpa [Exact.units, toExact, scale, one] using exact

/-- The exponent that a number that is not zero has in a wider format. -/
def widenedExp (wide : Format) (x : Binary narrow) : Int :=
  max wide.minExp ((x.mant.log2 : Int) + x.exp - (wide.precision - 1 : Nat))

/-- The significand that a number that is not zero has in a wider format. -/
def widenedMant (wide : Format) (x : Binary narrow) : Nat :=
  x.mant * 2 ^ (x.exp - x.widenedExp wide).toNat

/-- The significand of a number that is not zero is shorter than the precision allows. -/
theorem log2_mant_lt (x : Binary narrow) (nonzero : x.mant ≠ 0) :
    x.mant.log2 < narrow.precision :=
  -- The leading bit is the last one that counts.
  (Nat.log2_lt nonzero).mpr x.holds.1

/-- The exponent does not grow when the format does. -/
theorem widenedExp_le (extended : wide.Extends narrow) (x : Binary narrow) (nonzero : x.mant ≠ 0) :
    x.widenedExp wide ≤ x.exp := by
  -- A longer significand takes up places below the last one, down to the finest.
  have short := x.log2_mant_lt nonzero
  have longer := extended.precision
  have finer := extended.minExp
  have above := x.holds.2.1
  simp only [widenedExp]
  omega

/-- The widened parts of a number form a number of the wider format. -/
theorem widened_holds (extended : wide.Extends narrow) (x : Binary narrow)
    (nonzero : x.mant ≠ 0) : wide.Holds (x.widenedMant wide) (x.widenedExp wide) := by
  have short := x.log2_mant_lt nonzero
  have longer := extended.precision
  -- The leading bit bounds the significand on both sides.
  have low : 2 ^ x.mant.log2 ≤ x.mant := Nat.log2_self_le nonzero
  have high : x.mant < 2 ^ (x.mant.log2 + 1) := Nat.lt_log2_self
  have fine := widenedExp_le extended x nonzero
  have coarse := extended.maxExp
  have below := x.holds.2.2.1
  refine ⟨?_, by simp only [widenedExp]; omega, by omega, ?_⟩
  · -- The shift is at most what brings the leading bit to the first place.
    have shift : x.mant.log2 + 1 + (x.exp - x.widenedExp wide).toNat ≤ wide.precision := by
      simp only [widenedExp] at fine ⊢
      omega
    calc x.widenedMant wide
        < 2 ^ (x.mant.log2 + 1) * 2 ^ (x.exp - x.widenedExp wide).toNat :=
          Nat.mul_lt_mul_of_pos_right high (Nat.two_pow_pos _)
      _ = 2 ^ (x.mant.log2 + 1 + (x.exp - x.widenedExp wide).toNat) := (Nat.pow_add ..).symm
      _ ≤ 2 ^ wide.precision := Nat.pow_le_pow_right (by decide) shift
  · -- Unless the exponent is the finest, the shift brings the leading bit to the first place.
    by_cases finest : x.widenedExp wide = wide.minExp
    · exact .inl finest
    · have shift : wide.precision - 1 = x.mant.log2 + (x.exp - x.widenedExp wide).toNat := by
        simp only [widenedExp] at finest fine ⊢
        omega
      refine .inr ?_
      calc Nat.pow 2 (wide.precision - 1)
          = 2 ^ x.mant.log2 * 2 ^ (x.exp - x.widenedExp wide).toNat := by
            rw [shift]
            exact Nat.pow_add ..
        _ ≤ x.widenedMant wide := Nat.mul_le_mul_right _ low

/-- A number that is not zero, in a wider format. -/
def widened (extended : wide.Extends narrow) (x : Binary narrow) (nonzero : x.mant ≠ 0) :
    Binary wide :=
  ⟨x.negative, x.widenedMant wide, x.widenedExp wide, widened_holds extended x nonzero⟩

/-- Rounding a number that is not zero to a wider format gives its widened form. -/
theorem round?_eq_widened (extended : wide.Extends narrow) (x : Binary narrow)
    (nonzero : x.mant ≠ 0) : x.toExact.round? wide = some (x.widened extended nonzero) := by
  -- The widened parts are in range, and not full.
  have holds := widened_holds extended x nonzero
  -- Nothing is rounded off, so nothing carries into the next exponent.
  have whole : x.toExact.units (x.widenedExp wide) = x.widenedMant wide :=
    x.units_toExact (widenedExp_le extended x nonzero)
  have exp : max wide.minExp (x.toExact.log2 - (wide.precision - 1 : Nat)) =
      x.widenedExp wide := by
    rw [x.log2_toExact nonzero]
    rfl
  simp only [Exact.round?, exp, whole]
  rw [if_neg (by exact nonzero), if_neg (by exact holds.1.ne)]
  simp only [ofParts?, dif_pos holds, toExact, widened]

/-- Rounding a number to a format with room for it gives a number of the same sign and value. -/
theorem round?_toExact (extended : wide.Extends narrow) (x : Binary narrow) :
    ∃ y : Binary wide, x.toExact.round? wide = some y ∧ y.negative = x.negative ∧
      y.value = x.value := by
  -- Zero has no leading bit and is treated apart.
  by_cases zero : x.mant = 0
  · -- Zero is rounded to zero of the same sign.
    refine ⟨.zero wide x.negative, by simp [Exact.round?, toExact, zero], rfl, ?_⟩
    simp [value, signed, Binary.zero, zero]
  · have fine := widenedExp_le extended x zero
    refine ⟨x.widened extended zero, x.round?_eq_widened extended zero, rfl, ?_⟩
    -- What the exponent loses, the significand gains.
    have power : (2 : ℚ) ^ x.exp =
        2 ^ (x.exp - x.widenedExp wide).toNat * 2 ^ x.widenedExp wide := by
      rw [← zpow_natCast, Int.toNat_of_nonneg (by omega), ← zpow_add₀ (by norm_num)]
      congr 1
      omega
    rw [value, value, power, signed, signed]
    simp only [widened]
    by_cases minus : x.negative = true <;> simp [minus, widenedMant, mul_assoc]

/-- The last place of a number that is not zero is the one that rounding to its format gives it. -/
theorem exp_eq_max (x : Binary narrow) (nonzero : x.mant ≠ 0) :
    max narrow.minExp ((x.mant.log2 : Int) + x.exp - (narrow.precision - 1 : Nat)) = x.exp := by
  have short := x.log2_mant_lt nonzero
  have above := x.holds.2.1
  -- A significand is short only at the finest exponent.
  rcases x.holds.2.2.2 with finest | long
  · omega
  · have leading : narrow.precision - 1 ≤ x.mant.log2 := (Nat.le_log2 nonzero).mpr long
    omega

/-- A shift moves the leading bit of a significand by as many places. -/
theorem log2_mul_two_pow {mant : Nat} (nonzero : mant ≠ 0) (places : Nat) :
    (mant * 2 ^ places).log2 = mant.log2 + places := by
  have positive : mant * 2 ^ places ≠ 0 := Nat.mul_ne_zero nonzero (Nat.two_pow_pos places).ne'
  rw [Nat.log2_eq_iff positive, Nat.add_right_comm, Nat.pow_add, Nat.pow_add]
  -- Both bounds are those of the significand, multiplied by the shift.
  exact ⟨Nat.mul_le_mul_right _ (Nat.log2_self_le nonzero),
    Nat.mul_lt_mul_of_pos_right Nat.lt_log2_self (Nat.two_pow_pos places)⟩

/-- Rounding the widened form of a number to its own format gives the number back. -/
theorem round?_widened (extended : wide.Extends narrow) (x : Binary narrow)
    (nonzero : x.mant ≠ 0) : (x.widened extended nonzero).toExact.round? narrow = some x := by
  have fine := widenedExp_le extended x nonzero
  generalize shift : (x.exp - x.widenedExp wide).toNat = places
  have mant : (x.widened extended nonzero).mant = x.mant * 2 ^ places := by
    rw [← shift]
    rfl
  have exp : (x.widened extended nonzero).exp = x.exp - places := by
    show x.widenedExp wide = _
    omega
  have nonzero' : (x.widened extended nonzero).mant ≠ 0 := by
    rw [mant]
    exact Nat.mul_ne_zero nonzero (Nat.two_pow_pos places).ne'
  -- The leading bit stands where it stood, so that the last place is that of the number itself.
  have leading : (x.widened extended nonzero).toExact.log2 = (x.mant.log2 : Int) + x.exp := by
    rw [log2_toExact _ nonzero', mant, exp, log2_mul_two_pow nonzero]
    omega
  -- In units of that place the widened significand is a whole number of them again.
  have whole : (x.widened extended nonzero).toExact.units x.exp = x.mant := by
    have down : (x.exp - places - x.exp).toNat = 0 := by omega
    have up : (x.exp - (x.exp - places)).toNat = places := by omega
    simp only [Exact.units, toExact, mant, exp, scale, down, up]
    simpa using roundDiv_mul_self x.mant (2 ^ places) (Nat.two_pow_pos places)
  simp only [Exact.round?, leading, x.exp_eq_max nonzero, whole]
  rw [if_neg (by exact nonzero'), if_neg (by exact x.holds.1.ne)]
  simp only [ofParts?, dif_pos x.holds, toExact, widened]

end Binary

/-- A 32-bit number in the 64-bit format is finite and has the same value. -/
theorem Single.toDouble_exact (x : Single) :
    ∃ y : Binary .double, x.toDouble = .finite y ∧ y.value = x.value := by
  obtain ⟨y, rounded, -, same⟩ := Binary.round?_toExact Format.double_extends_single x
  exact ⟨y, by simp only [toDouble, Exact.toDouble, rounded], same⟩

/-- A 32-bit number in the 64-bit format is rounded back to itself. -/
theorem Single.toSingle?_toDouble (x : Single) : x.toDouble.toSingle? = some x := by
  by_cases zero : x.mant = 0
  · -- Zero has one form in each format, apart from its sign.
    obtain ⟨negative, mant, exp, holds⟩ := x
    subst zero
    have finest : exp = Format.single.minExp := by
      rcases holds.2.2.2 with finest | long
      · exact finest
      · exact absurd long (by decide)
    subst finest
    rfl
  · have wide := x.round?_eq_widened Format.double_extends_single zero
    simp only [toDouble, Exact.toDouble, wide, Double.toSingle?]
    exact x.round?_widened Format.double_extends_single zero

end Pseudocode
