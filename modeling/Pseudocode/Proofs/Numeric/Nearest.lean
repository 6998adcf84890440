import Mathlib.Algebra.Order.Field.Power
import Mathlib.Data.Int.Log
import Mathlib.Data.Rat.Floor
import Mathlib.Tactic.FieldSimp
import Mathlib.Tactic.Linarith
import Mathlib.Tactic.Positivity
import Pseudocode.Proofs.Numeric.Widening

/-! Rounding looks only at the value of what it rounds, and what is near enough to a number is
rounded to it. -/

namespace Pseudocode

/-- A whole number is nearest to a quotient, and it is even if another one is as near. -/
structure Nearest (quotient : ℚ) (whole : Nat) : Prop where
  /-- It is at most a half away. -/
  near : |quotient - whole| ≤ 1 / 2
  /-- Half way between two it is the even one. -/
  even : |quotient - whole| = 1 / 2 → whole % 2 = 0

namespace Nearest

variable {quotient : ℚ} {whole other : Nat}

/-- What is less than a half away is nearest. -/
theorem of_lt (near : |quotient - whole| < 1 / 2) : Nearest quotient whole :=
  ⟨near.le, fun half => absurd half near.ne⟩

/-- Of two nearest numbers none is greater than the other. -/
theorem not_lt (first : Nearest quotient whole) (second : Nearest quotient other) :
    ¬ whole < other := by
  intro less
  -- There is at least a unit between them.
  have gap : (whole : ℚ) + 1 ≤ other := by exact_mod_cast less
  have above := (abs_le.mp first.near).2
  have below := (abs_le.mp second.near).1
  -- They are a unit apart, with the quotient half way between them, and both would be even.
  have apart : (other : ℚ) = whole + 1 := by linarith
  have half : quotient - whole = 1 / 2 := by linarith
  have half' : quotient - other = -(1 / 2) := by linarith
  have even := first.even (by rw [half]; norm_num)
  have even' := second.even (by rw [half']; norm_num)
  have next : other = whole + 1 := by exact_mod_cast apart
  omega

/-- There is one nearest number only. -/
theorem unique (first : Nearest quotient whole) (second : Nearest quotient other) :
    whole = other :=
  Nat.le_antisymm (Nat.not_lt.mp (second.not_lt first)) (Nat.not_lt.mp (first.not_lt second))

end Nearest

/-- A quotient half way between two whole numbers is rounded to the even one. -/
theorem roundDiv_even (num : Nat) {den : Nat} (positive : 0 < den)
    (half : 2 * num = (2 * roundDiv num den + 1) * den ∨
      2 * roundDiv num den * den = 2 * num + den) : roundDiv num den % 2 = 0 := by
  -- The quotient is taken apart into a whole number and a remainder.
  have law := Nat.div_add_mod num den
  have small := Nat.mod_lt num positive
  simp only [roundDiv] at half ⊢
  generalize num / den = quotient at *
  generalize num % den = remainder at *
  subst law
  -- Twice the remainder is the divisor, so that the parity of the quotient has decided.
  split at half <;> grind

/-- Rounded division finds the number that is nearest to the quotient. -/
theorem roundDiv_nearest (num : Nat) {den : Nat} (positive : 0 < den) :
    Nearest (num / den) (roundDiv num den) := by
  have divisor : (0 : ℚ) < den := by exact_mod_cast positive
  obtain ⟨above, below⟩ := roundDiv_near num den positive
  have even := roundDiv_even num positive
  generalize roundDiv num den = whole at *
  -- The distance is a fraction with the same denominator.
  have distance : (num : ℚ) / den - whole = (num - whole * den) / den := by
    field_simp
  have above' : (2 : ℚ) * num ≤ (2 * whole + 1) * den := by exact_mod_cast above
  have below' : (2 : ℚ) * whole * den ≤ 2 * num + den := by exact_mod_cast below
  constructor
  · rw [distance, abs_le, le_div_iff₀ divisor, div_le_iff₀ divisor]
    constructor <;> linarith
  · intro half
    -- What is half way has been rounded to the even number.
    apply even
    rw [distance] at half
    -- The quotient is half a unit above the number or half a unit below it.
    rcases eq_or_eq_neg_of_abs_eq half with half | half
    · left
      rw [div_eq_iff divisor.ne'] at half
      have twice : (2 : ℚ) * num = (2 * whole + 1) * den := by linarith
      exact_mod_cast twice
    · right
      rw [div_eq_iff divisor.ne'] at half
      have twice : (2 : ℚ) * whole * den = 2 * num + den := by linarith
      exact_mod_cast twice

/-- A factor that belongs to the numerator or to the denominator is a power of the base. -/
theorem scale_div_scale {base : Nat} (positive : 0 < base) (exp : Int) :
    (scale base exp : ℚ) / scale base (-exp) = (base : ℚ) ^ exp := by
  have nonzero : (base : ℚ) ≠ 0 := by exact_mod_cast positive.ne'
  simp only [scale, Nat.pow_eq, Nat.cast_pow]
  -- One of the two factors is one.
  rcases Int.le_total 0 exp with up | down
  · rw [show (-exp).toNat = 0 by omega, pow_zero, div_one, ← zpow_natCast,
      Int.toNat_of_nonneg up]
  · rw [show exp.toNat = 0 by omega, pow_zero, one_div, ← zpow_natCast, ← zpow_neg,
      Int.toNat_of_nonneg (by omega), neg_neg]

/-- The difference of two logarithms that each drop a fraction is that of the quotient, or it is one
too high, which one comparison puts right. -/
theorem log_of_guess {base num den : Nat} (large : 1 < base) {above below : Nat}
    (numLow : base ^ above ≤ num) (numHigh : num < base ^ (above + 1))
    (denLow : base ^ below ≤ den) (denHigh : den < base ^ (below + 1)) (guess : Int)
    (guessed : guess = above - below) :
    (if num * scale base (-guess) < den * scale base guess then guess - 1 else guess) =
      Int.log base ((num : ℚ) / den) := by
  have positive : (0 : ℚ) < base := by exact_mod_cast (by omega : 0 < base)
  have num' : (0 : ℚ) < num := by
    exact_mod_cast Nat.lt_of_lt_of_le (Nat.pow_pos (by omega)) numLow
  have den' : (0 : ℚ) < den := by
    exact_mod_cast Nat.lt_of_lt_of_le (Nat.pow_pos (by omega)) denLow
  have quotient : (0 : ℚ) < num / den := div_pos num' den'
  have factor : (0 : ℚ) < scale base (-guess) := by exact_mod_cast scale_pos (by omega) _
  -- The quotient lies within one power of the base around the guess.
  have low : (base : ℚ) ^ (guess - 1) ≤ num / den := by
    rw [le_div_iff₀ den']
    calc (base : ℚ) ^ (guess - 1) * den
        ≤ base ^ (guess - 1) * base ^ (below + 1) := by
          gcongr
          exact_mod_cast denHigh.le
      _ = base ^ above := by
          rw [← zpow_natCast, ← zpow_natCast, ← zpow_add₀ positive.ne', guessed]
          congr 1
          push_cast
          ring
      _ ≤ num := by exact_mod_cast numLow
  have high : (num : ℚ) / den < base ^ (guess + 1) := by
    rw [div_lt_iff₀ den']
    calc (num : ℚ) < base ^ (above + 1) := by exact_mod_cast numHigh
      _ = base ^ (guess + 1) * base ^ below := by
          rw [← zpow_natCast, ← zpow_natCast, ← zpow_add₀ positive.ne', guessed]
          congr 1
          push_cast
          ring
      _ ≤ base ^ (guess + 1) * den := by
          gcongr
          exact_mod_cast denLow
  -- The comparison is that of the quotient with the power that was guessed.
  have compared : num * scale base (-guess) < den * scale base guess ↔
      (num : ℚ) / den < base ^ guess := by
    rw [← scale_div_scale (by omega), div_lt_div_iff₀ den' factor, mul_comm den]
    exact_mod_cast Iff.rfl
  -- The two bounds leave only the guess and the number before it.
  rw [Int.zpow_le_iff_le_log large quotient] at low
  rw [Int.lt_zpow_iff_log_lt large quotient] at high compared
  split <;> omega

/-- A power of the base moves a logarithm. -/
theorem log_mul_zpow {base : Nat} (large : 1 < base) {q : ℚ} (positive : 0 < q) (exp : Int) :
    Int.log base (q * base ^ exp) = Int.log base q + exp := by
  have power : (0 : ℚ) < base ^ exp := zpow_pos (by exact_mod_cast (by omega : 0 < base)) exp
  have nonzero : (base : ℚ) ≠ 0 := by exact_mod_cast (by omega : base ≠ 0)
  -- Both bounds of a logarithm are moved by the power.
  apply le_antisymm
  · rw [← Int.lt_add_one_iff, ← Int.lt_zpow_iff_log_lt large (mul_pos positive power),
      show Int.log base q + exp + 1 = Int.log base q + 1 + exp by ring, zpow_add₀ nonzero]
    exact mul_lt_mul_of_pos_right (Int.lt_zpow_succ_log_self large q) power
  · rw [← Int.zpow_le_iff_le_log large (mul_pos positive power), zpow_add₀ nonzero]
    exact mul_le_mul_of_nonneg_right (Int.zpow_log_le_self large positive) power.le

/-- The magnitude of an exact number. -/
def Exact.magnitude (x : Exact) : ℚ :=
  x.num / x.den * 2 ^ x.exp

/-- The magnitude of a finite number. -/
def Binary.magnitude {format : Format} (x : Binary format) : ℚ :=
  x.mant * 2 ^ x.exp

namespace Exact

variable {x y : Exact}

/-- Only zero has no magnitude. -/
theorem magnitude_eq_zero (x : Exact) : x.magnitude = 0 ↔ x.num = 0 := by
  -- The other two factors are not zero.
  have divisor : (x.den : ℚ) ≠ 0 := by exact_mod_cast x.den_pos.ne'
  have power : (2 : ℚ) ^ x.exp ≠ 0 := by positivity
  simp [magnitude, divisor, power]

/-- What is not zero has a magnitude. -/
theorem magnitude_pos (nonzero : x.num ≠ 0) : 0 < x.magnitude := by
  have num : (0 : ℚ) < x.num := by exact_mod_cast Nat.pos_of_ne_zero nonzero
  have den : (0 : ℚ) < x.den := by exact_mod_cast x.den_pos
  unfold magnitude
  positivity

/-- The logarithm that rounding starts with is that of the magnitude. -/
theorem log2_eq (nonzero : x.num ≠ 0) : x.log2 = Int.log 2 x.magnitude := by
  have num : (0 : ℚ) < x.num := by exact_mod_cast Nat.pos_of_ne_zero nonzero
  have den : (0 : ℚ) < x.den := by exact_mod_cast x.den_pos
  -- The lengths in binary digits are the two logarithms of the guess.
  have guessed := log_of_guess (by decide) (Nat.log2_self_le nonzero) Nat.lt_log2_self
    (Nat.log2_self_le x.den_pos.ne') Nat.lt_log2_self _ rfl
  have moved := @log_mul_zpow 2 (by decide) _ (div_pos num den) x.exp
  rw [log2, guessed, magnitude, ← moved]
  rfl

/-- The two factors between exponents divide the magnitude by a power of two. -/
theorem ratio_eq (x : Exact) (exp : Int) :
    ((x.num * scale 2 (x.exp - exp) : Nat) : ℚ) / (x.den * scale 2 (exp - x.exp) : Nat) =
      x.magnitude / 2 ^ exp := by
  have factors := scale_div_scale (by decide : 0 < 2) (x.exp - exp)
  -- The two powers are put together into one.
  rw [neg_sub] at factors
  push_cast at factors ⊢
  rw [mul_div_mul_comm, factors, magnitude, zpow_sub₀ (by norm_num)]
  ring

/-- The units that a number is rounded to are nearest to its magnitude in them. -/
theorem units_nearest (x : Exact) (exp : Int) :
    Nearest (x.magnitude / 2 ^ exp) (x.units exp) := by
  -- The units are the rounded quotient of the two numbers.
  rw [← x.ratio_eq exp]
  exact roundDiv_nearest _ (Nat.mul_pos x.den_pos (scale_pos (by decide) _))

/-- Numbers of one magnitude have the same units. -/
theorem units_congr (same : y.magnitude = x.magnitude) (exp : Int) :
    y.units exp = x.units exp := by
  -- Both are nearest to the same quotient.
  have first := y.units_nearest exp
  rw [same] at first
  exact first.unique (x.units_nearest exp)

/-- Rounding looks only at the sign and the magnitude of a number. -/
theorem round?_congr (sign : y.negative = x.negative) (same : y.magnitude = x.magnitude)
    (format : Format) : y.round? format = x.round? format := by
  -- Zero keeps its sign; for all else the logarithm and the units are the same.
  by_cases zero : x.num = 0
  · have zero' : y.num = 0 := by rw [← magnitude_eq_zero, same, magnitude_eq_zero, zero]
    simp only [round?, zero, zero', sign, if_true]
  · have nonzero : y.num ≠ 0 := by rwa [Ne, ← magnitude_eq_zero, same, magnitude_eq_zero]
    have leading : y.log2 = x.log2 := by rw [log2_eq nonzero, log2_eq zero, same]
    simp only [round?, zero, nonzero, sign, leading, units_congr same]

/-- What is below half of the finest place is rounded to zero. -/
theorem round?_of_small {format : Format} (nonzero : x.num ≠ 0)
    (small : x.magnitude < 2 ^ (format.minExp - 1)) :
    x.round? format = some (.zero format x.negative) := by
  have positive := magnitude_pos nonzero
  have unit : (0 : ℚ) < 2 ^ format.minExp := by positivity
  -- The leading place is below that of the finest unit.
  have low : Int.log 2 x.magnitude < format.minExp - 1 :=
    (Int.lt_zpow_iff_log_lt (by decide) positive).mp (by exact_mod_cast small)
  have finest : max format.minExp (x.log2 - (format.precision - 1 : Nat)) = format.minExp := by
    rw [log2_eq nonzero]
    omega
  -- No unit of the finest place is near.
  have none : x.units format.minExp = 0 := by
    refine (x.units_nearest format.minExp).unique (.of_lt ?_)
    rw [zpow_sub₀ (by norm_num), zpow_one] at small
    rw [Nat.cast_zero, sub_zero, abs_of_pos (by positivity), div_lt_iff₀ unit]
    linarith
  have holds : format.Holds 0 format.minExp := (Binary.zero format x.negative).holds
  have room : 0 ≠ Nat.pow 2 format.precision := (Nat.two_pow_pos _).ne
  simp only [round?, if_neg nonzero, finest, none, if_neg room, Binary.ofParts?, dif_pos holds]
  rfl

/-- What is not below the power of two after the coarsest place is too large. -/
theorem round?_of_large {format : Format} (wide : 0 < format.precision)
    (large : 2 ^ (format.maxExp + format.precision) ≤ x.magnitude) : x.round? format = none := by
  have positive : 0 < x.magnitude := lt_of_lt_of_le (by positivity) large
  have nonzero : x.num ≠ 0 := fun zero => positive.ne' (x.magnitude_eq_zero.mpr zero)
  have high : format.maxExp + format.precision ≤ x.log2 := by
    rw [log2_eq nonzero, ← Int.zpow_le_iff_le_log (by decide) positive]
    exact_mod_cast large
  -- The exponent is above the greatest one, with or without a carry.
  have refused : ∀ mant exp, format.maxExp < exp →
      Binary.ofParts? format x.negative mant exp = none := by
    intro mant exp above
    exact dif_neg fun holds => by have most := holds.2.2.1; omega
  have above : format.maxExp < max format.minExp (x.log2 - (format.precision - 1 : Nat)) := by
    omega
  simp only [round?, if_neg nonzero]
  split
  · exact refused _ _ (by omega)
  · exact refused _ _ above

/-- Rounding to 64 bits looks only at the sign and the magnitude of a number. -/
theorem toDouble_congr (sign : y.negative = x.negative) (same : y.magnitude = x.magnitude) :
    y.toDouble = x.toDouble := by
  simp only [toDouble, round?_congr sign same, sign]

end Exact

namespace Binary
variable {format : Format}

/-- The exact form of a number has its magnitude. -/
theorem toExact_magnitude (x : Binary format) : x.toExact.magnitude = x.magnitude := by
  simp [Exact.magnitude, toExact, magnitude]

/-- Only a number with a significand of zero has no magnitude. -/
theorem magnitude_eq_zero_iff (x : Binary format) : x.magnitude = 0 ↔ x.mant = 0 := by
  rw [← x.toExact_magnitude]
  exact x.toExact.magnitude_eq_zero

/-- A number that is not zero has a magnitude. -/
theorem magnitude_pos (x : Binary format) (nonzero : x.mant ≠ 0) : 0 < x.magnitude := by
  rw [← x.toExact_magnitude]
  exact Exact.magnitude_pos nonzero

/-- What is near to a number, as compared with its magnitude, is less than half of its last place
away. -/
theorem near_half (x : Binary format) {q : ℚ}
    (near : |q - x.magnitude| * 2 ^ (format.precision + 1) < x.magnitude) :
    |q - x.magnitude| < 2 ^ x.exp / 2 := by
  have unit : (0 : ℚ) < 2 ^ x.exp := by positivity
  have power : (0 : ℚ) < 2 ^ format.precision := by positivity
  have short : (x.mant : ℚ) < 2 ^ format.precision := by exact_mod_cast x.holds.1
  have bound : x.magnitude < 2 ^ format.precision * 2 ^ x.exp :=
    mul_lt_mul_of_pos_right short unit
  rw [pow_succ] at near
  -- At half of the last place the distance would outweigh the greatest magnitude.
  by_contra far
  have far' : (2 : ℚ) ^ x.exp / 2 ≤ |q - x.magnitude| := not_lt.mp far
  nlinarith

/-- What is less than half of the last place away from a number has its units. -/
theorem units_of_half (x : Binary format) {y : Exact}
    (half : |y.magnitude - x.magnitude| < 2 ^ x.exp / 2) : y.units x.exp = x.mant := by
  have unit : (0 : ℚ) < 2 ^ x.exp := by positivity
  refine (y.units_nearest x.exp).unique (.of_lt ?_)
  have distance : y.magnitude / 2 ^ x.exp - x.mant = (y.magnitude - x.magnitude) / 2 ^ x.exp := by
    rw [magnitude]
    field_simp
  rw [distance, abs_div, abs_of_pos unit, div_lt_iff₀ unit]
  linarith

/-- What is less than half of the last place away from a number is below a power of two that the
number has half a unit to. -/
theorem log_lt_of_half (x : Binary format) {q : ℚ} (positive : 0 < q)
    (half : |q - x.magnitude| < 2 ^ x.exp / 2) {k : Int} (room : x.mant + 1 / 2 ≤ (2 : ℚ) ^ k) :
    Int.log 2 q < k + x.exp := by
  rw [← Int.lt_zpow_iff_log_lt (by decide) positive]
  have unit : (0 : ℚ) < 2 ^ x.exp := by positivity
  have bounds := abs_lt.mp half
  calc q < x.magnitude + 2 ^ x.exp / 2 := by linarith
    _ = (x.mant + 1 / 2) * 2 ^ x.exp := by rw [magnitude]; ring
    _ ≤ 2 ^ k * 2 ^ x.exp := by gcongr
    _ = ((2 : Nat) : ℚ) ^ (k + x.exp) := by rw [Nat.cast_ofNat, zpow_add₀ (by norm_num)]

/-- What is less than half of the last place away from a number is not below a power of two that the
number has half a unit more than. -/
theorem le_log_of_half (x : Binary format) {q : ℚ} (positive : 0 < q)
    (half : |q - x.magnitude| < 2 ^ x.exp / 2) {k : Int} (room : (2 : ℚ) ^ k ≤ x.mant - 1 / 2) :
    k + x.exp ≤ Int.log 2 q := by
  rw [← Int.zpow_le_iff_le_log (by decide) positive]
  have unit : (0 : ℚ) < 2 ^ x.exp := by positivity
  have bounds := abs_lt.mp half
  calc ((2 : Nat) : ℚ) ^ (k + x.exp) = 2 ^ k * 2 ^ x.exp := by
        rw [Nat.cast_ofNat, zpow_add₀ (by norm_num)]
    _ ≤ (x.mant - 1 / 2) * 2 ^ x.exp := by gcongr
    _ = x.magnitude - 2 ^ x.exp / 2 := by rw [magnitude]; ring
    _ ≤ q := by linarith

/-- The exponent that rounding chooses for what is near to a number is that of the number. Only at a
power of two it may be one less. -/
theorem exp_of_near (wide : 0 < format.precision) (x : Binary format) {q : ℚ} (positive : 0 < q)
    (near : |q - x.magnitude| * 2 ^ (format.precision + 1) < x.magnitude) :
    max format.minExp (Int.log 2 q - (format.precision - 1 : Nat)) = x.exp ∨
      max format.minExp (Int.log 2 q - (format.precision - 1 : Nat)) = x.exp - 1 ∧
        x.mant = 2 ^ (format.precision - 1) := by
  obtain ⟨places, precision⟩ : ∃ places, format.precision = places + 1 :=
    ⟨format.precision - 1, by omega⟩
  obtain ⟨short, above, below, long⟩ := x.holds
  have half := x.near_half near
  simp only [precision, Nat.add_sub_cancel] at *
  -- It is below the next power of two, so that the exponent is not greater.
  have high : Int.log 2 q < (places + 1 : Nat) + x.exp := by
    have most : (x.mant : ℚ) + 1 ≤ 2 ^ (places + 1) := by exact_mod_cast short
    refine x.log_lt_of_half positive half ?_
    rw [zpow_natCast]
    linarith
  by_cases finest : x.exp = format.minExp
  · left
    omega
  · have long' : 2 ^ places ≤ x.mant := by simpa using long.resolve_left finest
    by_cases least : x.mant = 2 ^ places
    · -- At a power of two it may be below, but not below the power before it.
      have low : (places : Int) - 1 + x.exp ≤ Int.log 2 q := by
        have least' : (x.mant : ℚ) = 2 ^ places := by exact_mod_cast least
        have one : (1 : ℚ) ≤ 2 ^ places := one_le_pow₀ (by norm_num)
        refine x.le_log_of_half positive half ?_
        rw [zpow_sub₀ (by norm_num), zpow_natCast, zpow_one, least']
        linarith
      omega
    · left
      have low : (places : Int) + x.exp ≤ Int.log 2 q := by
        have more : (2 : ℚ) ^ places + 1 ≤ x.mant := by
          exact_mod_cast (by omega : 2 ^ places + 1 ≤ x.mant)
        refine x.le_log_of_half positive half ?_
        rw [zpow_natCast]
        linarith
      omega

/-- Below a power of two the units are half as large, and what is near is rounded up to it. -/
theorem units_of_near (wide : 0 < format.precision) (x : Binary format) {y : Exact}
    (power : x.mant = 2 ^ (format.precision - 1))
    (near : |y.magnitude - x.magnitude| * 2 ^ (format.precision + 1) < x.magnitude) :
    y.units (x.exp - 1) = 2 ^ format.precision := by
  obtain ⟨places, precision⟩ : ∃ places, format.precision = places + 1 :=
    ⟨format.precision - 1, by omega⟩
  have unit : (0 : ℚ) < 2 ^ x.exp := by positivity
  have factor : (0 : ℚ) < 2 ^ places := by positivity
  have fine : (2 : ℚ) ^ (x.exp - 1) = 2 ^ x.exp / 2 := by
    rw [zpow_sub₀ (by norm_num), zpow_one]
  simp only [precision, Nat.add_sub_cancel] at *
  have whole : x.magnitude = 2 ^ places * 2 ^ x.exp := by
    rw [magnitude, power]
    push_cast
    rfl
  -- The factor cancels, and a quarter of the last place is left.
  have quarter : |y.magnitude - x.magnitude| < 2 ^ x.exp / 4 := by
    rw [whole] at near ⊢
    rw [pow_succ, pow_succ] at near
    by_contra far
    have far' := not_lt.mp far
    nlinarith
  -- In the finer units that is less than a half.
  refine (y.units_nearest (x.exp - 1)).unique (.of_lt ?_)
  have distance : y.magnitude / 2 ^ (x.exp - 1) - ((2 ^ (places + 1) : Nat) : ℚ) =
      (y.magnitude - x.magnitude) / (2 ^ x.exp / 2) := by
    rw [whole, fine]
    push_cast
    field_simp
    ring
  rw [distance, abs_div, abs_of_pos (half_pos unit), div_lt_iff₀ (half_pos unit)]
  linarith

/-- What is near enough to a number, as compared with its magnitude, is rounded to it. -/
theorem round?_of_near (wide : 0 < format.precision) (x : Binary format) {y : Exact}
    (sign : y.negative = x.negative)
    (near : |y.magnitude - x.magnitude| * 2 ^ (format.precision + 1) < x.magnitude) :
    y.round? format = some x := by
  have unit : (0 : ℚ) < 2 ^ x.exp := by positivity
  -- Zero is as far away from a number as the number is large.
  have nonzero : y.num ≠ 0 := by
    intro zero
    have none := y.magnitude_eq_zero.mpr zero
    have one : (1 : ℚ) ≤ 2 ^ (format.precision + 1) := one_le_pow₀ (by norm_num)
    have size := abs_nonneg (0 - x.magnitude)
    have large := neg_le_abs (0 - x.magnitude)
    rw [none] at near
    nlinarith
  have exps := x.exp_of_near wide (Exact.magnitude_pos nonzero) near
  have half := x.near_half near
  simp only [Exact.round?, if_neg nonzero, Exact.log2_eq nonzero]
  rcases exps with same | ⟨less, power⟩
  · rw [same, x.units_of_half half, if_neg x.holds.1.ne]
    simp only [ofParts?, dif_pos x.holds, sign]
  · -- The carry leads from the exponent below to that of the number.
    rw [less, x.units_of_near wide power near]
    obtain ⟨negative, mant, exp, holds⟩ := x
    simp only [Nat.pow_eq, if_true, Int.sub_add_cancel] at power sign ⊢
    subst power sign
    simp only [ofParts?, dif_pos holds]

end Binary

end Pseudocode
