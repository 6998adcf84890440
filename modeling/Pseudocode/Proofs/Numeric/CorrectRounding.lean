import Pseudocode.Proofs.Numeric.Nearest

/-! Rounding to a format is correct: it finds the nearest number of the format, of two equally near
ones the even one, and fails exactly from half a unit above the greatest number on. -/

namespace Pseudocode

namespace Nearest

variable {quotient : ℚ} {whole : Nat}

/-- No whole number is nearer than a nearest one. -/
theorem le_abs_sub (nearest : Nearest quotient whole) (other : Nat) :
    |quotient - whole| ≤ |quotient - other| := by
  have near := abs_le.mp nearest.near
  -- Another whole number is at least a unit away on one side.
  rcases Nat.lt_trichotomy whole other with less | same | more
  · have gap : (whole : ℚ) + 1 ≤ other := by exact_mod_cast less
    calc |quotient - whole| ≤ 1 / 2 := nearest.near
      _ ≤ other - quotient := by linarith
      _ ≤ |quotient - other| := by rw [abs_sub_comm]; exact le_abs_self _
  -- The number itself is as near as it is.
  · rw [same]
  · have gap : (other : ℚ) + 1 ≤ whole := by exact_mod_cast more
    calc |quotient - whole| ≤ 1 / 2 := nearest.near
      _ ≤ quotient - other := by linarith
      _ ≤ |quotient - other| := le_abs_self _

/-- A nearest number that is not the only one is even. -/
theorem even_of_tie (nearest : Nearest quotient whole) {other : Nat} (different : other ≠ whole)
    (tie : |quotient - other| = |quotient - whole|) : whole % 2 = 0 := by
  apply nearest.even
  -- Two whole numbers are a unit apart, so that both are half a unit away.
  have apart : (1 : ℚ) ≤ |(other : ℚ) - whole| := by
    have gap : (1 : Int) ≤ |(other : Int) - whole| := Int.one_le_abs (by omega)
    exact_mod_cast gap
  have sides := abs_sub_le (other : ℚ) quotient whole
  rw [abs_sub_comm (other : ℚ) quotient, tie] at sides
  linarith [nearest.near]

/-- A whole number is nearest to itself only. -/
theorem eq_of_natCast (nearest : Nearest quotient whole) {other : Nat} (same : quotient = other) :
    whole = other :=
  -- Its distance to the other number is nothing, which is below a half.
  nearest.unique (.of_lt (by rw [same, sub_self, abs_zero]; norm_num))

/-- Measured in units, a nearest number of them is at least as near as any other. -/
theorem le_abs_sub_mul {q unit : ℚ} (positive : 0 < unit) (nearest : Nearest (q / unit) whole)
    (other : Nat) : |q - whole * unit| ≤ |q - other * unit| := by
  -- In units the statement is the one above; the unit is then multiplied out on both sides.
  have scaled := mul_le_mul_of_nonneg_right (nearest.le_abs_sub other) positive.le
  have distance : ∀ n : Nat, |q / unit - n| * unit = |q - n * unit| := by
    intro n
    rw [← abs_of_pos positive, ← abs_mul, abs_of_pos positive, sub_mul,
      div_mul_cancel₀ _ positive.ne']
  rwa [distance, distance] at scaled

end Nearest

/-- A power of two is a whole number of a smaller one. -/
theorem two_zpow_eq_mul {fine coarse : Int} (le : fine ≤ coarse) :
    (2 : ℚ) ^ coarse = 2 ^ (coarse - fine).toNat * 2 ^ fine := by
  -- Powers of two with whole exponents multiply by adding these.
  rw [← zpow_natCast, Int.toNat_of_nonneg (by omega), ← zpow_add₀ (by norm_num), sub_add_cancel]

namespace Format

variable (format : Format)

/-- The exponent of the last place that a format gives to a magnitude. -/
def lastPlace (q : ℚ) : Int :=
  max format.minExp (Int.log 2 q - (format.precision - 1 : Nat))

/-- No last place is finer than the finest one. -/
theorem minExp_le_lastPlace (q : ℚ) : format.minExp ≤ format.lastPlace q :=
  le_max_left _ _

/-- In units of its last place a magnitude is below the next power of two. -/
theorem lt_lastPlace {q : ℚ} (wide : 0 < format.precision) (positive : 0 < q) :
    q < 2 ^ format.precision * 2 ^ format.lastPlace q := by
  -- The two powers are one, and the bound on the logarithm decides.
  rw [← zpow_natCast, ← zpow_add₀ (by norm_num)]
  refine (Int.lt_zpow_iff_log_lt (by decide : 1 < 2) positive).mpr ?_
  -- The last place is the greater of two numbers, in which the logarithm stands.
  unfold lastPlace
  omega

/-- Unless its last place is the finest, a magnitude fills the significand. -/
theorem lastPlace_le {q : ℚ} (wide : 0 < format.precision) (positive : 0 < q)
    (coarse : format.lastPlace q ≠ format.minExp) :
    2 ^ (format.precision - 1) * 2 ^ format.lastPlace q ≤ q := by
  rw [← zpow_natCast, ← zpow_add₀ (by norm_num)]
  refine (Int.zpow_le_iff_le_log (by decide : 1 < 2) positive).mpr ?_
  -- A last place that is not the finest is the other one of the two.
  unfold lastPlace at coarse ⊢
  omega

/-- The bounds of a magnitude in units of a place say that the place is its last one. -/
theorem lastPlace_eq {q : ℚ} {exp : Int} (wide : 0 < format.precision) (positive : 0 < q)
    (allowed : format.minExp ≤ exp) (below : q < 2 ^ format.precision * 2 ^ exp)
    (above : exp = format.minExp ∨ 2 ^ (format.precision - 1) * 2 ^ exp ≤ q) :
    format.lastPlace q = exp := by
  rw [← zpow_natCast, ← zpow_add₀ (by norm_num)] at below above
  have high := (Int.lt_zpow_iff_log_lt (by decide : 1 < 2) positive).mp below
  unfold lastPlace
  -- Below the finest place there is only one choice; elsewhere the logarithm is fixed from both
  -- sides.
  rcases above with finest | full
  · omega
  · have low := (Int.zpow_le_iff_le_log (by decide : 1 < 2) positive).mp full
    omega

/-- Half a unit above the greatest number of a format: what is smaller is rounded to a number. -/
def limit : ℚ :=
  (2 ^ format.precision - 1 / 2) * 2 ^ format.maxExp

/-- The bound of the 32-bit format. -/
theorem limit_single : single.limit = 2 ^ 128 - 2 ^ 103 := by
  norm_num [limit, single]

end Format

namespace Binary

variable {format : Format}

/-- The parts of a number that is made from parts. -/
theorem ofParts?_eq_some {negative : Bool} {mant : Nat} {exp : Int} {z : Binary format}
    (made : ofParts? format negative mant exp = some z) :
    z.negative = negative ∧ z.mant = mant ∧ z.exp = exp := by
  unfold ofParts? at made
  split at made
  · -- Where there is a number, its parts are those that it was made from.
    cases made
    exact ⟨rfl, rfl, rfl⟩
  · -- Parts that make no number leave nothing to show.
    cases made

/-- Parts of the right size form a number unless the exponent is too large. -/
theorem ofParts?_eq_none_iff {negative : Bool} {mant : Nat} {exp : Int}
    (short : mant < 2 ^ format.precision) (allowed : format.minExp ≤ exp)
    (normal : exp = format.minExp ∨ 2 ^ (format.precision - 1) ≤ mant) :
    ofParts? format negative mant exp = none ↔ format.maxExp < exp := by
  unfold ofParts?
  split
  · rename_i holds
    simpa using holds.2.2.1
  · rename_i fails
    simp only [true_iff]
    -- The three other conditions hold by assumption, so only the greatest exponent can be at fault.
    by_contra small
    exact fails ⟨short, allowed, not_lt.mp small, normal⟩

/-- A magnitude is not negative. -/
theorem magnitude_nonneg (z : Binary format) : 0 ≤ z.magnitude := by
  unfold magnitude
  positivity

/-- In units of a place that is not coarser than its last one, a number is a whole number. -/
theorem magnitude_eq_mul (z : Binary format) {exp : Int} (fine : exp ≤ z.exp) :
    z.magnitude = (z.mant * 2 ^ (z.exp - exp).toNat : Nat) * 2 ^ exp := by
  rw [magnitude, two_zpow_eq_mul fine]
  push_cast
  ring

/-- A number with a finer last place is below every number that fills the significand. -/
theorem magnitude_lt (z : Binary format) (wide : 0 < format.precision) {exp : Int}
    (finer : z.exp < exp) : z.magnitude < 2 ^ (format.precision - 1) * 2 ^ exp := by
  -- The significand is short, so the magnitude is below one more place than it has.
  have short : (z.mant : ℚ) < 2 ^ format.precision := by exact_mod_cast z.holds.1
  calc z.magnitude < 2 ^ format.precision * 2 ^ z.exp := by
        unfold magnitude
        gcongr
    _ = 2 ^ (format.precision + z.exp) := by rw [zpow_add₀ (by norm_num), zpow_natCast]
    _ ≤ 2 ^ ((format.precision - 1 : Nat) + exp) :=
        zpow_le_zpow_right₀ (by norm_num) (by omega)
    _ = 2 ^ (format.precision - 1) * 2 ^ exp := by
        -- The exponent of the finer place leaves at least one place free.
        rw [zpow_add₀ (by norm_num), zpow_natCast]

/-- The value of a number is its magnitude with its sign. -/
theorem value_eq (z : Binary format) :
    z.value = if z.negative then -z.magnitude else z.magnitude := by
  unfold value signed magnitude
  split <;> push_cast <;> ring

/-- The absolute value of a number is its magnitude. -/
theorem abs_value (z : Binary format) : |z.value| = z.magnitude := by
  rw [z.value_eq]
  -- Taking the negative does not change an absolute value.
  split <;> simp [abs_of_nonneg z.magnitude_nonneg]

/-- A number is what an exact one is rounded to: none is nearer, its significand is even if another
one is as near, and it has the given sign. -/
structure Rounds (z : Binary format) (exact : ℚ) (negative : Bool) : Prop where
  /-- No number of the format is nearer. -/
  nearest : ∀ other : Binary format, |exact - z.value| ≤ |exact - other.value|
  /-- If a different number is as near, the significand is even. -/
  even : ∀ other : Binary format, other.value ≠ z.value →
    |exact - other.value| = |exact - z.value| → z.mant % 2 = 0
  /-- The sign, which zero has too. -/
  sign : z.negative = negative

end Binary

namespace Exact

variable {format : Format} {x : Exact} {z : Binary format}

/-- The value of an exact number. -/
def value (x : Exact) : ℚ :=
  if x.negative then -x.magnitude else x.magnitude

/-- A magnitude is not negative. -/
theorem magnitude_nonneg (x : Exact) : 0 ≤ x.magnitude := by
  unfold magnitude
  positivity

/-- The absolute value of an exact number is its magnitude. -/
theorem abs_value (x : Exact) : |x.value| = x.magnitude := by
  unfold value
  split <;> simp [abs_of_nonneg x.magnitude_nonneg]

/-- Rounding takes the units of the last place, and carries if they do not fit. -/
theorem round?_eq (nonzero : x.num ≠ 0) :
    x.round? format =
      if x.units (format.lastPlace x.magnitude) = 2 ^ format.precision then
        Binary.ofParts? format x.negative (2 ^ (format.precision - 1))
          (format.lastPlace x.magnitude + 1)
      else Binary.ofParts? format x.negative (x.units (format.lastPlace x.magnitude))
        (format.lastPlace x.magnitude) := by
  -- The logarithm in the definition is that of the magnitude, by its own lemma.
  simp only [round?, if_neg nonzero, log2_eq nonzero]
  rfl

/-- A rounded number has the sign of the exact one. -/
theorem round?_negative (rounded : x.round? format = some z) : z.negative = x.negative := by
  by_cases zero : x.num = 0
  -- Zero has a sign of its own, which is taken over.
  · simp only [round?, zero, if_true, Option.some.injEq] at rounded
    rw [← rounded]
    rfl
  · rw [round?_eq zero] at rounded
    -- Both branches make a number from the given sign.
    split at rounded <;> exact (Binary.ofParts?_eq_some rounded).1

/-- A rounded number is a nearest whole number of last places, and even if that is. -/
theorem round?_nearest (wide : 1 < format.precision) (rounded : x.round? format = some z) :
    ∃ whole : Nat, Nearest (x.magnitude / 2 ^ format.lastPlace x.magnitude) whole ∧
      z.magnitude = whole * 2 ^ format.lastPlace x.magnitude ∧
        (whole % 2 = 0 → z.mant % 2 = 0) := by
  by_cases zero : x.num = 0
  -- A zero is a whole number of any places.
  · have none := x.magnitude_eq_zero.mpr zero
    simp only [round?, zero, if_true, Option.some.injEq] at rounded
    refine ⟨0, .of_lt (by simp [none]), ?_, ?_⟩ <;> simp [← rounded, Binary.magnitude, Binary.zero]
  · refine ⟨_, x.units_nearest (format.lastPlace x.magnitude), ?_⟩
    rw [round?_eq zero] at rounded
    obtain ⟨places, precision⟩ : ∃ places, format.precision = places + 2 :=
      ⟨format.precision - 2, by omega⟩
    split at rounded
    · -- A carry moves one factor of two from the significand to the exponent.
      rename_i carries
      obtain ⟨-, mant, exp⟩ := Binary.ofParts?_eq_some rounded
      simp only [precision, show places + 2 - 1 = places + 1 by omega] at carries mant ⊢
      refine ⟨?_, fun _ => by rw [mant, Nat.pow_succ, Nat.mul_mod_left]⟩
      rw [Binary.magnitude, mant, exp, carries, zpow_add₀ (by norm_num)]
      push_cast
      ring
    · -- Without a carry, the significand is the number of units.
      obtain ⟨-, mant, exp⟩ := Binary.ofParts?_eq_some rounded
      rw [Binary.magnitude, mant, exp]
      exact ⟨rfl, id⟩

/-- No magnitude in the format is nearer than that of the rounded number. -/
theorem round?_le_abs_sub (wide : 1 < format.precision) (rounded : x.round? format = some z)
    (positive : 0 < x.magnitude) (other : Binary format) :
    |x.magnitude - z.magnitude| ≤ |x.magnitude - other.magnitude| ∧
      (other.magnitude ≠ z.magnitude →
        |x.magnitude - other.magnitude| = |x.magnitude - z.magnitude| → z.mant % 2 = 0) := by
  obtain ⟨whole, nearest, magnitude, even⟩ := round?_nearest wide rounded
  generalize place : format.lastPlace x.magnitude = exp at nearest magnitude
  have unit : (0 : ℚ) < 2 ^ exp := by positivity
  -- Distances in units and distances in the number differ by the same factor.
  have distance : ∀ n : Nat, |x.magnitude - n * 2 ^ exp| =
      |x.magnitude / 2 ^ exp - n| * 2 ^ exp := by
    intro n
    rw [← abs_of_pos unit, ← abs_mul, abs_of_pos unit, sub_mul, div_mul_cancel₀ _ unit.ne']
  rw [magnitude]
  rcases lt_or_ge other.exp exp with finer | coarse
  · -- A number with a finer place is on the far side of the power of two that starts the place.
    have finest := other.holds.2.1
    have far := other.magnitude_lt (by omega) finer
    have full := format.lastPlace_le (q := x.magnitude) (by omega) positive (by omega)
    have nearer := nearest.le_abs_sub_mul unit (2 ^ (format.precision - 1))
    rw [place] at full
    push_cast at nearer
    have beyond : |x.magnitude - whole * 2 ^ exp| < |x.magnitude - other.magnitude| := by
      calc |x.magnitude - whole * 2 ^ exp|
          ≤ |x.magnitude - 2 ^ (format.precision - 1) * 2 ^ exp| := nearer
        _ = x.magnitude - 2 ^ (format.precision - 1) * 2 ^ exp := abs_of_nonneg (by linarith)
        _ < x.magnitude - other.magnitude := by linarith
        _ ≤ |x.magnitude - other.magnitude| := le_abs_self _
    -- Nothing beyond is as near, so that no tie can arise there.
    exact ⟨beyond.le, fun _ tie => absurd tie beyond.ne'⟩
  · -- All others are whole numbers of last places.
    rw [other.magnitude_eq_mul coarse]
    refine ⟨nearest.le_abs_sub_mul unit _, fun different tie => even ?_⟩
    rw [distance, distance] at tie
    exact nearest.even_of_tie (fun same => different (by rw [same]))
      (mul_right_cancel₀ unit.ne' tie)

/-- Zero is rounded to zero. -/
theorem round?_magnitude_of_zero (zero : x.magnitude = 0) (rounded : x.round? format = some z) :
    z.magnitude = 0 := by
  simp only [round?, x.magnitude_eq_zero.mp zero, if_true, Option.some.injEq] at rounded
  simp [← rounded, Binary.magnitude, Binary.zero]

/-- The absolute values of numbers of one sign are as far apart as the numbers. -/
theorem abs_value_sub (sign : z.negative = x.negative) :
    |x.value - z.value| = |x.magnitude - z.magnitude| := by
  rw [value, z.value_eq, sign]
  -- With a minus sign both values change theirs, and the distance stays.
  split
  · rw [← abs_neg]
    congr 1
    ring
  · rfl

/-- The absolute values of two numbers are at most as far apart as the numbers. -/
theorem le_abs_value_sub (x : Exact) (other : Binary format) :
    |x.magnitude - other.magnitude| ≤ |x.value - other.value| := by
  -- The distance of values is at least that of their absolute values.
  have sizes := abs_abs_sub_abs_le x.value other.value
  rwa [x.abs_value, other.abs_value] at sizes

/-- Rounding is correct. -/
theorem round?_rounds (wide : 1 < format.precision) (rounded : x.round? format = some z) :
    z.Rounds x.value x.negative := by
  have sign := round?_negative rounded
  rcases x.magnitude_nonneg.eq_or_lt with zero | positive
  · -- Zero is in the format, and is at no distance from itself.
    have none := round?_magnitude_of_zero zero.symm rounded
    have value : x.value = 0 := by simp [value, ← zero]
    have value' : z.value = 0 := by simp [z.value_eq, none]
    refine ⟨fun other => by simp [value, value'], fun other different tie => ?_, sign⟩
    rw [value, value', sub_zero, zero_sub, abs_neg, abs_zero, abs_eq_zero] at tie
    exact absurd (tie.trans value'.symm) different
  · have nearest := fun other => round?_le_abs_sub wide rounded positive other
    -- The values have one sign, so the magnitudes are as far apart as they are.
    have distance := abs_value_sub sign
    refine ⟨fun other => ?_, fun other different tie => ?_, sign⟩
    · rw [distance]
      exact (nearest other).1.trans (x.le_abs_value_sub other)
    · -- A tie of values is a tie of magnitudes, because the signs could only add to the distance.
      have same : |x.magnitude - other.magnitude| = |x.magnitude - z.magnitude| := by
        have bound := x.le_abs_value_sub other
        rw [tie, distance] at bound
        exact le_antisymm bound (nearest other).1
      refine (nearest other).2 (fun equal => different ?_) same
      by_cases signs : other.negative = z.negative
      · rw [other.value_eq, z.value_eq, signs, equal]
      · -- Only zero is as far from a number that is not zero as its opposite is.
        have opposite : other.value = -z.value := by
          rw [other.value_eq, z.value_eq, equal, Bool.eq_not_of_ne signs]
          cases z.negative <;> simp
        have nonzero : x.value ≠ 0 := by
          unfold value
          split <;> simp [positive.ne']
        rw [opposite] at tie ⊢
        rcases abs_eq_abs.mp tie with equal | equal
        · linarith
        · exact absurd (by linarith) nonzero

/-- The units of the last place fit in a significand, or are a power of two that carries. -/
theorem units_lastPlace (wide : 0 < format.precision) (nonzero : x.num ≠ 0) :
    x.units (format.lastPlace x.magnitude) ≤ 2 ^ format.precision ∧
      (format.lastPlace x.magnitude = format.minExp ∨
        2 ^ (format.precision - 1) ≤ x.units (format.lastPlace x.magnitude)) := by
  -- The units are within half of one of the magnitude, whose bounds are known.
  have positive := magnitude_pos nonzero
  have near := abs_le.mp (x.units_nearest (format.lastPlace x.magnitude)).near
  have below := format.lt_lastPlace wide positive
  have full := format.lastPlace_le wide positive
  have unit : (0 : ℚ) < 2 ^ format.lastPlace x.magnitude := by positivity
  rw [← div_lt_iff₀ unit] at below
  simp only [← le_div_iff₀ unit] at full
  generalize x.units (format.lastPlace x.magnitude) = whole at near ⊢
  constructor
  -- A whole number below one more than a bound is at most that bound.
  · have above : (whole : ℚ) < 2 ^ format.precision + 1 := by linarith
    exact Nat.lt_succ_iff.mp (by exact_mod_cast above)
  · by_cases finest : format.lastPlace x.magnitude = format.minExp
    · exact .inl finest
    · have least := full finest
      have low : (2 : ℚ) ^ (format.precision - 1) < whole + 1 := by linarith
      exact .inr (Nat.lt_succ_iff.mp (by exact_mod_cast low))

/-- Rounding fails if the last place is too coarse, or is the coarsest and carries. -/
theorem round?_eq_none_iff_lastPlace (wide : 1 < format.precision) (nonzero : x.num ≠ 0) :
    x.round? format = none ↔ format.maxExp < format.lastPlace x.magnitude ∨
      format.lastPlace x.magnitude = format.maxExp ∧
        x.units (format.lastPlace x.magnitude) = 2 ^ format.precision := by
  obtain ⟨most, least⟩ := @units_lastPlace format x (by omega) nonzero
  have allowed := format.minExp_le_lastPlace x.magnitude
  rw [round?_eq nonzero]
  split
  · rename_i carries
    -- With a carry the significand is a power of two, which is always short enough.
    rw [Binary.ofParts?_eq_none_iff (Nat.pow_lt_pow_right (by decide) (by omega)) (by omega)
      (.inr le_rfl)]
    simp only [carries, and_true]
    omega
  · rename_i fits
    -- Otherwise the significand fits, and only the exponent can be too large.
    rw [Binary.ofParts?_eq_none_iff (by omega) allowed least]
    simp only [fits, and_false, or_false]

/-- A magnitude is too large for a format exactly from half a unit above the greatest number on. -/
theorem round?_eq_none_iff (wide : 1 < format.precision) :
    x.round? format = none ↔ format.limit ≤ x.magnitude := by
  have unit : (0 : ℚ) < 2 ^ format.maxExp := by positivity
  have power : (2 : ℚ) ^ format.precision = 2 ^ (format.precision - 1) * 2 := by
    rw [← pow_succ, Nat.sub_add_cancel (by omega)]
  have one : (1 : ℚ) ≤ 2 ^ (format.precision - 1) := one_le_pow₀ (by norm_num)
  by_cases zero : x.num = 0
  -- Zero is below every limit, and has a number in every format.
  · have none := x.magnitude_eq_zero.mpr zero
    have positive : 0 < format.limit := mul_pos (by linarith) unit
    simp [round?, zero, none, positive]
  rw [round?_eq_none_iff_lastPlace wide zero, Format.limit]
  have positive := magnitude_pos zero
  have nearest := x.units_nearest (format.lastPlace x.magnitude)
  have below := format.lt_lastPlace (by omega) positive
  have full := format.lastPlace_le (by omega) positive
  have most := (@units_lastPlace format x (by omega) zero).1
  have finest := format.ordered
  generalize format.lastPlace x.magnitude = exp at *
  rcases lt_trichotomy exp format.maxExp with fine | coarsest | coarse
  · -- Below the coarsest place, a magnitude is at most half of the limit.
    have step : (2 : ℚ) ^ exp * 2 ≤ 2 ^ format.maxExp := by
      rw [← zpow_add_one₀ (by norm_num)]
      exact zpow_le_zpow_right₀ (by norm_num) (by omega)
    have small : x.magnitude < (2 ^ format.precision - 1 / 2) * 2 ^ format.maxExp := by
      rw [power] at below ⊢
      nlinarith
    constructor
    · -- Neither of the two ways to fail is open here.
      rintro (coarse | ⟨coarsest, -⟩) <;> omega
    · intro large
      exact absurd small (not_lt.mpr large)
  · -- At the coarsest place, the limit is where the units begin to carry.
    subst coarsest
    rw [← le_div_iff₀ unit]
    have near := abs_le.mp nearest.near
    constructor
    · rintro (coarse | ⟨-, carries⟩)
      -- A carry means that the units have reached the next power of two.
      · omega
      · rw [carries] at near
        push_cast at near
        linarith
    · intro large
      refine .inr ⟨rfl, ?_⟩
      -- If they fit, they would have to be odd in the middle, where the even number is taken.
      by_contra fits
      have less : (x.units format.maxExp : ℚ) + 1 ≤ 2 ^ format.precision := by
        exact_mod_cast (by omega : x.units format.maxExp + 1 ≤ 2 ^ format.precision)
      have last : (x.units format.maxExp : ℚ) + 1 = 2 ^ format.precision := by linarith
      have even := nearest.even (by
        rw [abs_of_nonneg (by linarith)]
        linarith)
      have last' : x.units format.maxExp + 1 = 2 ^ (format.precision - 1) * 2 := by
        rw [power] at last
        exact_mod_cast last
      omega
  · -- Above the coarsest place, a magnitude is at least the next power of two.
    have step : (2 : ℚ) ^ format.maxExp * 2 ≤ 2 ^ exp := by
      rw [← zpow_add_one₀ (by norm_num)]
      exact zpow_le_zpow_right₀ (by norm_num) (by omega)
    have large := full (by omega)
    -- The last place alone is too coarse, so that nothing has to be known of the units.
    refine ⟨fun _ => ?_, fun _ => .inl coarse⟩
    rw [power]
    nlinarith

/-- The number that a magnitude below the limit is rounded to. -/
theorem exists_round? (wide : 1 < format.precision) (small : x.magnitude < format.limit) :
    ∃ z, x.round? format = some z := by
  -- Rounding has a result or has none, and it has none only from the limit on.
  rw [← Option.ne_none_iff_exists', Ne, round?_eq_none_iff wide]
  exact not_le.mpr small

/-- Rounding changes a magnitude by at most half of a unit of its last place. -/
theorem round?_distance (wide : 1 < format.precision) (rounded : x.round? format = some z) :
    |z.magnitude - x.magnitude| ≤ 2 ^ format.lastPlace x.magnitude / 2 := by
  obtain ⟨whole, nearest, magnitude, -⟩ := round?_nearest wide rounded
  have unit : (0 : ℚ) < 2 ^ format.lastPlace x.magnitude := by positivity
  -- The distance in units is at most a half, and a unit is multiplied out.
  have near := mul_le_mul_of_nonneg_right nearest.near unit.le
  rw [← abs_of_pos unit, ← abs_mul, abs_of_pos unit, sub_mul, div_mul_cancel₀ _ unit.ne',
    ← magnitude, abs_sub_comm] at near
  linarith

/-- Rounding changes a magnitude that fills the significand by little as compared with it. -/
theorem round?_error (wide : 1 < format.precision) (rounded : x.round? format = some z)
    (normal : 2 ^ (format.minExp + (format.precision - 1 : Nat)) ≤ x.magnitude) :
    |z.magnitude - x.magnitude| * 2 ^ format.precision ≤ x.magnitude := by
  -- A magnitude that is not small is positive, so that its last place is known.
  have positive : 0 < x.magnitude := lt_of_lt_of_le (by positivity) normal
  have leading := (Int.zpow_le_iff_le_log (by decide : 1 < 2) positive).mp normal
  -- A unit of the last place is the leading power of two, moved by the places after it.
  have power : (2 : ℚ) ^ format.lastPlace x.magnitude * 2 ^ format.precision =
      2 * 2 ^ Int.log 2 x.magnitude := by
    rw [← zpow_natCast, ← zpow_add₀ (by norm_num), mul_comm, ← zpow_add_one₀ (by norm_num)]
    congr 1
    unfold Format.lastPlace
    omega
  have low := Int.zpow_log_le_self (by decide : 1 < 2) positive
  push_cast at low
  have distance := round?_distance wide rounded
  -- Half a unit of the last place, times all the places, is at most the leading power of two.
  nlinarith [(by positivity : (0 : ℚ) < 2 ^ format.precision)]

/-- What fits in a significand at an allowed place is not changed by rounding. -/
theorem round?_exact (wide : 1 < format.precision) {whole : Nat} {exp : Int}
    (short : whole < 2 ^ format.precision) (allowed : format.minExp ≤ exp)
    (magnitude : x.magnitude = whole * 2 ^ exp) (rounded : x.round? format = some z) :
    z.magnitude = x.magnitude := by
  rcases x.magnitude_nonneg.eq_or_lt with zero | positive
  -- Zero stays zero, whatever the place.
  · rw [← zero]
    exact round?_magnitude_of_zero zero.symm rounded
  obtain ⟨nearby, nearest, same, -⟩ := round?_nearest wide rounded
  -- The last place is not coarser, so that there is nothing to round off.
  have fine : format.lastPlace x.magnitude ≤ exp := by
    have below : x.magnitude < ((2 : Nat) : ℚ) ^ (format.precision + exp) := by
      rw [magnitude, Nat.cast_ofNat, zpow_add₀ (by norm_num), zpow_natCast]
      have short' : (whole : ℚ) < 2 ^ format.precision := by exact_mod_cast short
      gcongr
    have high := (Int.lt_zpow_iff_log_lt (by decide : 1 < 2) positive).mp below
    unfold Format.lastPlace
    omega
  generalize format.lastPlace x.magnitude = place at *
  -- The magnitude is a whole number of the last place, and that is nearest to itself.
  have units : x.magnitude / 2 ^ place = (whole * 2 ^ (exp - place).toNat : Nat) := by
    rw [magnitude, two_zpow_eq_mul fine, ← mul_assoc, mul_div_assoc, div_self (by positivity)]
    push_cast
    ring
  rw [same, nearest.eq_of_natCast units, ← units, div_mul_cancel₀ _ (by positivity)]

/-- Rounding keeps the order of magnitudes. -/
theorem round?_mono (wide : 1 < format.precision) {y : Exact} {w : Binary format}
    (rounded : x.round? format = some z) (rounded' : y.round? format = some w)
    (le : x.magnitude ≤ y.magnitude) : z.magnitude ≤ w.magnitude := by
  rcases x.magnitude_nonneg.eq_or_lt with zero | positive
  -- Nothing is below zero.
  · rw [round?_magnitude_of_zero zero.symm rounded]
    exact w.magnitude_nonneg
  by_contra more
  have less := not_le.mp more
  -- Each of the two is on its own side of the middle, so that both are in the middle.
  have above := sq_le_sq.mpr (round?_le_abs_sub wide rounded positive w).1
  have below := sq_le_sq.mpr (round?_le_abs_sub wide rounded' (positive.trans_le le) z).1
  have same : x.magnitude = y.magnitude := by nlinarith
  -- Both are nearest numbers of the same places to one magnitude, and so they are equal.
  obtain ⟨whole, nearest, magnitude, -⟩ := round?_nearest wide rounded
  obtain ⟨whole', nearest', magnitude', -⟩ := round?_nearest wide rounded'
  rw [← same] at nearest' magnitude'
  rw [magnitude, magnitude', nearest.unique nearest'] at less
  exact less.false

end Exact

end Pseudocode
