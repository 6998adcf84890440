import Pseudocode.Proofs.Numeric.CorrectRounding

/-! Rounding to 64 bits and then to 32 is rounding to 32 bits, for every sum, difference, product
and quotient of 32-bit numbers. -/

namespace Pseudocode

/-- Two numbers lie strictly on one side of a third. -/
def SameSide (q r middle : ℚ) : Prop :=
  q < middle ∧ r < middle ∨ middle < q ∧ middle < r

/-- The two numbers on a side may be exchanged. -/
theorem SameSide.symm {q r middle : ℚ} (side : SameSide q r middle) : SameSide r q middle :=
  side.imp And.symm And.symm

/-- What is nearer to a number than a third one is lies on the same side of that. -/
theorem SameSide.of_near {q r middle : ℚ} (near : |r - q| < |q - middle|) :
    SameSide q r middle := by
  -- What is near lies between two bounds, on whichever side the number is.
  have bounds := abs_lt.mp near
  rcases le_total q middle with below | above
  · rw [abs_sub_comm, abs_of_nonneg (by linarith)] at bounds
    -- The number is not at the middle, since nothing could be nearer to it than that.
    rcases below.eq_or_lt with same | below
    · rw [same, sub_self, abs_zero] at near
      exact absurd near (not_lt.mpr (abs_nonneg _))
    · exact .inl ⟨below, by linarith⟩
  · rw [abs_of_nonneg (by linarith)] at bounds
    rcases above.eq_or_lt with same | above
    · rw [same, sub_self, abs_zero] at near
      exact absurd near (not_lt.mpr (abs_nonneg _))
    · exact .inr ⟨above, by linarith⟩

/-- Two numbers on one side of every middle between whole numbers of units have no whole numbers
nearest to them in this order. -/
theorem Nearest.not_lt_of_sameSide {q r half : ℚ} (positive : 0 < half) {m n : Nat}
    (first : Nearest (q / (half * 2)) m) (second : Nearest (r / (half * 2)) n)
    (side : SameSide q r ((2 * m + 1 : Nat) * half)) : ¬ m < n := by
  intro less
  -- The two whole numbers have a middle between them, on whose sides the two quotients lie.
  have gap : (m : ℚ) + 1 ≤ n := by exact_mod_cast less
  have above := (abs_le.mp first.near).2
  have below := (abs_le.mp second.near).1
  have unit : 0 < half * 2 := by linarith
  -- The first is not above the middle after `m`, and the second is not below it.
  have up : q ≤ (m + 1 / 2) * (half * 2) := (div_le_iff₀ unit).mp (by linarith)
  have down : (m + 1 / 2) * (half * 2) ≤ r := (le_div_iff₀ unit).mp (by linarith)
  have middle : ((2 * m + 1 : Nat) : ℚ) * half = (m + 1 / 2) * (half * 2) := by
    push_cast
    ring
  rw [middle] at side
  rcases side with ⟨-, less⟩ | ⟨more, -⟩
  · exact absurd less down.not_gt
  · exact absurd more up.not_gt

/-- The greatest power of two of the 64-bit format is below its limit. -/
theorem Format.le_limit_double : 2 ^ (1023 : Int) ≤ double.limit := by
  have power : (2 : ℚ) ^ (1023 : Int) = 2 ^ 52 * 2 ^ (971 : Int) := by
    -- The power is written with the precision and the greatest exponent of the format.
    rw [← zpow_natCast, ← zpow_add₀ (by norm_num)]
    rfl
  rw [power]
  exact mul_le_mul_of_nonneg_right (by norm_num [double]) (by positivity)

namespace Binary

variable {format : Format} (x y : Binary format)

/-- In units of a place that is not coarser than its last one, a number is a whole number. -/
theorem aligned_mul {exp : Int} (fine : exp ≤ x.exp) : (x.aligned exp : ℚ) * 2 ^ exp = x.value := by
  -- The significand is counted in the smaller unit.
  rw [value, two_zpow_eq_mul fine, aligned, scale, Nat.pow_eq]
  push_cast
  ring

/-- The sum of the terms in units of the finer place. -/
theorem aligned_add_mul :
    ((x.aligned (min x.exp y.exp) + y.aligned (min x.exp y.exp) : Int) : ℚ) *
      2 ^ min x.exp y.exp = x.value + y.value := by
  rw [Int.cast_add, add_mul, x.aligned_mul (min_le_left _ _), y.aligned_mul (min_le_right _ _)]

end Binary

namespace Exact

variable {x : Exact}

/-- Half of a unit of the last place that a number has in 32 bits. -/
def halfUnit (x : Exact) : ℚ :=
  2 ^ (Format.single.lastPlace x.magnitude - 1)

/-- A half unit is positive. -/
theorem halfUnit_pos (x : Exact) : 0 < x.halfUnit := by
  unfold halfUnit
  positivity

/-- Two half units are a unit. -/
theorem halfUnit_mul_two (x : Exact) :
    x.halfUnit * 2 = 2 ^ Format.single.lastPlace x.magnitude := by
  -- The exponent of a half unit is one less.
  rw [halfUnit, ← zpow_add_one₀ (by norm_num), sub_add_cancel]

/-- A number is clear of the points between which the rounding to 32 bits is constant: it is one of
them, or its distance from each is more than rounding to 64 bits can change. -/
def Clear (x : Exact) : Prop :=
  ∀ halves : Nat, halves ≤ 2 ^ 25 → x.magnitude = halves * x.halfUnit ∨
    x.magnitude < |x.magnitude - halves * x.halfUnit| * 2 ^ 53

/-- What is rounded to 64 bits without a change is rounded to 32 bits as it was. -/
theorem toSingle?_of_magnitude_eq {y : Binary .double} (rounded : x.round? .double = some y)
    (same : y.magnitude = x.magnitude) : x.toDouble.toSingle? = x.round? .single := by
  simp only [toDouble, rounded, Double.toSingle?]
  -- The second rounding looks only at sign and magnitude, and both are unchanged.
  exact round?_congr (round?_negative rounded) (by rw [y.toExact_magnitude, same]) _

/-- A number that fits in 64 bits is rounded to 32 bits as it was. -/
theorem toSingle?_of_exact {whole : Nat} {exp : Int} (short : whole < 2 ^ 53) (above : -1074 ≤ exp)
    (below : exp ≤ 970) (magnitude : x.magnitude = whole * 2 ^ exp) :
    x.toDouble.toSingle? = x.round? .single := by
  have small : x.magnitude < Format.double.limit := by
    have short' : (whole : ℚ) < 2 ^ 53 := by exact_mod_cast short
    calc x.magnitude < 2 ^ 53 * 2 ^ exp := by
          rw [magnitude]
          gcongr
      _ ≤ 2 ^ 53 * 2 ^ (970 : Int) := by
          gcongr
          norm_num
      _ = 2 ^ (1023 : Int) := by rw [← zpow_natCast, ← zpow_add₀ (by norm_num)]; rfl
      _ ≤ Format.double.limit := Format.le_limit_double
  -- The first rounding changes nothing, because the number fits.
  obtain ⟨y, rounded⟩ := @exists_round? .double x (by decide) small
  exact toSingle?_of_magnitude_eq rounded
    (round?_exact (by decide) short above magnitude rounded)

/-- The last place in 32 bits is the same for numbers on one side of all half units. -/
theorem lastPlace_of_sameSide {y : Exact} (positive : 0 < x.magnitude) (positive' : 0 < y.magnitude)
    (side : ∀ halves : Nat, halves ≤ 2 ^ 25 →
      SameSide x.magnitude y.magnitude (halves * x.halfUnit)) :
    Format.single.lastPlace y.magnitude = Format.single.lastPlace x.magnitude := by
  -- The bounds of the last place are bounds for the first number, and the second is on its side.
  have below := Format.single.lt_lastPlace (by decide) positive
  have full := Format.single.lastPlace_le (by decide) positive
  have upper := side (2 ^ 25) le_rfl
  have lower := side (2 ^ 24) (by decide)
  -- The bounds of a place are whole numbers of half units.
  have top : ((2 ^ 25 : Nat) : ℚ) * x.halfUnit =
      2 ^ 24 * 2 ^ Format.single.lastPlace x.magnitude := by
    rw [← x.halfUnit_mul_two]
    push_cast
    ring
  have bottom : ((2 ^ 24 : Nat) : ℚ) * x.halfUnit =
      2 ^ 23 * 2 ^ Format.single.lastPlace x.magnitude := by
    rw [← x.halfUnit_mul_two]
    push_cast
    ring
  rw [top] at upper
  rw [bottom] at lower
  refine Format.lastPlace_eq _ (by decide) positive' (Format.minExp_le_lastPlace _ _) ?_ ?_
  · -- Above the upper bound there would be a change of sides.
    rcases upper with ⟨-, less⟩ | ⟨more, -⟩
    · exact less
    · exact absurd more (not_lt.mpr below.le)
  · by_cases finest : Format.single.lastPlace x.magnitude = Format.single.minExp
    · exact .inl finest
    · right
      rcases lower with ⟨less, -⟩ | ⟨-, more⟩
      · -- Below the lower bound there would be one, too.
        exact absurd less (not_lt.mpr (full finest))
      · exact more.le

/-- Numbers on one side of all half units are rounded to the same 32-bit number. -/
theorem round?_of_sameSide {y : Exact} (sign : y.negative = x.negative) (nonzero : x.num ≠ 0)
    (nonzero' : y.num ≠ 0) (side : ∀ halves : Nat, halves ≤ 2 ^ 25 →
      SameSide x.magnitude y.magnitude (halves * x.halfUnit)) :
    y.round? .single = x.round? .single := by
  -- Both are rounded at one place, so that only the numbers of units have to be compared.
  have place := lastPlace_of_sameSide (magnitude_pos nonzero) (magnitude_pos nonzero') side
  have first := x.units_nearest (Format.single.lastPlace x.magnitude)
  have second := y.units_nearest (Format.single.lastPlace x.magnitude)
  have most := (@units_lastPlace .single x (by decide) nonzero).1
  have most' := (@units_lastPlace .single y (by decide) nonzero').1
  rw [place] at most'
  rw [← x.halfUnit_mul_two] at first second
  -- The middles between two units are whole numbers of half units too.
  have units : y.units (Format.single.lastPlace x.magnitude) =
      x.units (Format.single.lastPlace x.magnitude) := by
    generalize x.units _ = m at *
    generalize y.units _ = n at *
    simp only [Format.single] at most most'
    rcases Nat.lt_trichotomy m n with less | same | more
    · -- The middle after the lesser number would separate the two.
      exact absurd less (first.not_lt_of_sameSide x.halfUnit_pos second (side _ (by omega)))
    · exact same.symm
    · exact absurd more
        (second.not_lt_of_sameSide x.halfUnit_pos first (side _ (by omega)).symm)
  rw [round?_eq nonzero, round?_eq nonzero', place, units, sign]

/-- A number that is clear of all half units is rounded twice as it is rounded once. -/
theorem toSingle?_of_clear (clear : x.Clear) (normal : 2 ^ (-1022 : Int) ≤ x.magnitude)
    (small : x.magnitude < Format.double.limit) : x.toDouble.toSingle? = x.round? .single := by
  obtain ⟨y, rounded⟩ := @exists_round? .double x (by decide) small
  -- If nothing has been changed, the second rounding is the one rounding.
  by_cases same : y.magnitude = x.magnitude
  · exact toSingle?_of_magnitude_eq rounded same
  have positive : 0 < x.magnitude := lt_of_lt_of_le (by positivity) normal
  have error := round?_error (by decide) rounded normal
  -- Half units have few bits, so that none of them is changed, and the others are out of reach.
  have side : ∀ halves : Nat, halves ≤ 2 ^ 25 →
      SameSide x.magnitude y.toExact.magnitude (halves * x.halfUnit) := by
    intro halves bound
    rw [y.toExact_magnitude]
    rcases clear halves bound with equal | far
    · -- A number that is itself a half unit fits in 64 bits, and so would not have been changed.
      have finest : -149 ≤ Format.single.lastPlace x.magnitude :=
        Format.single.minExp_le_lastPlace x.magnitude
      refine absurd (round?_exact (by decide) ?_ ?_ equal rounded) same
      · exact lt_of_le_of_lt bound (by decide)
      · simp only [Format.double]
        omega
    · exact .of_near (lt_of_mul_lt_mul_right (error.trans_lt far) (by positivity))
  have nonzero : x.num ≠ 0 := fun zero => positive.ne' (x.magnitude_eq_zero.mpr zero)
  -- The rounded number is on one side of zero, with the first one.
  have nonzero' : y.toExact.num ≠ 0 := by
    intro zero
    have none := y.toExact.magnitude_eq_zero.mpr zero
    have first := side 0 (by decide)
    rw [none, Nat.cast_zero, zero_mul] at first
    rcases first with ⟨less, -⟩ | ⟨-, less⟩ <;> linarith
  simp only [toDouble, rounded, Double.toSingle?]
  exact round?_of_sameSide (round?_negative rounded) nonzero nonzero' side

end Exact

namespace Single

variable (x y : Single)

/-- The significand of a 32-bit number has 24 bits. -/
theorem mant_lt : x.mant < 2 ^ 24 :=
  -- These three facts come with the number.
  x.holds.1

/-- The exponents of 32-bit numbers. -/
theorem exp_bounds : -149 ≤ x.exp ∧ x.exp ≤ 104 :=
  ⟨x.holds.2.1, x.holds.2.2.1⟩

/-- A 32-bit number fills its significand unless its last place is the finest. -/
theorem le_mant (coarse : -149 < x.exp) : 2 ^ 23 ≤ x.mant := by
  rcases x.holds.2.2.2 with finest | full
  · exact absurd finest coarse.ne'
  · exact full

/-- A product has at most 48 bits, so that it is rounded once only. -/
theorem mul_toSingle? : (x.mul y).toDouble.toSingle? = (x.mul y).round? .single := by
  have first := x.exp_bounds
  -- The sum of the exponents stays within the range of the 64-bit format.
  have second := y.exp_bounds
  have short : x.mant * y.mant < 2 ^ 53 :=
    lt_of_lt_of_le (Nat.mul_lt_mul'' x.mant_lt y.mant_lt) (by decide)
  have magnitude : (x.mul y).magnitude = (x.mant * y.mant : Nat) * 2 ^ (x.exp + y.exp) := by
    simp [Exact.magnitude, Binary.mul]
  exact Exact.toSingle?_of_exact short (by omega) (by omega) magnitude

/-- Different whole numbers of units are at least a unit apart. -/
theorem le_abs_sub_of_ne {m n : Nat} {unit : ℚ} (positive : 0 < unit)
    (different : (m : ℚ) * unit ≠ n * unit) : unit ≤ |(m : ℚ) * unit - n * unit| := by
  have apart : (1 : Int) ≤ |(m : Int) - n| := by
    -- The numbers themselves differ, since the unit is the same.
    refine Int.one_le_abs (sub_ne_zero.mpr fun same => different ?_)
    rw [Int.natCast_inj.mp same]
  have apart' : (1 : ℚ) ≤ |(m : ℚ) - n| := by exact_mod_cast apart
  calc unit = 1 * unit := (one_mul unit).symm
    _ ≤ |(m : ℚ) - n| * unit := mul_le_mul_of_nonneg_right apart' positive.le
    _ = |(m : ℚ) * unit - n * unit| := by
        rw [← sub_mul, abs_mul, abs_of_pos positive]

variable {x y} in
/-- A quotient is clear of all half units: multiplied by the divisor, both are whole numbers of a
unit that is not small against them. -/
theorem div_clear (divisor : 0 < y.mant) (nonzero : 0 < x.mant) : (x.div y divisor).Clear := by
  intro halves bound
  -- All is compared in units of the dividend or of the half unit, whichever is finer.
  have dividend : (0 : ℚ) < x.mant := by exact_mod_cast nonzero
  have positive : (0 : ℚ) < y.mant := by exact_mod_cast divisor
  have short : (x.mant : ℚ) < 2 ^ 24 := by exact_mod_cast x.mant_lt
  have short' : (y.mant : ℚ) < 2 ^ 24 := by exact_mod_cast y.mant_lt
  have magnitude : (x.div y divisor).magnitude = x.mant / y.mant * 2 ^ (x.exp - y.exp) := by
    simp [Exact.magnitude, Binary.div]
  have below : (x.div y divisor).magnitude < 2 ^ 25 * (x.div y divisor).halfUnit := by
    have size : 0 < (x.div y divisor).magnitude := by
      rw [magnitude]
      positivity
    calc (x.div y divisor).magnitude
        < 2 ^ 24 * 2 ^ Format.single.lastPlace (x.div y divisor).magnitude :=
          Format.single.lt_lastPlace (by decide) size
      _ = 2 ^ 25 * (x.div y divisor).halfUnit := by
          rw [← Exact.halfUnit_mul_two]
          ring
  rw [or_iff_not_imp_left]
  intro different
  rw [magnitude] at below different ⊢
  simp only [Exact.halfUnit] at below different ⊢
  generalize x.exp - y.exp = exp at *
  generalize Format.single.lastPlace (x.div y divisor).magnitude - 1 = place at *
  rcases le_total exp place with fine | coarse
  · -- The quotient is the dividend in units of its own.
    have unit : (0 : ℚ) < 2 ^ exp / y.mant := by positivity
    have quotient : (x.mant : ℚ) / y.mant * 2 ^ exp = x.mant * (2 ^ exp / y.mant) := by ring
    have multiple : (halves : ℚ) * 2 ^ place =
        (halves * y.mant * 2 ^ (place - exp).toNat : Nat) * (2 ^ exp / y.mant) := by
      rw [two_zpow_eq_mul fine]
      push_cast
      field_simp
    rw [quotient, multiple] at different ⊢
    -- The two are a unit apart, which is not little against the quotient.
    have apart := le_abs_sub_of_ne unit different
    nlinarith
  · -- The half unit over the divisor is at least a bit after the last one of the quotient.
    have unit : (0 : ℚ) < 2 ^ place / y.mant := by positivity
    have quotient : (x.mant : ℚ) / y.mant * 2 ^ exp =
        (x.mant * 2 ^ (exp - place).toNat : Nat) * (2 ^ place / y.mant) := by
      rw [two_zpow_eq_mul coarse]
      push_cast
      ring
    have multiple : (halves : ℚ) * 2 ^ place =
        (halves * y.mant : Nat) * (2 ^ place / y.mant) := by
      push_cast
      field_simp
    have large : (2 : ℚ) ^ place < 2 ^ 24 * (2 ^ place / y.mant) := by
      rw [← mul_div_assoc, lt_div_iff₀ positive, mul_comm]
      gcongr
    rw [quotient, multiple] at different
    rw [quotient] at below ⊢
    rw [multiple]
    have apart := le_abs_sub_of_ne unit different
    linarith

/-- A quotient is rounded twice as it is rounded once. -/
theorem div_toSingle? (divisor : 0 < y.mant) :
    (x.div y divisor).toDouble.toSingle? = (x.div y divisor).round? .single := by
  have first := x.exp_bounds
  have second := y.exp_bounds
  have magnitude : (x.div y divisor).magnitude = x.mant / y.mant * 2 ^ (x.exp - y.exp) := by
    simp [Exact.magnitude, Binary.div]
  -- A quotient of zero has no size that could be compared, and fits in any format.
  rcases Nat.eq_zero_or_pos x.mant with zero | nonzero
  · have none : (x.div y divisor).magnitude = (0 : Nat) * 2 ^ (0 : Int) := by
      rw [magnitude, zero]
      simp
    exact Exact.toSingle?_of_exact (by decide) (by decide) (by decide) none
  have one : (1 : ℚ) ≤ x.mant := by exact_mod_cast nonzero
  have one' : (1 : ℚ) ≤ y.mant := by exact_mod_cast divisor
  have short : (x.mant : ℚ) ≤ 2 ^ 24 := by exact_mod_cast x.mant_lt.le
  have short' : (y.mant : ℚ) ≤ 2 ^ 24 := by exact_mod_cast y.mant_lt.le
  -- What is left is to see that the quotient is in the range of normal 64-bit numbers.
  refine Exact.toSingle?_of_clear (div_clear divisor nonzero) ?_ ?_
  · calc (2 : ℚ) ^ (-1022 : Int) ≤ 2 ^ (-(24 : Int) + (x.exp - y.exp)) :=
          zpow_le_zpow_right₀ (by norm_num) (by omega)
      _ = 1 / 2 ^ 24 * 2 ^ (x.exp - y.exp) := by
          rw [zpow_add₀ (by norm_num)]
          norm_num
      _ ≤ x.mant / y.mant * 2 ^ (x.exp - y.exp) := by gcongr
      _ = (x.div y divisor).magnitude := magnitude.symm
  · calc (x.div y divisor).magnitude = x.mant / y.mant * 2 ^ (x.exp - y.exp) := magnitude
      _ ≤ 2 ^ 24 / 1 * 2 ^ (x.exp - y.exp) := by gcongr
      _ = 2 ^ ((24 : Int) + (x.exp - y.exp)) := by
          rw [zpow_add₀ (by norm_num)]
          norm_num
      _ < 2 ^ (1023 : Int) := zpow_lt_zpow_right₀ (by norm_num) (by omega)
      _ ≤ Format.double.limit := Format.le_limit_double

/-- The magnitude of a number that is not zero is far inside the 64-bit format. -/
theorem magnitude_bounds (positive : 0 < x.magnitude) :
    2 ^ (-149 : Int) ≤ x.magnitude ∧ x.magnitude < 2 ^ (128 : Int) := by
  obtain ⟨low, high⟩ := x.exp_bounds
  -- The significand has 24 bits, and is not zero.
  have short : (x.mant : ℚ) < 2 ^ 24 := by exact_mod_cast x.mant_lt
  have unit : (0 : ℚ) < 2 ^ x.exp := by positivity
  have one : (1 : ℚ) ≤ x.mant := by
    have nonzero : 0 < (x.mant : ℚ) := (mul_pos_iff_of_pos_right unit).mp positive
    exact_mod_cast nonzero
  constructor
  · calc (2 : ℚ) ^ (-149 : Int) ≤ 2 ^ x.exp := zpow_le_zpow_right₀ (by norm_num) low
      _ = 1 * 2 ^ x.exp := (one_mul _).symm
      _ ≤ x.magnitude := mul_le_mul_of_nonneg_right one unit.le
  · calc x.magnitude < 2 ^ 24 * 2 ^ x.exp := mul_lt_mul_of_pos_right short unit
      _ ≤ 2 ^ 24 * 2 ^ (104 : Int) := by
          gcongr
          norm_num
      _ = 2 ^ (128 : Int) := by norm_num

variable {x} in
/-- What is of the size of a number is inside the 64-bit format, and changed by little there. -/
theorem exists_round?_double {exact : Exact} (positive : 0 < x.magnitude)
    (above : x.magnitude / 2 ≤ exact.magnitude) (below : exact.magnitude ≤ 2 * x.magnitude) :
    ∃ z, exact.round? .double = some z ∧
      |z.magnitude - exact.magnitude| * 2 ^ 53 ≤ exact.magnitude := by
  obtain ⟨low, high⟩ := x.magnitude_bounds positive
  -- Twice the greatest 32-bit number is far below the limit.
  have small : exact.magnitude < Format.double.limit := by
    calc exact.magnitude ≤ 2 * x.magnitude := below
      _ ≤ 2 ^ (1 : Int) * 2 ^ (128 : Int) := by
          rw [zpow_one]
          gcongr
      _ = 2 ^ (129 : Int) := by rw [← zpow_add₀ (by norm_num)]; rfl
      _ < 2 ^ (1023 : Int) := zpow_lt_zpow_right₀ (by norm_num) (by norm_num)
      _ ≤ Format.double.limit := Format.le_limit_double
  -- Half of the least 32-bit number is far above the least normal 64-bit number.
  have normal : 2 ^ (-1022 : Int) ≤ exact.magnitude := by
    calc (2 : ℚ) ^ (-1022 : Int) ≤ 2 ^ (-150 : Int) :=
          zpow_le_zpow_right₀ (by norm_num) (by norm_num)
      _ = 2 ^ (-149 : Int) / 2 := by norm_num
      _ ≤ x.magnitude / 2 := by gcongr
      _ ≤ exact.magnitude := above
  obtain ⟨z, rounded⟩ := @Exact.exists_round? .double exact (by decide) small
  exact ⟨z, rounded, Exact.round?_error (by decide) rounded normal⟩

variable {x} in
/-- What is near to a number, as compared with its magnitude, is rounded to it through 64 bits. -/
theorem toSingle?_of_near {exact : Exact} (sign : exact.negative = x.negative)
    (near : |exact.magnitude - x.magnitude| * 2 ^ 26 < x.magnitude) :
    exact.toDouble.toSingle? = some x := by
  -- A number of no size has nothing near it in this sense.
  have positive : 0 < x.magnitude := lt_of_le_of_lt (by positivity) near
  have bounds := abs_le.mp (le_of_lt (lt_of_mul_lt_mul_right
    (by linarith : |exact.magnitude - x.magnitude| * 2 ^ 26 < x.magnitude / 2 ^ 26 * 2 ^ 26)
    (by positivity)))
  obtain ⟨z, rounded, error⟩ :=
    @exists_round?_double x exact positive (by linarith) (by linarith)
  simp only [Exact.toDouble, rounded, Double.toSingle?]
  -- The first rounding adds a distance that is still smaller.
  refine x.round?_of_near (by decide) ((Exact.round?_negative rounded).trans sign) ?_
  rw [z.toExact_magnitude]
  have sides := abs_sub_le z.magnitude exact.magnitude x.magnitude
  show |z.magnitude - x.magnitude| * 2 ^ 25 < x.magnitude
  linarith

/-- In units of a place a number has as many of them as its significand, moved by the places. -/
theorem natAbs_aligned (exp : Int) :
    (x.aligned exp).natAbs = x.mant * 2 ^ (x.exp - exp).toNat := by
  -- Only the sign is lost when the absolute value is taken.
  rw [Binary.aligned, Int.natAbs_mul, Int.natAbs_natCast, Binary.signed]
  split <;> simp [scale]

/-- A sum does not depend on the order of its terms. -/
theorem sum_comm : x.add y = y.add x := by
  -- Integers may be added in any order.
  simp only [Binary.add, min_comm x.exp, Int.add_comm, Bool.and_comm]

/-- The magnitude of a sum. -/
theorem add_magnitude : (x.add y).magnitude = |x.value + y.value| := by
  -- The unit is positive, so that the absolute value can be taken before it.
  rw [← Binary.aligned_add_mul, abs_mul,
    abs_of_pos (by positivity : (0 : ℚ) < 2 ^ min x.exp y.exp)]
  simp only [Exact.magnitude, Binary.add, Nat.cast_one, div_one, Nat.cast_natAbs, Int.cast_abs]

/-- A sum that is not zero has the sign of its value. -/
theorem add_negative (nonzero : x.value + y.value ≠ 0) :
    (x.add y).negative = decide (x.value + y.value < 0) := by
  have unit : (0 : ℚ) < 2 ^ min x.exp y.exp := by positivity
  rw [← Binary.aligned_add_mul] at nonzero ⊢
  have nonzero' := left_ne_zero_of_mul nonzero
  simp only [Binary.add]
  rw [if_neg (by exact_mod_cast nonzero'), decide_eq_decide]
  -- The unit of the finer place is positive.
  refine ⟨fun less => mul_neg_of_neg_of_pos (by exact_mod_cast less) unit, fun less => ?_⟩
  have sum := neg_of_mul_neg_left less unit.le
  exact_mod_cast sum

variable {x y} in
/-- Terms whose places are near have a sum that fits in 64 bits. -/
theorem add_toSingle?_of_close (le : y.exp ≤ x.exp) (close : x.exp ≤ y.exp + 28) :
    (x.add y).toDouble.toSingle? = (x.add y).round? .single := by
  obtain ⟨low, -⟩ := y.exp_bounds
  obtain ⟨-, high⟩ := x.exp_bounds
  have place : min x.exp y.exp = y.exp := min_eq_right le
  -- The terms are at most 28 places apart, so that the sum has 53 bits at most.
  have short : (x.add y).num < 2 ^ 53 := by
    have moved : x.mant * 2 ^ (x.exp - y.exp).toNat ≤ 2 ^ 24 * 2 ^ 28 :=
      Nat.mul_le_mul x.mant_lt.le (Nat.pow_le_pow_right (by decide) (by omega))
    have sides := Int.natAbs_add_le (x.aligned y.exp) (y.aligned y.exp)
    have short := y.mant_lt
    rw [natAbs_aligned, natAbs_aligned, Int.sub_self, Int.toNat_zero, Nat.pow_zero,
      Nat.mul_one] at sides
    simp only [Binary.add, place]
    omega
  have magnitude : (x.add y).magnitude = (x.add y).num * 2 ^ y.exp := by
    simp [Exact.magnitude, Binary.add, place]
  exact Exact.toSingle?_of_exact short (by omega) (by omega) magnitude

variable {x y} in
/-- A term whose place is far above that of the other one is not changed by it. -/
theorem add_toSingle?_of_far (far : y.exp + 28 < x.exp) :
    (x.add y).toDouble.toSingle? = (x.add y).round? .single := by
  obtain ⟨low, -⟩ := y.exp_bounds
  have full : (2 : ℚ) ^ 23 ≤ x.mant := by exact_mod_cast x.le_mant (by omega)
  have short : (y.mant : ℚ) < 2 ^ 24 := by exact_mod_cast y.mant_lt
  -- The larger term fills its significand, as its place is not the finest.
  have dominated : y.magnitude * 2 ^ 26 < x.magnitude := by
    calc y.magnitude * 2 ^ 26 < 2 ^ 24 * 2 ^ y.exp * 2 ^ 26 := by
          unfold Binary.magnitude
          gcongr
      _ = 2 ^ 21 * (2 ^ (29 : Int) * 2 ^ y.exp) := by norm_num; ring
      _ = 2 ^ 21 * 2 ^ (29 + y.exp) := by rw [zpow_add₀ (by norm_num)]
      _ ≤ 2 ^ 23 * 2 ^ x.exp := by
          have power : (2 : ℚ) ^ (29 + y.exp) ≤ 2 ^ x.exp :=
            zpow_le_zpow_right₀ (by norm_num) (by omega)
          linarith [(by positivity : (0 : ℚ) < 2 ^ x.exp)]
      _ ≤ x.magnitude := mul_le_mul_of_nonneg_right full (by positivity)
  have near : |(x.add y).magnitude - x.magnitude| ≤ y.magnitude := by
    have sides := abs_abs_sub_abs_le (x.value + y.value) x.value
    rwa [add_sub_cancel_left, y.abs_value, x.abs_value, ← add_magnitude] at sides
  have nonneg := y.magnitude_nonneg
  -- The smaller term is not large enough to change the sign.
  have sign : (x.add y).negative = x.negative := by
    have bounds := abs_le.mp y.abs_value.le
    have value := x.value_eq
    cases minus : x.negative with
    | true =>
      have below : x.value + y.value < 0 := by
        rw [minus, if_pos rfl] at value
        linarith
      rw [add_negative x y below.ne, decide_eq_true below]
    | false =>
      have above : 0 < x.value + y.value := by
        rw [minus, if_neg Bool.false_ne_true] at value
        linarith
      rw [add_negative x y above.ne', decide_eq_false above.not_gt]
  -- Both sides are the larger term, which the sum is near to.
  rw [toSingle?_of_near sign (by linarith)]
  refine (x.round?_of_near (by decide) sign ?_).symm
  show _ * 2 ^ 25 < x.magnitude
  linarith

/-- A sum is rounded twice as it is rounded once. -/
theorem add_toSingle? : (x.add y).toDouble.toSingle? = (x.add y).round? .single := by
  -- The one with the coarser place comes first.
  rcases le_total y.exp x.exp with le | le
  · by_cases close : x.exp ≤ y.exp + 28
    · exact add_toSingle?_of_close le close
    · exact add_toSingle?_of_far (not_le.mp close)
  · rw [x.sum_comm]
    by_cases close : y.exp ≤ x.exp + 28
    · exact add_toSingle?_of_close le close
    · exact add_toSingle?_of_far (not_le.mp close)

end Single

end Pseudocode
