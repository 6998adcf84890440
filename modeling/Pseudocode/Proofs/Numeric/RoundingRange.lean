import Pseudocode.Proofs.Numeric.DoubleRounding

/-! Which magnitudes are rounded to a given number: those between two that are, and those within
half of a unit of its last place, or below a power of two within a quarter. -/

namespace Pseudocode

namespace Binary

variable {format : Format}

/-- A number that is not zero is rounded to itself. -/
theorem round?_self (wide : 0 < format.precision) (x : Binary format) (nonzero : x.mant ≠ 0) :
    x.toExact.round? format = some x := by
  -- There is no distance from the number to itself.
  refine x.round?_of_near wide rfl ?_
  rw [x.toExact_magnitude, sub_self, abs_zero, zero_mul]
  exact x.magnitude_pos nonzero

/-- A number that is not zero is given by its sign and its magnitude. -/
theorem eq_of_magnitude (wide : 0 < format.precision) {x y : Binary format} (nonzero : x.mant ≠ 0)
    (sign : y.negative = x.negative) (same : y.magnitude = x.magnitude) : y = x := by
  -- A number of the same magnitude is not zero either.
  have nonzero' : y.mant ≠ 0 := by
    rwa [Ne, ← y.magnitude_eq_zero_iff, same, x.magnitude_eq_zero_iff]
  -- Both are rounded to themselves, and what is rounded depends on the sign and the magnitude only.
  have rounded := y.round?_self wide nonzero'
  rw [Exact.round?_congr (x := x.toExact) sign (by simpa only [toExact_magnitude] using same),
    x.round?_self wide nonzero] at rounded
  exact (Option.some.inj rounded).symm

/-- How far what is rounded to a number reaches below it: half of a unit of its last place, but only
a quarter at a power of two, below which the places are finer. -/
def reachBelow (x : Binary format) : ℚ :=
  if format.minExp < x.exp ∧ x.mant = 2 ^ (format.precision - 1) then 2 ^ x.exp / 4
  else 2 ^ x.exp / 2

/-- No number reaches farther down than up. -/
theorem reachBelow_bounds (x : Binary format) :
    2 ^ x.exp / 4 ≤ x.reachBelow ∧ x.reachBelow ≤ 2 ^ x.exp / 2 := by
  have unit : (0 : ℚ) < 2 ^ x.exp := by positivity
  -- A quarter of a unit is less than a half.
  unfold reachBelow
  split <;> constructor <;> linarith

/-- What is less than half of a unit away from a number is rounded to it if it is not in the finer
places below. -/
theorem round?_of_half (wide : 0 < format.precision) (x : Binary format) {y : Exact}
    (nonzero : x.mant ≠ 0) (sign : y.negative = x.negative)
    (half : |y.magnitude - x.magnitude| < 2 ^ x.exp / 2)
    (inside : x.exp = format.minExp ∨ 2 ^ (format.precision - 1) * 2 ^ x.exp ≤ y.magnitude) :
    y.round? format = some x := by
  have unit : (0 : ℚ) < 2 ^ x.exp := by positivity
  have one : (1 : ℚ) ≤ x.mant := by exact_mod_cast Nat.pos_of_ne_zero nonzero
  have short : (x.mant : ℚ) + 1 ≤ 2 ^ format.precision := by exact_mod_cast x.holds.1
  -- Half of a unit does not lead to zero or out of the significand, so that the place is the same.
  have bounds := abs_lt.mp half
  have size : x.magnitude = x.mant * 2 ^ x.exp := rfl
  have positive : 0 < y.magnitude := by nlinarith
  have below : y.magnitude < 2 ^ format.precision * 2 ^ x.exp := by nlinarith
  have place := format.lastPlace_eq wide positive x.holds.2.1 below inside
  have nonzero' : y.num ≠ 0 := fun zero => positive.ne' (y.magnitude_eq_zero.mpr zero)
  have fits : x.mant ≠ 2 ^ format.precision := x.holds.1.ne
  rw [Exact.round?_eq nonzero', place, x.units_of_half half, if_neg fits]
  simp only [ofParts?, dif_pos x.holds, sign]

/-- What is within the reach of a number is rounded to it. -/
theorem round?_of_within (wide : 0 < format.precision) (x : Binary format) {y : Exact}
    (nonzero : x.mant ≠ 0) (sign : y.negative = x.negative)
    (above : x.magnitude - x.reachBelow < y.magnitude)
    (below : y.magnitude < x.magnitude + 2 ^ x.exp / 2) : y.round? format = some x := by
  have size : x.magnitude = x.mant * 2 ^ x.exp := rfl
  have unit : (0 : ℚ) < 2 ^ x.exp := by positivity
  unfold reachBelow at above
  split at above
  · -- At a power of two it matters on which side the magnitude lies.
    rename_i power
    rw [power.2] at size
    push_cast at size
    rcases le_or_gt x.magnitude y.magnitude with up | down
    · refine x.round?_of_half wide nonzero sign ?_ (.inr (size ▸ up))
      exact abs_lt.mpr ⟨by linarith, by linarith⟩
    · -- A quarter of a unit is less than what the precision leaves of a power of two.
      refine x.round?_of_near wide sign ?_
      have factor : (2 : ℚ) ^ (format.precision + 1) = 2 ^ (format.precision - 1) * 4 := by
        rw [show format.precision + 1 = format.precision - 1 + 2 by omega, pow_add]
        norm_num
      have positive : (0 : ℚ) < 2 ^ (format.precision - 1) := by positivity
      rw [abs_of_neg (by linarith), factor]
      nlinarith
  · -- Everywhere else the reach is half of a unit on both sides.
    rename_i flat
    refine x.round?_of_half wide nonzero sign (abs_lt.mpr ⟨by linarith, by linarith⟩) ?_
    by_cases finest : x.exp = format.minExp
    · exact .inl finest
    · -- A significand that is full, but no power of two, has a unit to spare.
      right
      have full := x.holds.2.2.2.resolve_left finest
      have allowed := x.holds.2.1
      have different : x.mant ≠ 2 ^ (format.precision - 1) := fun same => flat ⟨by omega, same⟩
      have more : (2 : ℚ) ^ (format.precision - 1) + 1 ≤ x.mant := by
        exact_mod_cast lt_of_le_of_ne full different.symm
      nlinarith

end Binary

namespace Exact

variable {format : Format} {x : Binary format} {y : Exact}

/-- The last place of a magnitude is not coarser than that of the number it is rounded to. -/
theorem lastPlace_le_exp (nonzero : y.num ≠ 0) (rounded : y.round? format = some x) :
    format.lastPlace y.magnitude ≤ x.exp := by
  rw [round?_eq nonzero] at rounded
  split at rounded
  · obtain ⟨-, -, exp⟩ := Binary.ofParts?_eq_some rounded
    omega
  · obtain ⟨-, -, exp⟩ := Binary.ofParts?_eq_some rounded
    omega

/-- What is rounded to a number is within its reach. -/
theorem within_of_round? (wide : 1 < format.precision) (nonzero : y.num ≠ 0)
    (rounded : y.round? format = some x) :
    x.magnitude - x.reachBelow ≤ y.magnitude ∧ y.magnitude ≤ x.magnitude + 2 ^ x.exp / 2 := by
  -- The distance is counted in the last place of what is rounded.
  have distance := abs_le.mp (round?_distance wide rounded)
  have place := lastPlace_le_exp nonzero rounded
  have units : (2 : ℚ) ^ format.lastPlace y.magnitude ≤ 2 ^ x.exp :=
    zpow_le_zpow_right₀ (by norm_num) place
  refine ⟨?_, by linarith⟩
  unfold Binary.reachBelow
  split
  · rename_i power
    rcases le_or_gt x.magnitude y.magnitude with up | down
    · have unit : (0 : ℚ) < 2 ^ x.exp := by positivity
      linarith
    · -- Below the power of two the last place is finer.
      have leading : Int.log 2 y.magnitude < (format.precision - 1 : Nat) + x.exp := by
        rw [← Int.lt_zpow_iff_log_lt (by decide) (magnitude_pos nonzero), Nat.cast_ofNat,
          zpow_add₀ (by norm_num), zpow_natCast]
        rw [Binary.magnitude, power.2] at down
        exact_mod_cast down
      have finer : format.lastPlace y.magnitude ≤ x.exp - 1 := by
        unfold Format.lastPlace
        omega
      have units' : (2 : ℚ) ^ format.lastPlace y.magnitude ≤ 2 ^ x.exp / 2 := by
        rw [div_eq_mul_inv, ← zpow_sub_one₀ (by norm_num)]
        exact zpow_le_zpow_right₀ (by norm_num) finer
      linarith
  · linarith

variable {low high : Exact} {z w : Binary format}

/-- What lies between two magnitudes that can be rounded is rounded to a number between theirs. -/
theorem round?_between (wide : 1 < format.precision) (first : low.round? format = some z)
    (second : high.round? format = some w) (above : low.magnitude ≤ y.magnitude)
    (below : y.magnitude ≤ high.magnitude) :
    ∃ v, y.round? format = some v ∧ z.magnitude ≤ v.magnitude ∧ v.magnitude ≤ w.magnitude := by
  have finite : high.magnitude < format.limit := by
    rw [← not_le, ← round?_eq_none_iff wide, second]
    exact Option.some_ne_none w
  obtain ⟨v, rounded⟩ := exists_round? wide (below.trans_lt finite)
  exact ⟨v, rounded, round?_mono wide first rounded above, round?_mono wide rounded second below⟩

/-- What is read as a 32-bit number is rounded to 64 bits first. -/
theorem toSingle?_eq_some {x : Single} (reads : y.toDouble.toSingle? = some x) :
    ∃ z, y.round? .double = some z ∧ z.toExact.round? .single = some x := by
  cases rounded : y.round? .double with
  -- What has no 64-bit number has no 32-bit number.
  | none =>
    simp only [toDouble, rounded, Double.toSingle?] at reads
    cases reads
  | some z =>
    simp only [toDouble, rounded, Double.toSingle?] at reads
    exact ⟨z, rfl, reads⟩

/-- What lies between two magnitudes that are read as a number is read as it too. -/
theorem toSingle?_of_between {x : Single} (nonzero : x.mant ≠ 0) (sign : y.negative = x.negative)
    (first : low.toDouble.toSingle? = some x) (second : high.toDouble.toSingle? = some x)
    (above : low.magnitude ≤ y.magnitude) (below : y.magnitude ≤ high.magnitude) :
    y.toDouble.toSingle? = some x := by
  -- Both steps of rounding keep the order.
  obtain ⟨z, double, single⟩ := toSingle?_eq_some first
  obtain ⟨w, double', single'⟩ := toSingle?_eq_some second
  obtain ⟨v, rounded, above, below⟩ := round?_between (by decide) double double' above below
  rw [← z.toExact_magnitude, ← v.toExact_magnitude] at above
  rw [← v.toExact_magnitude, ← w.toExact_magnitude] at below
  obtain ⟨result, rounded', least, most⟩ := round?_between (by decide) single single' above below
  -- What is between is rounded to something between, and both ends are the number.
  have same : result = x := by
    refine Binary.eq_of_magnitude (by decide) nonzero ?_ (le_antisymm most least)
    exact (round?_negative rounded').trans ((round?_negative rounded).trans sign)
  simp only [toDouble, rounded, Double.toSingle?]
  rw [rounded', same]

end Exact

namespace Single

variable {x : Single} {y : Exact}

/-- What rounding to 64 bits can change near a number is far less than a unit of its last place. -/
theorem exists_round?_double_unit (nonzero : x.mant ≠ 0) (above : x.magnitude / 2 ≤ y.magnitude)
    (below : y.magnitude ≤ 2 * x.magnitude) :
    ∃ z, y.round? .double = some z ∧ |z.magnitude - y.magnitude| ≤ 2 ^ x.exp / 2 ^ 10 := by
  have positive := x.magnitude_pos nonzero
  -- Twenty-four bits make far more units than the fractions that are lost.
  have size : x.magnitude < 2 ^ 24 * 2 ^ x.exp :=
    mul_lt_mul_of_pos_right (by exact_mod_cast x.mant_lt) (by positivity)
  obtain ⟨z, rounded, error⟩ := exists_round?_double positive above below
  exact ⟨z, rounded, by linarith⟩

/-- What is read as a number is within its reach, up to what rounding to 64 bits can change. -/
theorem within_of_toSingle? (nonzero : x.mant ≠ 0) (above : x.magnitude / 2 ≤ y.magnitude)
    (below : y.magnitude ≤ 2 * x.magnitude) (reads : y.toDouble.toSingle? = some x) :
    x.magnitude - x.reachBelow - 2 ^ x.exp / 2 ^ 10 ≤ y.magnitude ∧
      y.magnitude ≤ x.magnitude + 2 ^ x.exp / 2 + 2 ^ x.exp / 2 ^ 10 := by
  -- What is rounded to 32 bits is not far from what was given.
  obtain ⟨z, rounded, error⟩ := exists_round?_double_unit nonzero above below
  obtain ⟨z', rounded', single⟩ := Exact.toSingle?_eq_some reads
  cases rounded.symm.trans rounded'
  -- Zero is rounded to zero.
  have nonzero' : z.toExact.num ≠ 0 := by
    intro zero
    have none := Exact.round?_magnitude_of_zero (z.toExact.magnitude_eq_zero.mpr zero) single
    exact nonzero (x.magnitude_eq_zero_iff.mp none)
  obtain ⟨least, most⟩ := Exact.within_of_round? (by decide) nonzero' single
  rw [z.toExact_magnitude] at least most
  -- The two errors are added up.
  have sides := abs_le.mp error
  constructor <;> linarith

/-- What is within the reach of a number, by more than rounding to 64 bits can change, is read as
it. -/
theorem toSingle?_of_within (nonzero : x.mant ≠ 0) (sign : y.negative = x.negative)
    (above : x.magnitude / 2 ≤ y.magnitude) (below : y.magnitude ≤ 2 * x.magnitude)
    (least : x.magnitude - x.reachBelow + 2 ^ x.exp / 2 ^ 10 < y.magnitude)
    (most : y.magnitude < x.magnitude + 2 ^ x.exp / 2 - 2 ^ x.exp / 2 ^ 10) :
    y.toDouble.toSingle? = some x := by
  obtain ⟨z, rounded, error⟩ := exists_round?_double_unit nonzero above below
  -- What has been rounded once is still within the reach.
  have sides := abs_le.mp error
  simp only [Exact.toDouble, rounded, Double.toSingle?]
  refine x.round?_of_within (by decide) nonzero ((Exact.round?_negative rounded).trans sign) ?_ ?_
  · rw [z.toExact_magnitude]
    linarith
  · rw [z.toExact_magnitude]
    linarith

end Single

end Pseudocode
