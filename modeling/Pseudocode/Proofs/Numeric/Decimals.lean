import Pseudocode.Numeric.Shortest
import Pseudocode.Proofs.Numeric.Nearest

/-! The decimals near a number: seventeen digits tell every 64-bit number from all others, and so do
the fewer digits that it is written with. -/

namespace Pseudocode

/-- A number that is not zero is between the powers of ten that its digits count. -/
theorem decimalDigits_bounds {n : Nat} (nonzero : n ≠ 0) :
    ∃ places, (decimalDigits n).length = places + 1 ∧ 10 ^ places ≤ n ∧ n < 10 ^ (places + 1) := by
  have some : 0 < (Nat.toDigits 10 n).length := Nat.length_toDigits_pos
  obtain ⟨places, counted⟩ : ∃ places, (Nat.toDigits 10 n).length = places + 1 :=
    ⟨(Nat.toDigits 10 n).length - 1, by omega⟩
  have high := (Nat.length_toDigits_le_iff (by decide) (Nat.succ_pos places)).mp counted.le
  refine ⟨places, counted, ?_, high⟩
  -- With a power of ten above it, the number would have a digit less.
  cases places with
  | zero => omega
  | succ places =>
    have low := mt (Nat.length_toDigits_le_iff (by decide : 1 < 10) (Nat.succ_pos places)).mpr
      (by omega : ¬ (Nat.toDigits 10 n).length ≤ places + 1)
    omega

namespace Decimal

/-- The magnitude of a decimal number. -/
def magnitude (d : Decimal) : ℚ :=
  d.digits * 10 ^ d.exp

/-- The exact number has the magnitude of the decimal one. -/
theorem toExact_magnitude (d : Decimal) : d.toExact.magnitude = d.magnitude := by
  have factors := scale_div_scale (by decide : 0 < 10) d.exp
  simp only [Exact.magnitude, toExact, magnitude, zpow_zero, mul_one]
  push_cast at factors ⊢
  rw [mul_div_assoc, factors]

/-- A decimal number that is not zero is between the powers of ten that its digits and its exponent
count. -/
theorem magnitude_bounds {d : Decimal} (nonzero : d.digits ≠ 0) :
    10 ^ (d.exp + (decimalDigits d.digits).length - 1) ≤ d.magnitude ∧
      d.magnitude < 10 ^ (d.exp + (decimalDigits d.digits).length) := by
  obtain ⟨places, counted, low, high⟩ := decimalDigits_bounds nonzero
  have power : (0 : ℚ) < 10 ^ d.exp := by positivity
  have before : d.exp + (places + 1 : Nat) - 1 = places + d.exp := by push_cast; ring
  have after : d.exp + (places + 1 : Nat) = (places + 1 : Nat) + d.exp := by ring
  -- The exponent moves the bounds of the digits.
  rw [counted, before, after, zpow_add₀ (by norm_num), zpow_add₀ (by norm_num)]
  constructor
  · exact mul_le_mul_of_nonneg_right (by exact_mod_cast low) power.le
  · exact mul_lt_mul_of_pos_right (by exact_mod_cast high) power

/-- Far below the format there is only zero. -/
theorem round?_of_tiny {d : Decimal} (nonzero : d.digits ≠ 0) {top : Int}
    (below : d.magnitude < 10 ^ top) (tiny : top < Format.double.minExp) :
    d.toExact.round? .double = some (.zero .double d.negative) := by
  refine Exact.round?_of_small (Nat.mul_ne_zero nonzero (scale_pos (by decide) _).ne') ?_
  rw [toExact_magnitude]
  have least : top ≤ -1075 := by
    simp only [Format.double] at tiny
    omega
  -- A power of ten below one is less than the same power of two.
  calc d.magnitude < 10 ^ top := below
    _ ≤ 10 ^ (-1075 : Int) := zpow_le_zpow_right₀ (by norm_num) least
    _ ≤ 2 ^ (-1075 : Int) := by
      rw [zpow_neg, zpow_neg]
      have powers : (2 : ℚ) ^ 1075 ≤ 10 ^ 1075 := pow_le_pow_left₀ (by norm_num) (by norm_num) _
      exact inv_anti₀ (by positivity) (by exact_mod_cast powers)

/-- Far above the format everything is too large. -/
theorem round?_of_huge {d : Decimal} {top : Int} (above : 10 ^ (top - 1) ≤ d.magnitude)
    (huge : Format.double.maxExp + Format.double.precision < top) :
    d.toExact.round? .double = none := by
  refine Exact.round?_of_large (by decide) ?_
  rw [toExact_magnitude]
  have most : 1024 ≤ top - 1 := by
    simp only [Format.double] at huge
    omega
  have powers : (2 : ℚ) ^ 1024 ≤ 10 ^ 1024 := pow_le_pow_left₀ (by norm_num) (by norm_num) _
  -- A power of ten above one is more than the same power of two.
  calc (2 : ℚ) ^ (1024 : Int) ≤ 10 ^ (1024 : Int) := by exact_mod_cast powers
    _ ≤ 10 ^ (top - 1) := zpow_le_zpow_right₀ (by norm_num) most
    _ ≤ d.magnitude := above

/-- The shortcuts for magnitudes far outside the format give what rounding gives. -/
theorem toDouble_eq (d : Decimal) : d.toDouble = d.toExact.toDouble := by
  unfold toDouble
  by_cases zero : d.digits = 0
  · simp [zero, Exact.toDouble, Exact.round?, toExact]
  · -- Each shortcut looks at a power of ten next to the magnitude.
    obtain ⟨least, most⟩ := magnitude_bounds zero
    simp only [zero, false_or]
    split
    · rename_i tiny
      rw [Exact.toDouble, round?_of_tiny zero most tiny]
    · split
      · rename_i huge
        rw [Exact.toDouble, round?_of_huge least huge]
        rfl
      · rfl

/-- The nearest 64-bit number depends only on the sign and the magnitude. -/
theorem toDouble_congr {d e : Decimal} (sign : e.negative = d.negative)
    (same : e.magnitude = d.magnitude) : e.toDouble = d.toDouble := by
  rw [toDouble_eq, toDouble_eq]
  exact Exact.toDouble_congr sign (by rw [toExact_magnitude, toExact_magnitude, same])

end Decimal

namespace Exact

variable {x : Exact}

/-- The ratio of a magnitude to a power of ten. -/
theorem decimalRatio_eq (x : Exact) (exp : Int) :
    ((x.decimalRatio exp).1 : ℚ) / (x.decimalRatio exp).2 = x.magnitude / 10 ^ exp := by
  have ratio := x.ratio_eq 0
  have factors := scale_div_scale (by decide : 0 < 10) (-exp)
  simp only [sub_zero, zero_sub, zpow_zero, div_one, neg_neg] at ratio factors
  simp only [decimalRatio]
  -- The ratio has a factor for each base, above or below the line.
  rw [Nat.cast_mul, Nat.cast_mul (m := x.den * scale 2 (-x.exp)), mul_div_mul_comm, ratio, factors]
  rw [Nat.cast_ofNat, zpow_neg]
  rfl

/-- The logarithm that decimals start with is that of the magnitude. -/
theorem log10_eq (nonzero : x.num ≠ 0) : x.log10 = Int.log 10 x.magnitude := by
  have num : x.num * scale 2 x.exp ≠ 0 := Nat.mul_ne_zero nonzero (scale_pos (by decide) _).ne'
  have den : x.den * scale 2 (-x.exp) ≠ 0 :=
    Nat.mul_ne_zero x.den_pos.ne' (scale_pos (by decide) _).ne'
  obtain ⟨above, numCounted, numLow, numHigh⟩ := decimalDigits_bounds num
  obtain ⟨below, denCounted, denLow, denHigh⟩ := decimalDigits_bounds den
  have ratio := x.ratio_eq 0
  simp only [sub_zero, zero_sub, zpow_zero, div_one] at ratio
  -- Both numbers have a digit more than their logarithms say.
  have guessed := log_of_guess (by decide) numLow numHigh denLow denHigh
    ((above + 1 : Nat) - (below + 1 : Nat)) (by push_cast; ring)
  rw [log10, numCounted, denCounted, guessed, ratio]

/-- The decimal of a number of digits has the whole number of units that is nearest. -/
theorem toDecimal_nearest (nonzero : x.num ≠ 0) (count : Nat) :
    ∃ whole, x.toDecimal count = ⟨x.negative, whole, x.log10 - (count - 1 : Nat)⟩ ∧
      Nearest (x.magnitude / 10 ^ (x.log10 - (count - 1 : Nat))) whole := by
  refine ⟨_, by rw [toDecimal, if_neg nonzero], ?_⟩
  rw [← decimalRatio_eq]
  exact roundDiv_nearest _
    (Nat.mul_pos (Nat.mul_pos x.den_pos (scale_pos (by decide) _)) (scale_pos (by decide) _))

/-- The decimal of a number of digits is at most half of its last place away. -/
theorem toDecimal_near (nonzero : x.num ≠ 0) (count : Nat) :
    |(x.toDecimal count).magnitude - x.magnitude| ≤ 10 ^ (x.log10 - (count - 1 : Nat)) / 2 := by
  obtain ⟨whole, decimal, nearest⟩ := toDecimal_nearest nonzero count
  rw [decimal, Decimal.magnitude]
  simp only at nearest ⊢
  generalize x.log10 - (count - 1 : Nat) = exp at nearest ⊢
  have power : (0 : ℚ) < 10 ^ exp := by positivity
  have near := nearest.near
  -- In units of the last place the distance is at most a half.
  have distance : (whole : ℚ) * 10 ^ exp - x.magnitude =
      -((x.magnitude / 10 ^ exp - whole) * 10 ^ exp) := by
    field_simp
    ring
  rw [distance, abs_neg, abs_mul, abs_of_pos power]
  nlinarith

/-- The decimal of a number has its sign. -/
theorem toDecimal_negative (x : Exact) (count : Nat) :
    (x.toDecimal count).negative = x.negative := by
  unfold toDecimal
  split <;> rfl

end Exact

namespace Binary

/-- Seventeen digits are enough for every 64-bit number. -/
theorem toDecimal_toDouble (x : Binary .double) (nonzero : x.mant ≠ 0) :
    (x.toExact.toDecimal 17).toDouble = .finite x := by
  have same := x.toExact_magnitude
  -- The first of the digits counts at most as much as the number itself.
  have low : (10 : ℚ) ^ x.toExact.log10 ≤ x.magnitude := by
    rw [Exact.log10_eq nonzero, same]
    exact_mod_cast Int.zpow_log_le_self (by decide : 1 < 10) (x.magnitude_pos nonzero)
  have near := Exact.toDecimal_near (x := x.toExact) nonzero 17
  have rounded : (x.toExact.toDecimal 17).toExact.round? .double = some x := by
    refine x.round?_of_near (by decide) (x.toExact.toDecimal_negative 17) ?_
    rw [Decimal.toExact_magnitude]
    rw [same] at near
    have place :
        (10 : ℚ) ^ (x.toExact.log10 - (17 - 1 : Nat)) = 10 ^ x.toExact.log10 / 10 ^ 16 := by
      rw [zpow_sub₀ (by norm_num)]
      norm_cast
    rw [place] at near
    have power : (0 : ℚ) < 10 ^ x.toExact.log10 := by positivity
    show _ * (2 : ℚ) ^ 54 < _
    linarith
  rw [Decimal.toDouble_eq, Exact.toDouble, rounded]

/-- A search for digits tries the decimals of one number of digits before it goes on. -/
theorem shortestFrom_succ (x : Binary .double) (count more : Nat) :
    x.shortestFrom count (more + 1) =
      match (x.toExact.neighbours count).find? (·.toDouble = .finite x) with
      | some found => some found
      | none => x.shortestFrom (count + 1) more := by
  rfl

/-- What a search for digits finds reads back as the number. -/
theorem shortestFrom_toDouble {x : Binary .double} {found : Decimal} (count more : Nat)
    (finds : x.shortestFrom count more = some found) : found.toDouble = .finite x := by
  induction more generalizing count with
  | zero => exact absurd finds (Option.some_ne_none found).symm
  | succ more ih =>
    rw [shortestFrom_succ] at finds
    generalize x.toExact.neighbours count = candidates at finds
    cases here : candidates.find? (·.toDouble = .finite x) with
    | some first =>
      -- The search ends with the first decimal that passes the test.
      rw [here] at finds
      cases finds
      simpa using List.find?_some here
    | none =>
      rw [here] at finds
      exact ih (count + 1) finds

/-- The decimal that a number is written with reads back as the number. -/
theorem shortest_toDouble (x : Binary .double) : x.shortest.toDouble = .finite x := by
  unfold shortest
  split
  · rename_i zero
    -- Zero has one form for each sign.
    obtain ⟨negative, mant, exp, holds⟩ := x
    have finest : exp = Format.double.minExp := by
      rcases holds.2.2.2 with finest | long
      · exact finest
      · simp only at zero
        subst zero
        exact absurd long (by decide)
    simp only at zero
    subst zero finest
    rfl
  · rename_i nonzero
    have enough := x.toDecimal_toDouble nonzero
    rcases found : x.shortestFrom 1 17 with _ | decimal
    · exact enough
    · exact shortestFrom_toDouble 1 17 found

end Binary

end Pseudocode
