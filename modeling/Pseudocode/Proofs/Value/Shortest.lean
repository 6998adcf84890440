import Pseudocode.Proofs.Numeric.PowersOfTen
import Pseudocode.Proofs.Value.Displayed

/-! How many digits a float is displayed with: no decimal with fewer digits reads back as it, except
at three powers of two and their opposites. -/

namespace Pseudocode

namespace Decimal

/-- The number of significant digits: zeros at the end do not count. -/
def significance (d : Decimal) : Nat :=
  (trimZeros (decimalDigits d.digits)).length

/-- A number times ten has one zero more. -/
theorem decimalDigits_mul_ten {n : Nat} (nonzero : n ≠ 0) :
    decimalDigits (n * 10) = decimalDigits n ++ ['0'] := by
  rw [decimalDigits, Nat.toDigits_of_base_le (by decide) (by omega),
    Nat.mul_div_cancel _ (by decide), Nat.mul_mod_left]
  rfl

/-- A power of ten has one significant digit. -/
theorem trimZeros_ten_pow (count : Nat) : trimZeros (decimalDigits (10 ^ count)) = ['1'] := by
  -- Each factor of ten adds a zero, which does not count.
  induction count with
  | zero => rfl
  | succ count ih =>
    rw [Nat.pow_succ, decimalDigits_mul_ten (by positivity), ← ih]
    simp [trimZeros]

/-- Digits that stand for no more than a power of ten are significant in no more places. -/
theorem significance_le {d : Decimal} {count : Nat} (some : 0 < count)
    (below : d.digits ≤ 10 ^ count) : d.significance ≤ count := by
  unfold significance
  rcases below.lt_or_eq with less | same
  · -- Without the power itself there are at most so many digits in all.
    exact (length_trimZeros_le _).trans
      ((Nat.length_toDigits_le_iff (by decide) some).mpr less)
  · -- The power itself has one digit before its zeros.
    rw [same, trimZeros_ten_pow]
    exact some

/-- Without the zeros at its end a number is below the power of ten that its significance counts. -/
theorem exists_mul_ten_pow (d : Decimal) :
    ∃ whole zeros, d.digits = whole * 10 ^ zeros ∧ whole < 10 ^ d.significance := by
  -- The digits that are left stand for the whole number, and each zero for a factor of ten.
  obtain ⟨zeros, split⟩ := trimZeros_append_zeros (decimalDigits d.digits)
  have value := ofDigitChars_decimalDigits d.digits
  have counted : (decimalDigits d.digits).length = d.significance + zeros := by
    conv_lhs => rw [split]
    rw [List.length_append, List.length_replicate, significance]
  rw [split, Nat.ofDigitChars_append, Nat.ofDigitChars_replicate_zero, Nat.mul_comm] at value
  refine ⟨_, zeros, value.symm, ?_⟩
  have some : 0 < (decimalDigits d.digits).length := Nat.length_toDigits_pos
  have below := (Nat.length_toDigits_le_iff (by decide) some).mp (le_refl _)
  rw [counted, Nat.pow_add] at below
  rw [← value] at below
  exact Nat.lt_of_mul_lt_mul_right below

/-- A decimal with few digits is not between the two neighbours that a magnitude has among the
decimals of so many digits. -/
theorem le_or_ge_of_significance (d : Decimal) {q : ℚ} (positive : 0 < q) {places : Nat}
    (few : d.significance ≤ places + 1) :
    d.magnitude ≤ ⌊q / 10 ^ (Int.log 10 q - places)⌋₊ * 10 ^ (Int.log 10 q - places) ∨
      (⌊q / 10 ^ (Int.log 10 q - places)⌋₊ + 1) * 10 ^ (Int.log 10 q - places) ≤ d.magnitude := by
  obtain ⟨whole, zeros, digits, short⟩ := d.exists_mul_ten_pow
  have size : d.magnitude = whole * 10 ^ (d.exp + zeros) := by
    -- Each zero at the end of the digits moves the number by a place.
    rw [magnitude, digits, zpow_add₀ (by norm_num), zpow_natCast]
    push_cast
    ring
  have low := Int.zpow_log_le_self (by decide : 1 < 10) positive
  push_cast at low
  have unit : (0 : ℚ) < 10 ^ (Int.log 10 q - places) := by positivity
  rcases le_or_gt (Int.log 10 q - places) (d.exp + zeros) with coarse | fine
  · -- The decimal is a whole number of the same units.
    obtain ⟨more, moved⟩ := Int.le.dest coarse
    have multiple : d.magnitude = (whole * 10 ^ more : Nat) * 10 ^ (Int.log 10 q - places) := by
      rw [size, ← moved, zpow_add₀ (by norm_num), zpow_natCast]
      push_cast
      ring
    rw [multiple]
    -- The magnitude lies between two neighbouring multiples, so that a third is one of them or
    -- beyond.
    rcases Nat.lt_or_ge ⌊q / 10 ^ (Int.log 10 q - places)⌋₊ (whole * 10 ^ more) with above | below
    · right
      exact mul_le_mul_of_nonneg_right (by exact_mod_cast above) unit.le
    · left
      exact mul_le_mul_of_nonneg_right (by exact_mod_cast below) unit.le
  · -- The decimal is below the power of ten that the magnitude begins with.
    left
    have leading : (10 : ℚ) ^ Int.log 10 q = 10 ^ places * 10 ^ (Int.log 10 q - places) := by
      rw [← zpow_natCast, ← zpow_add₀ (by norm_num)]
      congr 1
      ring
    -- The lower neighbour is not below that power.
    have full : 10 ^ places ≤ ⌊q / 10 ^ (Int.log 10 q - places)⌋₊ := by
      refine Nat.le_floor ?_
      rw [le_div_iff₀ unit]
      push_cast
      rwa [← leading]
    have short' : (whole : ℚ) ≤ 10 ^ (places + 1) := by
      exact_mod_cast short.le.trans (Nat.pow_le_pow_right (by decide) few)
    calc d.magnitude ≤ 10 ^ (places + 1) * 10 ^ (d.exp + zeros) := by
          rw [size]
          gcongr
      _ = 10 ^ (places + (d.exp + zeros + 1)) := by
          rw [← zpow_natCast, ← zpow_add₀ (by norm_num)]
          congr 1
          push_cast
          ring
      _ ≤ 10 ^ (places + (Int.log 10 q - places)) :=
          zpow_le_zpow_right₀ (by norm_num) (by omega)
      _ = 10 ^ places * 10 ^ (Int.log 10 q - places) := by
          rw [zpow_add₀ (by norm_num), zpow_natCast]
      _ ≤ _ := mul_le_mul_of_nonneg_right (by exact_mod_cast full) unit.le

end Decimal

/-- The decimal of a number of digits has no more significant ones. -/
theorem Exact.significance_toDecimal_le {x : Exact} (nonzero : x.num ≠ 0) (places : Nat) :
    (x.toDecimal (places + 1)).significance ≤ places + 1 := by
  -- The decimal is the nearest multiple of its last place.
  obtain ⟨nearby, decimal, nearest⟩ := toDecimal_nearest nonzero (places + 1)
  rw [decimal]
  refine Decimal.significance_le (Nat.succ_pos places) ?_
  rw [log10_eq nonzero, Nat.add_sub_cancel] at nearest
  -- The magnitude is below the power of ten that has a digit more.
  have high := Int.lt_zpow_succ_log_self (by decide : 1 < 10) x.magnitude
  have below : x.magnitude / 10 ^ (Int.log 10 x.magnitude - places) < 10 ^ (places + 1) := by
    have exponent : ((places + 1 : Nat) : Int) + (Int.log 10 x.magnitude - places) =
        Int.log 10 x.magnitude + 1 := by
      push_cast
      ring
    rw [div_lt_iff₀ (by positivity), ← zpow_natCast, ← zpow_add₀ (by norm_num), exponent]
    exact_mod_cast high
  -- Nearest means at most half of a unit above, so that the power of ten itself may be reached.
  have least := (abs_le.mp nearest.near).1
  have most : (nearby : ℚ) < 10 ^ (places + 1) + 1 := by linarith
  exact Nat.lt_succ_iff.mp (by exact_mod_cast most)

/-- The magnitudes whose nearest decimal of eight digits is below them and does not read back, while
the next one above does. -/
def Lopsided (q : ℚ) : Prop :=
  q = 2 ^ (-96 : Int) ∨ q = 2 ^ (87 : Int) ∨ q = 2 ^ (90 : Int)

namespace Single

variable {x : Single}

/-- A decimal of the size of a number that is read as it is within its reach, or almost. -/
theorem within_of_reads (nonzero : x.mant ≠ 0) {digits : Nat} {t : Int}
    (above : x.magnitude / 2 ≤ digits * 10 ^ t) (below : digits * 10 ^ t ≤ 2 * x.magnitude)
    (reads : (⟨x.negative, digits, t⟩ : Decimal).toDouble.toSingle? = some x) :
    x.magnitude - x.reachBelow - 2 ^ x.exp / 2 ^ 10 ≤ digits * 10 ^ t ∧
      digits * 10 ^ t ≤ x.magnitude + 2 ^ x.exp / 2 + 2 ^ x.exp / 2 ^ 10 := by
  -- The digits and the exponent stand for this magnitude.
  have size := Decimal.toExact_magnitude ⟨x.negative, digits, t⟩
  rw [Decimal.magnitude] at size
  rw [Decimal.toDouble_eq] at reads
  rw [← size] at above below ⊢
  exact within_of_toSingle? nonzero above below reads

/-- A decimal of the size of a number that is not read as it is out of its reach, or almost. -/
theorem out_of_not_reads (nonzero : x.mant ≠ 0) {digits : Nat} {t : Int}
    (above : x.magnitude / 2 ≤ digits * 10 ^ t) (below : digits * 10 ^ t ≤ 2 * x.magnitude)
    (fails : (⟨x.negative, digits, t⟩ : Decimal).toDouble.toSingle? ≠ some x) :
    digits * 10 ^ t ≤ x.magnitude - x.reachBelow + 2 ^ x.exp / 2 ^ 10 ∨
      x.magnitude + 2 ^ x.exp / 2 - 2 ^ x.exp / 2 ^ 10 ≤ digits * 10 ^ t := by
  have size := Decimal.toExact_magnitude ⟨x.negative, digits, t⟩
  rw [Decimal.magnitude] at size
  rw [Decimal.toDouble_eq] at fails
  rw [← size] at above below ⊢
  -- What is within the reach would have been read.
  by_contra within
  obtain ⟨least, most⟩ := not_or.mp within
  exact fails (toSingle?_of_within nonzero rfl above below (not_le.mp least) (not_le.mp most))

/-- The multiples of a power of ten around a number that it is not above: this one and the next. -/
structure Neighbours (x : Single) (t : Int) (whole : Nat) : Prop where
  /-- The lower one counts the whole multiples in the number. -/
  floor : whole = ⌊x.magnitude / 10 ^ t⌋₊
  /-- There is at least one. -/
  fine : 10 ^ t ≤ x.magnitude
  /-- The power of ten is not below the last place of nine digits. -/
  low : -53 ≤ t
  /-- The power of ten is not above the first place of the greatest number. -/
  high : t ≤ 38

/-- The decimals of few digits have neighbours of a number among them. -/
theorem exists_neighbours (positive : 0 < x.magnitude) {places : Nat} (few : places ≤ 8) :
    ∃ whole, x.Neighbours (Int.log 10 x.magnitude - places) whole := by
  -- The least number begins forty-five places after the point, the greatest thirty-eight before.
  obtain ⟨least, most⟩ := x.magnitude_bounds positive
  have low : -45 ≤ Int.log 10 x.magnitude := by
    refine (Int.zpow_le_iff_le_log (by decide) positive).mp (le_trans ?_ least)
    norm_num
  have high : Int.log 10 x.magnitude < 39 := by
    refine (Int.lt_zpow_iff_log_lt (by decide) positive).mp (most.trans ?_)
    norm_num
  have begins := Int.zpow_log_le_self (by decide : 1 < 10) positive
  push_cast at begins
  -- The place of the last digit is at most eight below the first one.
  exact ⟨_, rfl, (zpow_le_zpow_right₀ (by norm_num) (by omega)).trans begins, by omega, by omega⟩

namespace Neighbours

variable {t : Int} {whole : Nat} (around : x.Neighbours t whole)
include around

/-- A number with neighbours has a magnitude. -/
theorem positive : 0 < x.magnitude :=
  lt_of_lt_of_le (by positivity) around.fine

/-- A number with neighbours is not zero. -/
theorem nonzero : x.mant ≠ 0 :=
  fun zero => around.positive.ne' (x.magnitude_eq_zero_iff.mpr zero)

/-- The lower neighbour is not above the number. -/
theorem le : whole * 10 ^ t ≤ x.magnitude := by
  have unit : (0 : ℚ) < 10 ^ t := by positivity
  rw [around.floor]
  exact (le_div_iff₀ unit).mp (Nat.floor_le (div_nonneg around.positive.le unit.le))

/-- The upper neighbour is above the number. -/
theorem lt : x.magnitude < (whole + 1 : Nat) * 10 ^ t := by
  rw [around.floor, ← div_lt_iff₀ (by positivity)]
  -- The floor leaves less than one multiple over.
  push_cast
  exact Nat.lt_floor_add_one _

/-- The lower neighbour is at least half of the number. -/
theorem half_le : x.magnitude / 2 ≤ whole * 10 ^ t := by
  -- The number is less than one multiple more than there are, and there is at least one.
  have one : (1 : ℚ) ≤ whole := by
    rw [around.floor]
    exact_mod_cast Nat.le_floor (by
      rw [Nat.cast_one]
      exact (one_le_div (by positivity)).mpr around.fine)
  have least := mul_le_mul_of_nonneg_right one (by positivity : (0 : ℚ) ≤ 10 ^ t)
  have above := around.lt
  rw [Nat.cast_succ, add_one_mul] at above
  linarith

/-- The upper neighbour is at most twice the number. -/
theorem le_double : (whole + 1 : Nat) * 10 ^ t ≤ 2 * x.magnitude := by
  -- One multiple is not above the number.
  rw [Nat.cast_succ, add_one_mul]
  linarith [around.le, around.fine]

/-- If a decimal of few digits is read as the number, then so is one of the neighbours. -/
theorem reads_or {d : Decimal} (reads : d.toDouble.toSingle? = some x) {places : Nat}
    (few : d.significance ≤ places + 1) (last : t = Int.log 10 x.magnitude - places) :
    (⟨x.negative, whole, t⟩ : Decimal).toDouble.toSingle? = some x ∨
      (⟨x.negative, whole + 1, t⟩ : Decimal).toDouble.toSingle? = some x := by
  -- The number is read as itself, so that it may stand on either side.
  have self : x.toExact.toDouble.toSingle? = some x := x.toSingle?_toDouble
  have outside := d.le_or_ge_of_significance around.positive few
  rw [← last, ← around.floor] at outside
  have size := x.toExact_magnitude
  have size' := Decimal.toExact_magnitude ⟨x.negative, whole, t⟩
  have size'' := Decimal.toExact_magnitude ⟨x.negative, whole + 1, t⟩
  rw [Decimal.magnitude] at size' size''
  simp only [Decimal.toDouble_eq] at reads ⊢
  -- The neighbour on the side of the decimal lies between it and the number.
  rcases outside with below | above
  · left
    refine Exact.toSingle?_of_between around.nonzero rfl reads self ?_ ?_
    · rwa [size', d.toExact_magnitude]
    · rw [size', size]
      exact around.le
  · right
    refine Exact.toSingle?_of_between around.nonzero rfl self reads ?_ ?_
    · rw [size'', size]
      exact around.lt.le
    · rw [size'', d.toExact_magnitude]
      push_cast
      exact above

/-- When the lower neighbour is read as the number, it is within reach, or almost. -/
theorem le_of_lower (reads : (⟨x.negative, whole, t⟩ : Decimal).toDouble.toSingle? = some x) :
    x.magnitude - whole * 10 ^ t ≤ x.reachBelow + 2 ^ x.exp / 2 ^ 10 := by
  -- The lower neighbour is between half of the number and the number.
  have within := (within_of_reads around.nonzero around.half_le
    (by linarith [around.le, around.positive]) reads).1
  linarith

/-- When the lower neighbour is not read as the number, it is out of reach, or almost. -/
theorem ge_of_lower (fails : (⟨x.negative, whole, t⟩ : Decimal).toDouble.toSingle? ≠ some x) :
    x.reachBelow - 2 ^ x.exp / 2 ^ 10 ≤ x.magnitude - whole * 10 ^ t := by
  have le := around.le
  have unit : (0 : ℚ) < 2 ^ x.exp := by positivity
  -- Out of its reach is below the number, since the neighbour is not above it.
  rcases out_of_not_reads around.nonzero around.half_le
    (by linarith [around.positive]) fails with below | above <;> linarith

/-- When the upper neighbour is read as the number, it is within reach, or almost. -/
theorem le_of_upper (reads : (⟨x.negative, whole + 1, t⟩ : Decimal).toDouble.toSingle? = some x) :
    (whole + 1 : Nat) * 10 ^ t - x.magnitude ≤ 2 ^ x.exp / 2 + 2 ^ x.exp / 2 ^ 10 := by
  -- The upper neighbour is between the number and twice of it.
  have within := (within_of_reads around.nonzero
    (by linarith [around.lt, around.positive]) around.le_double reads).2
  linarith

/-- When the upper neighbour is not read as the number, it is out of reach, or almost. -/
theorem ge_of_upper (fails : (⟨x.negative, whole + 1, t⟩ : Decimal).toDouble.toSingle? ≠ some x) :
    2 ^ x.exp / 2 - 2 ^ x.exp / 2 ^ 10 ≤ (whole + 1 : Nat) * 10 ^ t - x.magnitude := by
  have lt := around.lt
  -- Downward the reach may be smaller, but it is never larger than half of a unit.
  have reach := x.reachBelow_bounds
  have unit : (0 : ℚ) < 2 ^ x.exp := by positivity
  rcases out_of_not_reads around.nonzero
    (by linarith [around.positive]) around.le_double fails with below | above <;> linarith

/-- A number that is no whole number of units is not measured in ones, when these are not coarser
than its last place. -/
theorem ne_zero (off : 0 < x.magnitude - whole * 10 ^ t)
    (fine : (10 : ℚ) ^ t ≤ 2 ^ x.exp + 2 ^ x.exp / 2 ^ 9) : t ≠ 0 := by
  rintro rfl
  have floor := around.floor
  rw [zpow_zero] at floor off fine
  -- A last place finer than one would leave no room for ones.
  have coarse : 0 ≤ x.exp := by
    by_contra negative
    have small : (2 : ℚ) ^ x.exp ≤ 2 ^ (-1 : Int) := zpow_le_zpow_right₀ (by norm_num) (by omega)
    norm_num at small
    linarith
  -- Then the number is whole, and nothing is left over.
  have size := Binary.magnitude_eq_mul x coarse
  rw [zpow_zero, mul_one] at size
  rw [div_one, size, Nat.floor_natCast] at floor
  rw [floor, size] at off
  simp at off

/-- A power of ten that is not above the last place of a number is above the power of two before. -/
theorem tenLog_lt_exp (nonzero : t ≠ 0) (fine : (10 : ℚ) ^ t ≤ 2 ^ x.exp + 2 ^ x.exp / 2 ^ 9) :
    tenLog t < x.exp := by
  obtain ⟨clear, -⟩ := ten_zpow_clear around.low around.high nonzero
  by_contra above
  -- Else the last place would not reach up to the power of two that the power of ten is clear of.
  have powers : (2 : ℚ) ^ x.exp ≤ 2 ^ tenLog t :=
    zpow_le_zpow_right₀ (by norm_num) (not_lt.mp above)
  have unit : (0 : ℚ) < 2 ^ x.exp := by positivity
  linarith

/-- Both neighbours are not about half of the last place away, because a power of ten would be near
to a power of two. -/
theorem not_halves (least : 2 ^ x.exp / 2 - 2 ^ x.exp / 2 ^ 10 ≤ x.magnitude - whole * 10 ^ t)
    (most : x.magnitude - whole * 10 ^ t ≤ 2 ^ x.exp / 2 + 2 ^ x.exp / 2 ^ 10)
    (least' : 2 ^ x.exp / 2 - 2 ^ x.exp / 2 ^ 10 ≤ (whole + 1 : Nat) * 10 ^ t - x.magnitude)
    (most' : (whole + 1 : Nat) * 10 ^ t - x.magnitude ≤ 2 ^ x.exp / 2 + 2 ^ x.exp / 2 ^ 10) :
    False := by
  -- The two distances make up the power of ten, which is then near to the last place.
  rw [Nat.cast_succ, add_one_mul] at least' most'
  have unit : (0 : ℚ) < 2 ^ x.exp := by positivity
  have fine : (10 : ℚ) ^ t ≤ 2 ^ x.exp + 2 ^ x.exp / 2 ^ 9 := by linarith
  have nonzero := around.ne_zero (by linarith) fine
  obtain ⟨-, clear⟩ := ten_zpow_clear around.low around.high nonzero
  have powers : (2 : ℚ) ^ (tenLog t + 1) ≤ 2 ^ x.exp :=
    zpow_le_zpow_right₀ (by norm_num) (around.tenLog_lt_exp nonzero fine)
  -- The next power of two is already too far above the power of ten.
  rw [zpow_add_one₀ (by norm_num)] at powers
  linarith

/-- At a power of two the lower neighbour can be out of reach although it is the nearer one, and the
upper one within reach. This happens in three places. -/
theorem crowded (power : x.mant = 2 ^ 23)
    (least : 2 ^ x.exp / 4 - 2 ^ x.exp / 2 ^ 10 ≤ x.magnitude - whole * 10 ^ t)
    (most : (whole + 1 : Nat) * 10 ^ t - x.magnitude ≤ 2 ^ x.exp / 2 + 2 ^ x.exp / 2 ^ 10)
    (nearer : x.magnitude - whole * 10 ^ t ≤ (whole + 1 : Nat) * 10 ^ t - x.magnitude) :
    Lopsided x.magnitude := by
  have unit : (0 : ℚ) < 2 ^ x.exp := by positivity
  have sum : ((whole + 1 : Nat) : ℚ) * 10 ^ t = whole * 10 ^ t + 10 ^ t := by
    rw [Nat.cast_succ, add_one_mul]
  -- Together the two distances are less than the last place and a bit.
  have fine : (10 : ℚ) ^ t ≤ 2 ^ x.exp + 2 ^ x.exp / 2 ^ 9 := by linarith
  have nonzero := around.ne_zero (by linarith) fine
  obtain ⟨-, clear⟩ := ten_zpow_clear around.low around.high nonzero
  -- The last place is the next power of two above the power of ten.
  have next : x.exp = tenLog t + 1 := by
    have above := around.tenLog_lt_exp nonzero fine
    by_contra different
    have powers : (2 : ℚ) ^ (tenLog t + 2) ≤ 2 ^ x.exp :=
      zpow_le_zpow_right₀ (by norm_num) (by omega)
    rw [zpow_add₀ (by norm_num), show (2 : ℚ) ^ (2 : Int) = 4 by norm_num] at powers
    linarith
  -- So the number itself is a power of two.
  have place : (2 : ℚ) ^ x.exp = 2 * 2 ^ tenLog t := by
    rw [next, zpow_add_one₀ (by norm_num), mul_comm]
  have size : x.magnitude = 2 ^ (tenLog t + 24) := by
    rw [Binary.magnitude, power, place, zpow_add₀ (by norm_num)]
    norm_num
    ring
  push_cast at most nearer
  -- Only three powers of ten stand close enough below a power of two.
  have found := ten_zpow_crowded around.low around.high nonzero size around.floor (by linarith)
    (by linarith) nearer
  rw [size]
  exact found.imp (congrArg _) (Or.imp (congrArg _) (congrArg _))

/-- When the lower neighbour is read as the number and the upper one is as near, this is read as it.
-/
theorem upper_of_lower (reads : (⟨x.negative, whole, t⟩ : Decimal).toDouble.toSingle? = some x)
    (nearer : (whole + 1 : Nat) * 10 ^ t - x.magnitude ≤ x.magnitude - whole * 10 ^ t) :
    (⟨x.negative, whole + 1, t⟩ : Decimal).toDouble.toSingle? = some x := by
  -- Otherwise both distances are about half of the last place.
  by_contra fails
  have within := around.le_of_lower reads
  have out := around.ge_of_upper fails
  have reach := x.reachBelow_bounds
  exact around.not_halves (by linarith) (by linarith) (by linarith) (by linarith)

/-- When the upper neighbour is read as the number and the lower one is as near, this is read as it,
except at three powers of two. -/
theorem lower_of_upper (ordinary : ¬ Lopsided x.magnitude)
    (reads : (⟨x.negative, whole + 1, t⟩ : Decimal).toDouble.toSingle? = some x)
    (nearer : x.magnitude - whole * 10 ^ t ≤ (whole + 1 : Nat) * 10 ^ t - x.magnitude) :
    (⟨x.negative, whole, t⟩ : Decimal).toDouble.toSingle? = some x := by
  by_contra fails
  have within := around.le_of_upper reads
  have out := around.ge_of_lower fails
  unfold Binary.reachBelow at out
  split at out
  · -- At a power of two the reach below is only a quarter of a unit.
    rename_i power
    exact ordinary (around.crowded power.2 out within nearer)
  · -- Elsewhere both distances are about half of the last place again.
    exact around.not_halves (by linarith) (by linarith) (by linarith) (by linarith)

/-- The nearest multiple of the power of ten is one of the neighbours, and the nearer one. -/
theorem nearest_eq {nearby : Nat} (nearest : Nearest (x.magnitude / 10 ^ t) nearby) :
    nearby = whole ∧ x.magnitude - whole * 10 ^ t ≤ (whole + 1 : Nat) * 10 ^ t - x.magnitude ∨
      nearby = whole + 1 ∧
        (whole + 1 : Nat) * 10 ^ t - x.magnitude ≤ x.magnitude - whole * 10 ^ t := by
  have unit : (0 : ℚ) < 10 ^ t := by positivity
  have le := around.le
  have lt := around.lt
  -- In units of the power of ten the number is between two whole numbers.
  rw [Nat.cast_succ, add_one_mul] at lt ⊢
  rw [← le_div_iff₀ unit] at le
  rw [← add_one_mul, ← div_lt_iff₀ unit] at lt
  obtain ⟨down, up⟩ := abs_le.mp nearest.near
  have least : (whole : ℚ) < nearby + 1 := by linarith
  have most : (nearby : ℚ) < whole + 2 := by linarith
  have least' : whole < nearby + 1 := by exact_mod_cast least
  have most' : nearby < whole + 2 := by exact_mod_cast most
  -- The nearest whole number is one of these two.
  obtain same | same : nearby = whole ∨ nearby = whole + 1 := by omega
  · left
    rw [same] at up
    have scaled := (div_le_iff₀ unit).mp (sub_le_iff_le_add'.mp up)
    exact ⟨same, by linarith⟩
  · right
    rw [same] at down
    push_cast at down
    have scaled := (le_div_iff₀ unit).mp (by linarith : (whole : ℚ) + 1 / 2 ≤ x.magnitude / 10 ^ t)
    exact ⟨same, by linarith⟩

end Neighbours

/-- If a decimal of few digits is read as a number, then so is the nearest one of so many digits,
except at three powers of two. -/
theorem toDecimal_reads {d : Decimal} (nonzero : x.mant ≠ 0)
    (ordinary : ¬ Lopsided x.magnitude)
    (reads : d.toDouble.toSingle? = some x) {places : Nat} (small : places ≤ 8)
    (few : d.significance ≤ places + 1) :
    (x.toExact.toDecimal (places + 1)).toDouble.toSingle? = some x := by
  obtain ⟨whole, around⟩ := exists_neighbours (x.magnitude_pos nonzero) small
  obtain ⟨nearby, decimal, nearest⟩ := Exact.toDecimal_nearest (x := x.toExact) nonzero (places + 1)
  rw [Exact.log10_eq nonzero, Nat.add_sub_cancel, x.toExact_magnitude] at decimal nearest
  -- Some neighbour is read as the number, but perhaps not the nearest one.
  have one := around.reads_or reads few rfl
  rw [decimal]
  -- If the other neighbour is read as the number, then so is the nearest one.
  rcases around.nearest_eq nearest with ⟨rfl, nearer⟩ | ⟨rfl, nearer⟩
  · exact one.elim id fun upper => around.lower_of_upper ordinary upper nearer
  · exact one.elim (fun lower => around.upper_of_lower lower nearer) id

/-- A number with the magnitude of a power of two has a significand with one bit. -/
theorem eq_of_power {exp : Int} (holds : Format.single.Holds (2 ^ 23) exp)
    (same : x.magnitude = 2 ^ (23 + exp)) : x = ⟨x.negative, 2 ^ 23, exp, holds⟩ := by
  refine Binary.eq_of_magnitude (by decide) (by decide : 2 ^ 23 ≠ 0) rfl ?_
  -- The magnitude and the sign say which number it is.
  rw [same, zpow_add₀ (by norm_num), Binary.magnitude]
  norm_num

/-- At the three powers of two a decimal of eight digits is read as the number, but it is not the
nearest one of so many digits, and nine digits are displayed. -/
theorem exists_shorter (lopsided : Lopsided x.magnitude) :
    ∃ d : Decimal, d.toDouble.toSingle? = some x ∧ d.significance < x.settled.significance := by
  -- For each power there is a number of either sign.
  rcases lopsided with same | same | same
  · have number : x = ⟨x.negative, 2 ^ 23, -119, by decide⟩ := eq_of_power _ same
    rw [number]
    refine ⟨⟨x.negative, 12621775, -36⟩, ?_⟩
    cases x.negative <;> decide +kernel
  · have number : x = ⟨x.negative, 2 ^ 23, 64, by decide⟩ := eq_of_power _ same
    rw [number]
    refine ⟨⟨x.negative, 15474251, 19⟩, ?_⟩
    cases x.negative <;> decide +kernel
  · have number : x = ⟨x.negative, 2 ^ 23, 67, by decide⟩ := eq_of_power _ same
    rw [number]
    refine ⟨⟨x.negative, 12379401, 20⟩, ?_⟩
    cases x.negative <;> decide +kernel

/-- A decimal that is read as a number that is not zero has a significant digit. -/
theorem significance_pos {d : Decimal} (nonzero : x.mant ≠ 0)
    (reads : d.toDouble.toSingle? = some x) : 0 < d.significance := by
  by_contra none
  obtain ⟨whole, zeros, digits, short⟩ := d.exists_mul_ten_pow
  -- Without significant digits nothing is left but zero.
  rw [Nat.eq_zero_of_not_pos none, Nat.pow_zero, Nat.lt_one_iff] at short
  rw [short, Nat.zero_mul] at digits
  have zero : d.toExact.magnitude = 0 := by
    rw [Decimal.toExact_magnitude, Decimal.magnitude, digits, Nat.cast_zero, zero_mul]
  -- Zero stays zero in both steps of rounding.
  rw [Decimal.toDouble_eq] at reads
  obtain ⟨z, rounded, single⟩ := Exact.toSingle?_eq_some reads
  have zero' := Exact.round?_magnitude_of_zero zero rounded
  rw [← z.toExact_magnitude] at zero'
  exact nonzero (x.magnitude_eq_zero_iff.mp (Exact.round?_magnitude_of_zero zero' single))

/-- The decimal that a float is displayed as has the least number of significant digits of all that
read back, unless the float is one of three powers of two or the opposite of one. -/
theorem settled_shortest_iff (x : Single) (nonzero : x.value ≠ 0) :
    (∀ d : Decimal, d.toDouble.toSingle? = some x →
        x.settled.significance ≤ d.significance) ↔
      ¬ (|x.value| = 2 ^ (-96 : Int) ∨ |x.value| = 2 ^ (87 : Int) ∨
        |x.value| = 2 ^ (90 : Int)) := by
  rw [x.abs_value]
  constructor
  · intro shortest lopsided
    -- The decimal that is shorter contradicts what is supposed.
    obtain ⟨d, reads, shorter⟩ := exists_shorter lopsided
    exact absurd (shortest d reads) (not_le.mpr shorter)
  · intro ordinary d reads
    have mant : x.mant ≠ 0 := by
      intro zero
      rw [← abs_pos, x.abs_value, x.magnitude_eq_zero_iff.mpr zero] at nonzero
      exact lt_irrefl _ nonzero
    obtain ⟨more, few, settled, -, before⟩ := x.settled_spec mant
    have most : x.settled.significance ≤ more + 1 := by
      -- The search has settled on the decimal with so many digits.
      rw [settled]
      exact Exact.significance_toDecimal_le mant more
    -- A decimal with fewer digits would have ended the search before.
    by_contra shorter
    have some := significance_pos mant reads
    obtain ⟨places, rfl⟩ : ∃ places, more = places + 1 := ⟨more - 1, by omega⟩
    have small : places ≤ 8 := by
      simp only [displayDigits] at few
      omega
    -- The decimal of one digit less would have been read back.
    have read := toDecimal_reads mant ordinary reads small (by omega)
    have fails := before places (Nat.lt_succ_self places)
    rw [← Bool.not_eq_true, x.readsBack_iff mant] at fails
    exact fails read

/-- The first of these numbers above one: `2 ^ 87` is displayed with nine digits. -/
theorem settled_shortest_iff_of_crowded :
    let x : Single := ⟨false, 2 ^ 23, 64, by decide⟩
    x.value ≠ 0 ∧ x.display = "154742505000000000000000000.0" ∧
      ¬ ∀ d : Decimal, d.toDouble.toSingle? = some x →
        x.settled.significance ≤ d.significance := by
  intro x
  have size : |x.value| = 2 ^ (87 : Int) := by
    rw [x.abs_value]
    norm_num [Binary.magnitude, x]
  have nonzero : x.value ≠ 0 := by
    rw [← abs_pos, size]
    positivity
  -- The number is one of the three powers of two.
  refine ⟨nonzero, by decide +kernel, fun shortest => ?_⟩
  exact (settled_shortest_iff x nonzero).mp shortest (.inr (.inl size))

end Single

end Pseudocode
