import Pseudocode.Proofs.Numeric.Decimals
import Pseudocode.Proofs.Numeric.RoundingRange
import Pseudocode.Value.Display

/-! The decimal that a float is displayed as: it is the first one, by number of digits, that is
nearest and reads back, and nine digits are always enough. -/

namespace Pseudocode

namespace Binary

variable {format : Format}

/-- Two numbers have the same place in the order when their values are equal. -/
theorem order_eq_iff (x y : Binary format) : x.order y = .eq ↔ x.value = y.value := by
  have unit : (2 : ℚ) ^ min x.exp y.exp ≠ 0 := by positivity
  -- Both numbers are whole in units of the lesser exponent, and the unit cancels.
  rw [← x.aligned_mul (min_le_left _ _), ← y.aligned_mul (min_le_right _ _), mul_left_inj' unit]
  simp only [order, compare_eq_iff_eq, Int.cast_inj]

/-- A number that is not zero has the same place in the order as itself only. -/
theorem order_eq_iff_eq (wide : 0 < format.precision) (x y : Binary format) (nonzero : x.mant ≠ 0) :
    x.order y = .eq ↔ y = x := by
  -- Equal values have equal magnitudes, so only the sign is in question.
  rw [order_eq_iff]
  refine ⟨fun same => ?_, fun same => by rw [same]⟩
  have magnitude : y.magnitude = x.magnitude := by rw [← abs_value, ← same, abs_value]
  refine eq_of_magnitude wide nonzero ?_ magnitude
  -- With two signs the values would be on the two sides of zero.
  have positive := x.magnitude_pos nonzero
  by_contra signs
  rw [x.value_eq, y.value_eq, magnitude, Bool.eq_not_of_ne signs] at same
  cases minus : x.negative <;> simp only [minus, Bool.not_true, Bool.not_false, if_true, if_false,
    Bool.false_eq_true] at same <;> linarith

end Binary

namespace Single

variable (x : Single)

/-- A decimal reads back as a number that is not zero when rounding it twice gives the number. -/
theorem readsBack_iff (nonzero : x.mant ≠ 0) (d : Decimal) :
    x.readsBack d = true ↔ d.toDouble.toSingle? = some x := by
  -- Where the rounding overflows, nothing is read and the number is not either.
  unfold readsBack
  cases read : d.toDouble.toSingle? with
  | none => simp
  | some y =>
    rw [Option.some.injEq, ← x.order_eq_iff_eq (by decide) y nonzero]
    simp

/-- Nine digits are enough for every 32-bit number, also when they are read through 64 bits. -/
theorem toDecimal_toSingle? (nonzero : x.mant ≠ 0) :
    (x.toExact.toDecimal 9).toDouble.toSingle? = some x := by
  -- A nearest decimal of nine digits is within half a unit of its last place.
  have positive := x.magnitude_pos nonzero
  have low := Int.zpow_log_le_self (by decide : 1 < 10) positive
  have near := Exact.toDecimal_near (x := x.toExact) nonzero 9
  rw [Exact.log10_eq nonzero] at near
  have place : (10 : ℚ) ^ (Int.log 10 x.toExact.magnitude - (9 - 1 : Nat)) =
      10 ^ Int.log 10 x.toExact.magnitude / 10 ^ 8 := by
    rw [zpow_sub₀ (by norm_num)]
    norm_cast
  rw [place] at near
  push_cast at low
  rw [x.toExact_magnitude] at near
  -- That is near enough for a rounding to 64 bits, and then to 32, to end in the number.
  rw [Decimal.toDouble_eq]
  refine toSingle?_of_near (x.toExact.toDecimal_negative 9) ?_
  rw [Decimal.toExact_magnitude]
  linarith

/-- The search for digits ends with the first number of them whose decimal reads back. -/
theorem settled_spec (nonzero : x.mant ≠ 0) :
    ∃ more < displayDigits, x.settled = x.toExact.toDecimal (more + 1) ∧
      x.settled.toDouble.toSingle? = some x ∧
        ∀ fewer < more, x.readsBack (x.toExact.toDecimal (fewer + 1)) = false := by
  -- The ninth candidate reads back in any case, so that the search has an end.
  have last : x.readsBack (x.toExact.toDecimal (8 + 1)) = true :=
    (x.readsBack_iff nonzero _).mpr (x.toDecimal_toSingle? nonzero)
  simp only [settled, List.find?_map]
  cases search : (List.range displayDigits).find?
      (x.readsBack ∘ fun n => x.toExact.toDecimal (n + 1)) with
  | none =>
    -- The search would have found the last candidate.
    have fails := List.find?_range_eq_none.mp search 8 (by decide)
    simp [last] at fails
  | some more =>
    -- The first that is found comes with the failure of all before it.
    obtain ⟨reads, member, before⟩ := List.find?_range_eq_some.mp search
    refine ⟨more, List.mem_range.mp member, rfl, (x.readsBack_iff nonzero _).mp reads, ?_⟩
    intro fewer less
    simpa using before fewer less

/-- Zero has one form for each sign. -/
theorem eq_zero (zero : x.mant = 0) : x = .zero .single x.negative := by
  obtain ⟨negative, mant, exp, holds⟩ := x
  simp only at zero
  subst zero
  -- A significand that is not full stands at the finest exponent.
  rcases holds.2.2.2 with rfl | full
  · rfl
  · exact absurd full (by decide)

/-- Zero is displayed as it is, with its sign. -/
theorem settled_of_zero (zero : x.mant = 0) : x.settled = ⟨x.negative, 0, 0⟩ := by
  -- The two zeros are displayed by computation.
  rw [x.eq_zero zero]
  cases x.negative <;> decide

/-- What a number is displayed as has its sign. -/
theorem settled_negative : x.settled.negative = x.negative := by
  -- Zero is no case for the search, which needs a first digit.
  by_cases zero : x.mant = 0
  · rw [x.settled_of_zero zero]
  · obtain ⟨more, -, settled, -⟩ := x.settled_spec zero
    rw [settled]
    exact x.toExact.toDecimal_negative _

/-- What a number is displayed as reads back as the number, and zero keeps its sign. -/
theorem settled_toSingle? : x.settled.toDouble.toSingle? = some x := by
  by_cases zero : x.mant = 0
  -- Both zeros are read back as they are.
  · rw [x.settled_of_zero zero, x.eq_zero zero]
    cases x.negative <;> decide
  · obtain ⟨more, -, -, reads, -⟩ := x.settled_spec zero
    exact reads

end Single

end Pseudocode
