import Pseudocode.Proofs.Eval.IntegerArithmetic

/-! Division of integers: the quotient is cut off toward zero, the remainder has the sign of the
dividend, and the two make up the dividend again. -/

namespace Pseudocode

/-- A quotient that is cut off toward zero, and the remainder that it leaves. -/
structure Truncates (a b quotient remainder : Int) : Prop where
  /-- The two make up the dividend. -/
  law : a = b * quotient + remainder
  /-- The remainder is smaller than the divisor. -/
  small : |remainder| < |b|
  /-- The remainder has the sign of the dividend, unless it is zero. -/
  sign : remainder = 0 ∨ remainder.sign = a.sign

/-- The library has such a quotient and remainder, unless the divisor is zero. -/
theorem truncates_tdiv (a : Int) {b : Int} (nonzero : b ≠ 0) :
    Truncates a b (a.tdiv b) (a.tmod b) where
  -- The law is in the library, with the sides exchanged.
  law := (Int.mul_tdiv_add_tmod a b).symm
  small := by
    -- The magnitudes divide as natural numbers do, where the remainder is below the divisor.
    rw [Int.abs_eq_natAbs, Int.abs_eq_natAbs, Int.natAbs_tmod]
    exact_mod_cast Nat.mod_lt _ (Int.natAbs_pos.mpr nonzero)
  sign := by
    -- A remainder that is not zero has the sign that the library gives it.
    by_cases divides : b ∣ a
    · exact .inl (Int.tmod_eq_zero_of_dvd divides)
    · right
      rw [Int.sign_tmod, if_neg divides]

/-- The quotient of the magnitudes, with its sign, and what it leaves of the dividend are such a
quotient and remainder, unless the divisor is zero. -/
theorem truncates_quotient (a : Int) {b : Int} (nonzero : b ≠ 0) :
    Truncates a b (truncatedQuotient a b) (truncatedRemainder a b) := by
  -- In all four combinations of signs they are those of the library.
  rw [truncatedQuotient_eq_tdiv, truncatedRemainder_eq_tmod]
  exact truncates_tdiv a nonzero

namespace Value

/-- The quotient of two integers is that of their 32-bit numbers. -/
theorem ofInt_tdiv (a b : Int32) : ofInt (a.toInt.tdiv b.toInt) = .integer (a / b) := by
  -- The quotient is reduced to 32 bits on both sides.
  rw [ofInt, (Int32.ofInt_eq_iff_bmod_eq_toInt _ _).mpr (Int32.toInt_div a b).symm]

/-- The remainder of two integers is that of their 32-bit numbers. -/
theorem ofInt_tmod (a b : Int32) : ofInt (a.toInt.tmod b.toInt) = .integer (a % b) := by
  -- A remainder always fits, so that there is nothing to be reduced.
  rw [← Int32.toInt_mod, ofInt_toInt]

end Value

/-- The one quotient that does not fit is that of the least integer by minus one. -/
theorem truncates_int32 {a b : Int32} (nonzero : b ≠ 0)
    (fits : ¬ (a = Int32.minValue ∧ b = -1)) :
    Truncates a.toInt b.toInt (a / b).toInt (a % b).toInt := by
  -- The quotient overflows only if both numbers are the ones that are left out.
  have quotient : (a / b).toInt = a.toInt.tdiv b.toInt := by
    by_cases least : a = Int32.minValue
    · exact Int32.toInt_div_of_ne_right a b fun one => fits ⟨least, one⟩
    · exact Int32.toInt_div_of_ne_left a b least
  rw [quotient, Int32.toInt_mod]
  -- The divisor is not zero as a whole number either.
  exact truncates_tdiv _ (mt toInt_eq_zero.mp nonzero)

/-- The product of a divisor and a quotient, to which the remainder is added. -/
def Expr.rejoined (left right : Expr) : Expr :=
  .binary (.arith .add) (.binary (.arith .mul) right (.binary (.arith .div) left right))
    (.binary (.arith .rem) left right)

/-- Quotient and remainder make up the dividend again, also where the quotient wraps. -/
theorem Expr.eval_rejoined {store : Store} {left right : Expr} {a b : Int32}
    (first : left.eval store = .ok (.value (.integer a)))
    (second : right.eval store = .ok (.value (.integer b))) (nonzero : b ≠ 0) :
    (rejoined left right).eval store = .ok (.value (.integer a)) := by
  -- Each of the four operations is evaluated on what the others give.
  have quotient := eval_integers .div first second fun _ => nonzero
  have product := eval_integers .mul second quotient (by simp [ArithOp.divides])
  have remainder := eval_integers .rem first second fun _ => nonzero
  have sum := eval_integers .add product remainder (by simp [ArithOp.divides])
  rw [rejoined, sum]
  -- Wrapping the quotient, the product and the sum is wrapping their exact sum, the dividend.
  simp only [ArithOp.onIntegers, Value.ofInt, Int32.ofInt_add, Int32.ofInt_mul, Int32.ofInt_toInt]
  rw [← Int32.ofInt_toInt b, ← Int32.ofInt_mul, ← Int32.ofInt_add, Int32.ofInt_toInt b,
    Int.mul_tdiv_add_tmod, Int32.ofInt_toInt]

namespace Value

/-- The law of division. The quotient of whole numbers, built from their magnitudes and signs, is
cut off toward zero, and the remainder is what it leaves, unless the divisor is zero. On integers
the two are the quotient and the remainder of 32-bit numbers: the exact ones, but for the least
integer by minus one, whose quotient wraps to the least integer itself. In each case the product of
divisor and quotient and the remainder add up to the dividend. A divisor of zero is refused. -/
theorem integers_divided :
    (∀ a b : Int, b ≠ 0 →
      truncatedDivision? a b = some (truncatedQuotient a b, truncatedRemainder a b) ∧
        Truncates a b (truncatedQuotient a b) (truncatedRemainder a b)) ∧
    (∀ a b : Int32, b ≠ 0 →
      applyBinary (.arith .div) (.integer a) (.integer b) = .ok (.integer (a / b)) ∧
      applyBinary (.arith .rem) (.integer a) (.integer b) = .ok (.integer (a % b)) ∧
      if a = Int32.minValue ∧ b = -1 then a / b = Int32.minValue ∧ a % b = 0
      else Truncates a.toInt b.toInt (a / b).toInt (a % b).toInt) ∧
    (∀ (store : Store) (left right : Expr) (a b : Int32),
      left.eval store = .ok (.value (.integer a)) →
      right.eval store = .ok (.value (.integer b)) → b ≠ 0 →
        (Expr.rejoined left right).eval store = .ok (.value (.integer a))) ∧
    (∀ a : Int32,
      applyBinary (.arith .div) (.integer a) (.integer 0) = .error .divisionByZero ∧
      applyBinary (.arith .rem) (.integer a) (.integer 0) = .error .divisionByZero) := by
  refine ⟨fun a b nonzero => ?_, fun a b nonzero => ⟨?_, ?_, ?_⟩,
    fun store left right a b first second nonzero => Expr.eval_rejoined first second nonzero,
    fun a => ⟨?_, ?_⟩⟩
  · -- Here nothing is bounded, and the quotient is the one that is built from the magnitudes.
    exact ⟨if_neg nonzero, truncates_quotient a nonzero⟩
  · -- On integers of 32 bits the exact quotient is reduced.
    rw [applyBinary_integers, if_neg fun fails => nonzero fails.2, ← ofInt_tdiv]
    rfl
  · rw [applyBinary_integers, if_neg fun fails => nonzero fails.2, ← ofInt_tmod]
    rfl
  · split
    -- The quotient that does not fit is reduced to the least integer.
    · next least =>
      obtain ⟨rfl, rfl⟩ := least
      exact ⟨Int32.minValue_div_neg_one, by decide⟩
    · next fits => exact truncates_int32 nonzero fits
  · -- A divisor of zero is refused before anything is computed.
    rw [applyBinary_integers, if_pos ⟨rfl, rfl⟩]
  · rw [applyBinary_integers, if_pos ⟨rfl, rfl⟩]

/-- The least integer is divided by minus one, and minus seven by two. -/
theorem integers_divided_least :
    (-1 : Int32) ≠ 0 ∧ Truncates (-7) 2 (-3) (-1) ∧
      applyBinary (.arith .div) (.integer Int32.minValue) (.integer (-1)) =
        .ok (.integer Int32.minValue) ∧
      applyBinary (.arith .rem) (.integer Int32.minValue) (.integer (-1)) = .ok (.integer 0) ∧
      (Expr.rejoined (.literal (.value (.integer Int32.minValue)))
        (.literal (.value (.integer (-1))))).eval .empty =
          .ok (.value (.integer Int32.minValue)) := by
  have nonzero : (-1 : Int32) ≠ 0 := by decide
  obtain ⟨whole, bounded, joined, -⟩ := integers_divided
  -- The first part is applied to whole numbers with different signs.
  obtain ⟨-, truncates⟩ := whole (-7) 2 (by decide)
  obtain ⟨divided, left, -⟩ := bounded Int32.minValue (-1) nonzero
  exact ⟨nonzero, truncates, divided, left, joined .empty _ _ _ _ rfl rfl nonzero⟩

end Value

end Pseudocode
