/-! Whole-number arithmetic under rounding: the factors that exponents stand for, and division
rounded to the nearest whole number. -/

namespace Pseudocode

/-- The factor that an exponent puts on a numerator: a power of the base, or one when the exponent
is negative and its factor belongs to the denominator. -/
def scale (base : Nat) (exp : Int) : Nat :=
  Nat.pow base exp.toNat

/-- A scale of a positive base is positive. -/
theorem scale_pos {base : Nat} (positive : 0 < base) (exp : Int) : 0 < scale base exp :=
  Nat.pow_pos positive

/-- The whole number nearest to `num / den`. A half goes to the even neighbour. -/
def roundDiv (num den : Nat) : Nat :=
  let quotient := num / den
  let twice := 2 * (num % den)
  if twice < den ∨ (twice = den ∧ quotient % 2 = 0) then quotient else quotient + 1

/-- A rounded quotient is at most half a unit away from the exact one. -/
theorem roundDiv_near (num den : Nat) (positive : 0 < den) :
    2 * num ≤ (2 * roundDiv num den + 1) * den ∧ 2 * roundDiv num den * den ≤ 2 * num + den := by
  -- The division law splits the dividend, and each branch bounds twice the remainder.
  have law := Nat.div_add_mod num den
  have small := Nat.mod_lt num positive
  simp only [roundDiv]
  generalize num / den = quotient at *
  generalize num % den = remainder at *
  subst law
  split <;> constructor <;> rw [Nat.mul_comm den quotient] <;> grind

/-- A quotient without remainder is not changed by rounding. -/
theorem roundDiv_mul_self (quotient den : Nat) (positive : 0 < den) :
    roundDiv (quotient * den) den = quotient := by
  -- The remainder is zero, which is below half of the divisor.
  simp [roundDiv, Nat.mul_mod_left, Nat.mul_div_cancel _ positive, positive]

end Pseudocode
