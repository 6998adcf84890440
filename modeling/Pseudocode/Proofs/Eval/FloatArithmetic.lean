import Pseudocode.Eval.Apply
import Pseudocode.Proofs.Numeric.DoubleRounding

/-! Arithmetic on floats is correctly rounded: the result is the 32-bit number nearest to the exact
one, and an overflow is reported exactly when that would be too large. -/

namespace Pseudocode

/-- The exact number that a value is, and whether it has a minus sign, which zero may have. -/
def Value.exactly? : Value → Option (ℚ × Bool)
  | .integer n => some (n.toInt, n.toInt < 0)
  | .float x => some (x.value, x.negative)
  | _ => none

/-- What an operator does to exact numbers, for the operators that floats have. -/
def ArithOp.onRationals? : ArithOp → Option (ℚ → ℚ → ℚ)
  | .add => some (· + ·)
  | .sub => some (· - ·)
  | .mul => some (· * ·)
  | .div => some (· / ·)
  | .rem => none

/-- Whether a result that is zero has a minus sign, by the signs of the operands. -/
def ArithOp.zeroSign (op : ArithOp) (left right : Bool) : Bool :=
  match op with
  | .add => left && right
  | .sub => left && !right
  | .mul | .div | .rem => left != right

/-- Whether an exact result has a minus sign. -/
def ArithOp.resultSign (op : ArithOp) (left right : Bool) (result : ℚ) : Bool :=
  if result = 0 then op.zeroSign left right else result < 0

namespace Exact

/-- The sign of a number that is not zero is that of its value. -/
theorem negative_eq {x : Exact} (nonzero : x.value ≠ 0) : x.negative = decide (x.value < 0) := by
  -- The value is the magnitude or the negative of it, and the magnitude is not negative.
  have nonneg := x.magnitude_nonneg
  unfold value at nonzero ⊢
  cases minus : x.negative with
  | true =>
    simp only [minus, if_true] at nonzero ⊢
    exact (decide_eq_true (lt_of_le_of_ne (by linarith) nonzero)).symm
  | false =>
    simp only [minus, Bool.false_eq_true, if_false] at nonzero ⊢
    exact (decide_eq_false (by linarith)).symm

/-- A whole number as an exact one has its value. -/
theorem ofInt_value (n : Int) : (ofInt n).value = n := by
  -- A whole number has its absolute value as numerator, and nothing below it.
  simp only [value, magnitude, ofInt, Nat.cast_one, div_one, zpow_zero, mul_one, decide_eq_true_eq,
    Nat.cast_natAbs]
  split
  · rw [abs_of_neg (by assumption)]
    push_cast
    ring
  · rw [abs_of_nonneg (by omega)]

end Exact

namespace Single

variable (x y : Single)

/-- The value of a number with the other sign. -/
theorem neg_value : x.neg.value = -x.value := by
  -- Only the sign differs, and it decides between the magnitude and its negative.
  simp only [Binary.value_eq, Binary.neg, Binary.magnitude]
  cases x.negative <;> simp

/-- The exact sum has the value of the sum. -/
theorem add_value : (x.add y).value = x.value + y.value := by
  -- Zero is settled by the magnitude alone, since its sign does not matter for the value.
  by_cases zero : x.value + y.value = 0
  · have none : (x.add y).magnitude = 0 := by rw [add_magnitude, zero, abs_zero]
    simp [Exact.value, none, zero]
  -- The sign of the exact sum is that of the rational one.
  · rw [Exact.value, add_magnitude, add_negative x y zero]
    split
    · rename_i less
      rw [abs_of_neg (of_decide_eq_true less), neg_neg]
    · rename_i more
      rw [abs_of_nonneg (by simpa using more)]

/-- A sum that is zero has a minus sign only when both terms have one. -/
theorem add_negative_of_zero (zero : x.value + y.value = 0) :
    (x.add y).negative = (x.negative && y.negative) := by
  have unit : (0 : ℚ) < 2 ^ min x.exp y.exp := by positivity
  -- The sum is counted in units of the finer of the two last places.
  rw [← Binary.aligned_add_mul, mul_eq_zero_iff_right unit.ne'] at zero
  simp only [Binary.add]
  rw [if_pos (by exact_mod_cast zero)]

/-- The exact product has the value of the product. -/
theorem mul_value : (x.mul y).value = x.value * y.value := by
  -- Significands are multiplied and exponents added.
  have magnitude : (x.mul y).magnitude = x.magnitude * y.magnitude := by
    simp only [Exact.magnitude, Binary.mul, Binary.magnitude, zpow_add₀ (two_ne_zero' ℚ)]
    push_cast
    ring
  rw [Exact.value, magnitude, Binary.value_eq, Binary.value_eq]
  simp only [Binary.mul]
  -- The sign of the product is a minus for exactly one minus.
  rcases x.negative.eq_false_or_eq_true with left | left <;>
    rcases y.negative.eq_false_or_eq_true with right | right <;> simp [left, right]

/-- The exact quotient has the value of the quotient. -/
theorem div_value (divisor : 0 < y.mant) : (x.div y divisor).value = x.value / y.value := by
  -- Significands are divided and exponents subtracted.
  have magnitude : (x.div y divisor).magnitude = x.magnitude / y.magnitude := by
    simp only [Exact.magnitude, Binary.div, Binary.magnitude, zpow_sub₀ (two_ne_zero' ℚ)]
    field_simp
  rw [Exact.value, magnitude, Binary.value_eq, Binary.value_eq]
  simp only [Binary.div]
  rcases x.negative.eq_false_or_eq_true with left | left <;>
    rcases y.negative.eq_false_or_eq_true with right | right <;>
      simp [left, right, neg_div, div_neg]

/-- A number with a significand of zero is zero. -/
theorem value_eq_zero_iff : x.value = 0 ↔ x.mant = 0 := by
  -- The power of two is no zero.
  have unit : (2 : ℚ) ^ x.exp ≠ 0 := by positivity
  rw [← abs_eq_zero, Binary.abs_value, Binary.magnitude, mul_eq_zero, Nat.cast_eq_zero,
    or_iff_left unit]

/-- Every number is what its own value is rounded to. -/
theorem rounds_self : x.Rounds x.value x.negative where
  -- The distance to the own value is nothing, so that no other number is nearer.
  nearest other := by simp
  even other different tie := by
    -- Another number just as near would be at the same place.
    rw [sub_self, abs_zero, abs_eq_zero, sub_eq_zero] at tie
    exact absurd tie.symm different
  sign := rfl

end Single

/-- The exact result of an operator has the value and the sign that the result is to have, and is
rounded twice as it is rounded once. -/
theorem exactArith_exact {op : ArithOp} {combine : ℚ → ℚ → ℚ} (x y : Single)
    (operation : op.onRationals? = some combine) (divisor : op = .div → 0 < y.mant) :
    ∃ exact : Exact, exactArith op x y divisor = .ok exact ∧
      exact.toDouble.toSingle? = exact.round? .single ∧
        exact.value = combine x.value y.value ∧
          exact.negative = op.resultSign x.negative y.negative (combine x.value y.value) := by
  -- The sign is the rule for zeros where the result is zero, and that of the value elsewhere.
  have signed : ∀ exact : Exact, exact.value = combine x.value y.value →
      (combine x.value y.value = 0 → exact.negative = op.zeroSign x.negative y.negative) →
        exact.negative = op.resultSign x.negative y.negative (combine x.value y.value) := by
    intro exact value zero
    unfold ArithOp.resultSign
    split
    · exact zero (by assumption)
    · rw [← value]
      exact Exact.negative_eq (by rwa [value])
  cases op with
  | add =>
    cases operation
    exact ⟨_, rfl, x.add_toSingle? y, x.add_value y,
      signed _ (x.add_value y) (x.add_negative_of_zero y)⟩
  | sub =>
    -- Subtraction is addition of the number with the other sign.
    cases operation
    have value : (x.sub y).value = x.value - y.value := by
      rw [Binary.sub, Single.add_value, Single.neg_value, sub_eq_add_neg]
    refine ⟨_, rfl, x.add_toSingle? y.neg, value, signed _ value fun zero => ?_⟩
    exact x.add_negative_of_zero y.neg (by rwa [Single.neg_value, ← sub_eq_add_neg])
  | mul =>
    cases operation
    exact ⟨_, rfl, x.mul_toSingle? y, x.mul_value y, signed _ (x.mul_value y) fun _ => rfl⟩
  | div =>
    -- The divisor is not zero, so the quotient has a meaning.
    cases operation
    have nonzero := divisor rfl
    exact ⟨_, rfl, x.div_toSingle? y nonzero, x.div_value y nonzero,
      signed _ (x.div_value y nonzero) fun _ => rfl⟩
  -- Floats leave no remainder, so there is no operation to speak of.
  | rem => cases operation

/-- Arithmetic on floats rounds the exact result once, and overflows exactly when that fails. -/
theorem floatArith_rounds {op : ArithOp} {combine : ℚ → ℚ → ℚ} {x y : Single}
    (operation : op.onRationals? = some combine) (divisor : op = .div → 0 < y.mant) {result : ℚ}
    (combined : combine x.value y.value = result) :
    (|result| < Format.single.limit → ∃ z : Single, floatArith op x y divisor = .ok (.float z) ∧
      z.Rounds result (op.resultSign x.negative y.negative result)) ∧
    (Format.single.limit ≤ |result| →
      ∃ shown, floatArith op x y divisor = .error (.numericOverflow op shown)) := by
  obtain ⟨exact, made, once, value, sign⟩ := exactArith_exact x y operation divisor
  rw [combined] at value sign
  -- What is too large is decided by the magnitude of the exact result.
  have size : |result| = exact.magnitude := by
    rw [← value, exact.abs_value]
  -- The result is what one rounding gives.
  have rounded : floatArith op x y divisor = (exact.round? .single).elim
      (.error (.numericOverflow op exact.toDouble)) (fun z => .ok (.float z)) := by
    simp only [floatArith, made, Bind.bind, Except.bind, Value.ofDouble?, once]
    cases exact.round? .single <;> rfl
  rw [size, rounded, ← sign]
  constructor
  -- Below the limit the rounding has a result, and that is the nearest one.
  · intro small
    obtain ⟨z, found⟩ := Exact.exists_round? (by decide) small
    have rounds := Exact.round?_rounds (by decide) found
    rw [value] at rounds
    exact ⟨z, by rw [found]; rfl, rounds⟩
  -- From the limit on there is no result.
  · intro large
    have none := (Exact.round?_eq_none_iff (by decide)).mpr large
    exact ⟨_, by rw [none]; rfl⟩

/-- The 32-bit number one. -/
def Single.one : Single :=
  ⟨false, 2 ^ 23, -23, by decide⟩

/-- The 32-bit number three. -/
def Single.three : Single :=
  ⟨false, 3 * 2 ^ 22, -22, by decide⟩

/-- A whole number as an exact one has its absolute value. -/
theorem Exact.ofInt_magnitude (n : Int) : (ofInt n).magnitude = |(n : ℚ)| := by
  simp [magnitude, ofInt]

namespace Value

/-- A number is brought to a float by rounding it. -/
theorem toSingle?_rounds {a : Value} {p : ℚ} {s : Bool} (number : a.exactly? = some (p, s)) :
    ∃ x : Single, a.toSingle? = some x ∧ x.Rounds p s := by
  cases a with
  -- An integer of 32 bits is far below the limit, so that rounding it succeeds.
  | integer n =>
    cases number
    have low := n.le_toInt
    have high := n.toInt_lt
    have small : |(n.toInt : ℚ)| < Format.single.limit := by
      have least : (-2 ^ 31 : ℚ) ≤ n.toInt := by exact_mod_cast low
      have most : (n.toInt : ℚ) < 2 ^ 31 := by exact_mod_cast high
      rw [Format.limit_single, abs_lt]
      constructor <;> linarith
    rw [← Exact.ofInt_magnitude] at small
    obtain ⟨x, rounded⟩ := Exact.exists_round? (by decide) small
    have rounds := Exact.round?_rounds (by decide) rounded
    rw [Exact.ofInt_value] at rounds
    exact ⟨x, rounded, rounds⟩
  -- A float is rounded to itself.
  | float x =>
    cases number
    exact ⟨x, rfl, x.rounds_self⟩
  | _ => cases number

/-- A number that is not zero is not taken for zero. -/
theorem isZero_eq_false {b : Value} {q : ℚ} {t : Bool} (number : b.exactly? = some (q, t))
    (nonzero : q ≠ 0) : b.isZero = false := by
  cases b with
  | integer n =>
    cases number
    simpa [isZero] using nonzero
  | float y =>
    cases number
    rw [Ne, Single.value_eq_zero_iff] at nonzero
    simpa [isZero] using nonzero
  | _ => cases number

/-- Arithmetic on two numbers that are brought to floats is arithmetic on these. -/
theorem mixedArith_eq {op : ArithOp} {a b : Value} {x y : Single} (left : a.toSingle? = some x)
    (right : b.toSingle? = some y) (divisor : op = .div → b.isZero = false) :
    mixedArith op a b divisor =
      floatArith op x y fun division => mant_pos_of_toSingle? right (divisor division) := by
  -- Both operands are brought to floats, so the second branch is not taken.
  unfold mixedArith
  split
  · rename_i left' right'
    cases left.symm.trans left'
    cases right.symm.trans right'
    rfl
  · rename_i neither
    exact absurd right (neither x y left)

/-- Arithmetic on two numbers that are not both integers is arithmetic on floats. -/
theorem arith_eq_floatArith {op : ArithOp} {a b : Value} {x y : Single}
    (left : a.toSingle? = some x) (right : b.toSingle? = some y)
    (float : a.kind = .float ∨ b.kind = .float) (four : op ≠ .rem)
    (divisor : op = .div → b.isZero = false) :
    arith op a b =
      floatArith op x y fun division => mant_pos_of_toSingle? right (divisor division) := by
  -- Division by zero is excluded, and a remainder is not asked for.
  have proper : ¬ ((op = .div ∨ op = .rem) ∧ b.isZero = true) := by
    rintro ⟨division | rem, zero⟩
    · rw [divisor division] at zero
      cases zero
    · exact four rem
  unfold arith
  rw [dif_neg proper, ← mixedArith_eq left right divisor]
  -- The rule for floats is the last one, and all rules before it are for other kinds.
  cases a <;> cases b <;> simp_all [kind, toSingle?]

/-- Arithmetic on numbers of which at least one is a float is correctly rounded. With the operands
brought to floats, the result is the float nearest to the exact result, the even one of two, and the
operation overflows exactly when the exact result is at least half a unit above the greatest
float. -/
theorem applyBinary_correctlyRounded {op : ArithOp} {combine : ℚ → ℚ → ℚ} {a b : Value} {p q : ℚ}
    {s t : Bool} (operation : op.onRationals? = some combine)
    (left : a.exactly? = some (p, s)) (right : b.exactly? = some (q, t))
    (float : a.kind = .float ∨ b.kind = .float) (divisor : op = .div → q ≠ 0) :
    ∃ x y : Single, x.Rounds p s ∧ y.Rounds q t ∧ ∃ result, combine x.value y.value = result ∧
      (|result| < 2 ^ 128 - 2 ^ 103 → ∃ z : Single,
        applyBinary (.arith op) a b = .ok (.float z) ∧
          z.Rounds result (op.resultSign s t result)) ∧
      (2 ^ 128 - 2 ^ 103 ≤ |result| → ∃ shown,
        applyBinary (.arith op) a b = .error (.numericOverflow op shown)) := by
  obtain ⟨x, single, rounds⟩ := toSingle?_rounds left
  obtain ⟨y, single', rounds'⟩ := toSingle?_rounds right
  -- Four operators act on rational numbers, and a remainder is not among them.
  have four : op ≠ .rem := by
    rintro rfl
    cases operation
  -- A value that stands for an exact number is there.
  have present : (a.isAbsent || b.isAbsent) = false := by
    cases a <;> cases b <;> simp_all [isAbsent, exactly?]
  have nonzero : op = .div → b.isZero = false := fun division =>
    isZero_eq_false right (divisor division)
  -- The test for absent operands is passed.
  have same : applyBinary (.arith op) a b = arith op a b := by
    rw [applyBinary, present]
    rfl
  -- The operands are brought to floats first, and the result is that of the floats.
  refine ⟨x, y, rounds, rounds', _, rfl, ?_⟩
  rw [same, arith_eq_floatArith single single' float four nonzero, ← Format.limit_single,
    ← rounds.sign, ← rounds'.sign]
  exact floatArith_rounds operation _ rfl

/-- An integer is divided by a float, with a result that no format holds: one by three. -/
theorem applyBinary_correctlyRounded_third :
    ArithOp.div.onRationals? = some (· / ·) ∧
      (integer 1).exactly? = some (1, false) ∧ (float .three).exactly? = some (3, false) ∧
        ((integer 1).kind = .float ∨ (float .three).kind = .float) ∧
          ∃ x y : Single, x.Rounds 1 false ∧ y.Rounds 3 false ∧
            ∃ result, x.value / y.value = result ∧
              (|result| < 2 ^ 128 - 2 ^ 103 → ∃ z : Single,
                applyBinary (.arith .div) (integer 1) (float .three) = .ok (.float z) ∧
                  z.Rounds result (ArithOp.div.resultSign false false result)) ∧
              (2 ^ 128 - 2 ^ 103 ≤ |result| → ∃ shown,
                applyBinary (.arith .div) (integer 1) (float .three) =
                  .error (.numericOverflow .div shown)) := by
  -- The exact numbers of the two operands are computed.
  have one : (integer 1).exactly? = some (1, false) := by
    norm_num [exactly?, show (1 : Int32).toInt = 1 by decide]
  have three : (float .three).exactly? = some (3, false) := by
    norm_num [exactly?, Binary.value, Binary.signed, Single.three]
  exact ⟨rfl, one, three, .inr rfl,
    applyBinary_correctlyRounded rfl one three (.inr rfl) fun _ => by norm_num⟩

end Value

end Pseudocode
