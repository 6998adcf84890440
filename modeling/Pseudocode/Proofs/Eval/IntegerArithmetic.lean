import Mathlib.Data.Int.ModEq
import Mathlib.Algebra.Order.Group.Unbundled.Int
import Pseudocode.Eval.Expr

/-! Arithmetic on integers is arithmetic on whole numbers of any size, wrapped to 32 bits. The sums,
differences and products of an expression may as well be wrapped once, at its end. -/

namespace Pseudocode

/-- The whole number of 32 bits with a sign that a whole number wraps to. -/
def wrapInt32 (z : Int) : Int :=
  (z + 2 ^ 31) % 2 ^ 32 - 2 ^ 31

/-- The second whole number has 32 bits with a sign, and differs from the first by a multiple of
`2 ^ 32`. -/
structure WrapsTo (z n : Int) : Prop where
  /-- The number is not below the range. -/
  least : -2 ^ 31 ≤ n
  /-- The number is not above the range. -/
  most : n ≤ 2 ^ 31 - 1
  /-- The two numbers have one residue. -/
  congruent : n ≡ z [ZMOD 2 ^ 32]

/-- There is one number in the range that another one wraps to. -/
theorem wrapsTo_iff {z n : Int} : WrapsTo z n ↔ n = wrapInt32 z := by
  unfold wrapInt32
  -- One direction finds the number from its bounds and its residue, the other checks these.
  constructor
  · rintro ⟨least, most, congruent⟩
    have same : n % 2 ^ 32 = z % 2 ^ 32 := congruent
    omega
  · rintro rfl
    refine ⟨by omega, by omega, ?_⟩
    change _ % _ = _ % _
    omega

/-- Reducing a whole number to 32 bits wraps it. -/
theorem toInt_ofInt (z : Int) : (Int32.ofInt z).toInt = wrapInt32 z := by
  -- The library wraps by cases on which half of the residues the number falls in.
  rw [Int32.toInt_ofInt, Int.bmod_def, wrapInt32, Int32.size]
  split <;> omega

/-- Whether an operator divides, so that a divisor of zero is refused. -/
def ArithOp.divides : ArithOp → Bool
  | .div | .rem => true
  | .add | .sub | .mul => false

/-- The operators that divide ask for a quotient or a remainder. -/
theorem ArithOp.divides_iff {op : ArithOp} : op.divides = true ↔ op = .div ∨ op = .rem := by
  -- There are five operators, and two of them divide.
  cases op <;> simp [divides]

/-- What an operator does to whole numbers. A quotient is cut off toward zero. -/
def ArithOp.onIntegers : ArithOp → Int → Int → Int
  | .add => (· + ·)
  | .sub => (· - ·)
  | .mul => (· * ·)
  | .div => Int.tdiv
  | .rem => Int.tmod

/-- Arithmetic on whole numbers has a result, unless it divides by zero. -/
theorem intArith_eq (op : ArithOp) (a b : Int) :
    intArith op a b =
      if op.divides = true ∧ b = 0 then .error .divisionByZero else .ok (op.onIntegers a b) := by
  -- Three operators have a result whatever the numbers are.
  cases op with
  | add => rfl
  | sub => rfl
  | mul => rfl
  -- The quotient of the definition is the one of the library.
  | div =>
    by_cases zero : b = 0 <;>
      simp [intArith, truncatedDivision?, truncatedQuotient_eq_tdiv, zero, ArithOp.divides,
        ArithOp.onIntegers]
  | rem =>
    by_cases zero : b = 0 <;>
      simp [intArith, truncatedDivision?, truncatedRemainder_eq_tmod, zero, ArithOp.divides,
        ArithOp.onIntegers]

/-- The value of a 32-bit number is that number. -/
theorem Value.ofInt_toInt (n : Int32) : ofInt n.toInt = .integer n := by
  rw [ofInt, Int32.ofInt_toInt]

/-- A 32-bit number is zero when the whole number is. -/
theorem toInt_eq_zero {n : Int32} : n.toInt = 0 ↔ n = 0 := by
  rw [← Int32.toInt_zero, Int32.toInt_inj]

/-- Arithmetic on integers is arithmetic on whole numbers, with a result that is wrapped. -/
theorem Value.applyBinary_integers (op : ArithOp) (m n : Int32) :
    -- This is the statement for whole numbers, with the operands brought there and the result back.
    applyBinary (.arith op) (.integer m) (.integer n) =
      if op.divides = true ∧ n = 0 then .error .divisionByZero
      else .ok (ofInt (op.onIntegers m.toInt n.toInt)) := by
  -- The divisor is looked at twice, as a value and as a number, with the same answer.
  simp only [applyBinary, isAbsent, arith, isZero, ← ArithOp.divides_iff, intArith_eq, beq_iff_eq,
    toInt_eq_zero]
  -- Either both sides refuse, or both wrap the same number.
  by_cases fails : op.divides = true ∧ n = 0
  · simp [fails]
  · simp [fails, Except.map]

/-- Wrapping the operands first does not change what a sum, a difference or a product wraps to. -/
theorem ArithOp.ofInt_onIntegers {op : ArithOp} (ring : op.divides = false) (x y : Int) :
    Int32.ofInt (op.onIntegers (Int32.ofInt x).toInt (Int32.ofInt y).toInt) =
      Int32.ofInt (op.onIntegers x y) := by
  -- Wrapping is a homomorphism for the ring operations, and the library has it for each of them.
  cases op with
  | add => simp only [onIntegers, Int32.ofInt_add, Int32.ofInt_toInt]
  | sub => simp only [onIntegers, Int32.ofInt_sub, Int32.ofInt_toInt]
  | mul => simp only [onIntegers, Int32.ofInt_mul, Int32.ofInt_toInt]
  | div => cases ring
  | rem => cases ring

namespace Expr

variable {store : Store} {left right : Expr} {m n : Int32}

/-- What arithmetic between two expressions of integers gives. -/
theorem eval_integers (op : ArithOp) (first : left.eval store = .ok (.value (.integer m)))
    (second : right.eval store = .ok (.value (.integer n)))
    (proper : op.divides = true → n ≠ 0) :
    (Expr.binary (.arith op) left right).eval store =
      .ok (.value (.ofInt (op.onIntegers m.toInt n.toInt))) := by
  have applied : Value.applyBinary (.arith op) (.integer m) (.integer n) =
      .ok (.ofInt (op.onIntegers m.toInt n.toInt)) := by
    -- What would be refused is excluded by assumption.
    rw [Value.applyBinary_integers, if_neg fun fails => proper fails.1 fails.2]
  -- Data that are values are combined as these values.
  have combined : Datum.applyBinary (.arith op) (.value (.integer m)) (.value (.integer n)) =
      liftFault (Value.applyBinary (.arith op) (.integer m) (.integer n)) := rfl
  simp only [Expr.eval, first, second, Bind.bind, Except.bind]
  rw [combined, applied]
  rfl

/-- The whole number that an expression of integers stands for in a store, found without any bound.
Such an expression is a literal or a variable that holds an integer, or it is made of others by
signs, sums, differences and products. -/
def exactInteger? (store : Store) : Expr → Option Int
  | .literal (.value (.integer n)) => some n.toInt
  | .ident label =>
    -- A variable of another kind, or without a value, is no integer.
    match store.get label with
    | .ok (.integer n) => some n.toInt
    | _ => none
  | .unary (.sign .plus) operand => operand.exactInteger? store
  | .unary (.sign .minus) operand => (operand.exactInteger? store).map (- ·)
  | .binary (.arith op) left right => do
    -- Quotients and remainders are left out, since wrapping before them would make a difference.
    if op.divides then none
    else return op.onIntegers (← left.exactInteger? store) (← right.exactInteger? store)
  | _ => none

/-- An expression of integers gives what its exact number is reduced to. -/
theorem eval_of_exactInteger? {expr : Expr} {z : Int} (exact : expr.exactInteger? store = some z) :
    expr.eval store = .ok (.value (.ofInt z)) := by
  -- The induction is on the expression, for any number that it stands for.
  induction expr generalizing z with
  | literal content =>
    cases content with
    | stray node => cases exact
    | value v =>
      cases v with
      | integer n =>
        obtain rfl := Option.some.inj exact
        rw [Value.ofInt_toInt]
        rfl
      | _ => cases exact
  | ident label =>
    -- Only a variable that holds an integer has an exact number.
    rw [exactInteger?] at exact
    split at exact
    · next n holds =>
      obtain rfl := Option.some.inj exact
      rw [Expr.eval, holds, Value.ofInt_toInt]
      rfl
    · cases exact
  | newline => cases exact
  | unary op operand ih =>
    cases op with
    | sign sign =>
      cases sign with
      -- A plus sign leaves the operand as it is.
      | plus =>
        rw [exactInteger?] at exact
        rw [Expr.eval, ih exact]
        rfl
      -- A minus sign is applied after wrapping, and wrapping again makes up for that.
      | minus =>
        rw [exactInteger?, Option.map_eq_some_iff] at exact
        obtain ⟨y, inner, rfl⟩ := exact
        rw [Expr.eval, ih inner]
        change Except.ok (Datum.value (.ofInt (-(Int32.ofInt y).toInt))) = _
        rw [Value.ofInt, Value.ofInt, Int32.ofInt_neg, Int32.ofInt_toInt, Int32.ofInt_neg]
    | not => cases exact
    | unknown symbol => cases exact
  | binary op left right ihLeft ihRight =>
    cases op with
    | arith op =>
      rw [exactInteger?] at exact
      split at exact
      · cases exact
      · next ring =>
        -- Both operands have been wrapped, and wrapping their result covers that.
        have ring : op.divides = false := by simpa using ring
        obtain ⟨x, first, exact⟩ := Option.bind_eq_some_iff.mp exact
        obtain ⟨y, second, exact⟩ := Option.bind_eq_some_iff.mp exact
        obtain rfl := Option.some.inj exact
        rw [eval_integers op (ihLeft first) (ihRight second) (by simp [ring]), Value.ofInt,
          Value.ofInt, ArithOp.ofInt_onIntegers ring]
    | _ => cases exact
  | stray defect => cases exact

/-- Expressions of integers wrap as one: wrapping after every operation gives the number that the
exact result wraps to, which is the only one in the range with its residue. -/
theorem eval_wraps {expr : Expr} {z : Int} (exact : expr.exactInteger? store = some z) :
    ∃ n : Int32, expr.eval store = .ok (.value (.integer n)) ∧ n.toInt = wrapInt32 z ∧
      ∀ m, WrapsTo z m ↔ m = n.toInt := by
  -- The number is found by one wrapping, and the residue decides which one it is.
  refine ⟨Int32.ofInt z, eval_of_exactInteger? exact, toInt_ofInt z, fun m => ?_⟩
  rw [toInt_ofInt, wrapsTo_iff]

/-- The least integer is negated, multiplied and added to. -/
theorem eval_wraps_least :
    ∃ (store : Store) (expr : Expr), expr.exactInteger? store = some (2 ^ 31 * 3 + 2147483647) ∧
      ∃ n : Int32, expr.eval store = .ok (.value (.integer n)) ∧ n.toInt = -1 := by
  let number (n : Int32) : Expr := .literal (.value (.integer n))
  let store : Store := ⟨[⟨.name "x", .known .int, .integer Int32.minValue⟩]⟩
  let expr : Expr := .binary (.arith .add)
    (.binary (.arith .mul) (.unary (.sign .minus) (.ident (.name "x"))) (number 3))
    (.unary (.sign .plus) (number 2147483647))
  -- The exact number is far out of the range.
  have exact : expr.exactInteger? store = some (2 ^ 31 * 3 + 2147483647) := by decide
  obtain ⟨n, gives, wraps, -⟩ := eval_wraps exact
  exact ⟨store, expr, exact, n, gives, by rw [wraps]; decide⟩

end Expr

end Pseudocode
