import Pseudocode.Fault

/-! Arithmetic on values: 32-bit integers, floats, and texts that hold digits. -/

namespace Pseudocode

/-- The quotient of whole numbers, cut off toward zero: that of their magnitudes, with a minus sign
if just one of the two numbers is negative. -/
def truncatedQuotient (a b : Int) : Int :=
  -- The magnitudes are natural numbers, so their quotient is simply rounded down.
  let size : Int := (a.natAbs / b.natAbs : Nat)
  if 0 ≤ a ↔ 0 ≤ b then size else -size

/-- The remainder that the quotient leaves. -/
def truncatedRemainder (a b : Int) : Int :=
  a - b * truncatedQuotient a b

/-- Quotient and remainder of whole numbers. There are none by zero. -/
def truncatedDivision? (a b : Int) : Option (Int × Int) :=
  if b = 0 then none else some (truncatedQuotient a b, truncatedRemainder a b)

/-- The quotient is the one of the library that is cut off toward zero. -/
theorem truncatedQuotient_eq_tdiv (a b : Int) : truncatedQuotient a b = a.tdiv b := by
  unfold truncatedQuotient
  -- A number is its magnitude or the negative of it, and a sign can be drawn out of a quotient.
  by_cases left : 0 ≤ a <;> by_cases right : 0 ≤ b
  · -- Zero counts as a number without a minus sign, on either side.
    obtain ⟨m, rfl⟩ := Int.eq_ofNat_of_zero_le left
    obtain ⟨n, rfl⟩ := Int.eq_ofNat_of_zero_le right
    rw [if_pos (by omega), Int.natAbs_natCast, Int.natAbs_natCast, Int.ofNat_tdiv]
  · obtain ⟨m, rfl⟩ := Int.eq_ofNat_of_zero_le left
    obtain ⟨n, rfl⟩ := Int.exists_eq_neg_ofNat (Int.le_of_not_le right)
    rw [if_neg (by omega), Int.tdiv_neg, Int.natAbs_neg, Int.natAbs_natCast, Int.natAbs_natCast,
      Int.ofNat_tdiv]
  · obtain ⟨m, rfl⟩ := Int.exists_eq_neg_ofNat (Int.le_of_not_le left)
    obtain ⟨n, rfl⟩ := Int.eq_ofNat_of_zero_le right
    rw [if_neg (by omega), Int.neg_tdiv, Int.natAbs_neg, Int.natAbs_natCast, Int.natAbs_natCast,
      Int.ofNat_tdiv]
  · -- Two minus signs cancel.
    obtain ⟨m, rfl⟩ := Int.exists_eq_neg_ofNat (Int.le_of_not_le left)
    obtain ⟨n, rfl⟩ := Int.exists_eq_neg_ofNat (Int.le_of_not_le right)
    rw [if_pos (by omega), Int.neg_tdiv_neg, Int.natAbs_neg, Int.natAbs_neg, Int.natAbs_natCast,
      Int.natAbs_natCast, Int.ofNat_tdiv]

/-- The remainder is the one that the library has for this quotient. -/
theorem truncatedRemainder_eq_tmod (a b : Int) : truncatedRemainder a b = a.tmod b := by
  rw [truncatedRemainder, truncatedQuotient_eq_tdiv, Int.tmod_def]

/-- Arithmetic on whole numbers of any size. -/
def intArith (op : ArithOp) (a b : Int) : Except Fault Int :=
  match op with
  | .add => .ok (a + b)
  | .sub => .ok (a - b)
  | .mul => .ok (a * b)
  -- Either half of the division is thrown away by the operator that asks for the other.
  | .div =>
    match truncatedDivision? a b with
    | some (quotient, _) => .ok quotient
    | none => .error .divisionByZero
  | .rem =>
    match truncatedDivision? a b with
    | some (_, remainder) => .ok remainder
    | none => .error .divisionByZero

/-- The exact result of arithmetic on floats, where there is one. A divisor is not zero. -/
def exactArith (op : ArithOp) (x y : Single) (divisor : op = .div → 0 < y.mant) :
    Except Fault Exact :=
  match op, divisor with
  | .add, _ => .ok (x.add y)
  | .sub, _ => .ok (x.sub y)
  | .mul, _ => .ok (x.mul y)
  | .div, divisor => .ok (x.div y (divisor rfl))
  -- Only integers leave a remainder.
  | .rem, _ => .error (.typeMismatch .remainder)

/-- Arithmetic on floats. The result is rounded to 64 bits and then to 32, and must stay finite. -/
def floatArith (op : ArithOp) (x y : Single) (divisor : op = .div → 0 < y.mant) :
    Except Fault Value := do
  -- The first rounding happens here, and the second on the way to a value.
  let result := (← exactArith op x y divisor).toDouble
  match Value.ofDouble? result with
  | some value => .ok value
  | none => .error (.numericOverflow op result)

/-- The first run of digits in a text. -/
def digitRun (text : List Char) : List Char :=
  -- Only what comes before the first digit is skipped: later runs are left out of the number.
  (text.dropWhile fun c => !c.isDigit).takeWhile Char.isDigit

/-- A text without its digits. -/
def withoutDigits (text : List Char) : List Char :=
  text.filter fun c => !c.isDigit

/-- Arithmetic between a text and an integer, as `combine` does it on the number in the text. The
text is left without its digits, and the result stands after it. -/
def textArith (text : String) (combine : Int → Except Fault Int) : Except Fault Value := do
  -- The number may have any size, and only the result is brought into the range of integers.
  let number : Int := Nat.ofDigitChars 10 (digitRun text.toList) 0
  -- The result wraps around as an integer would, before it is written out.
  let result ← combine number
  let reduced := (Int32.ofInt result).toInt
  return .text (String.ofList (withoutDigits text.toList) ++ integerText reduced)

/-- Whether a text holds a digit. -/
def hasDigit (text : String) : Bool :=
  text.toList.any Char.isDigit

namespace Value

/-- A number as a float. -/
def toSingle? : Value → Option Single
  | .integer n => (Exact.ofInt n.toInt).round? .single
  | .float x => some x
  | _ => none

/-- Whether a value is the number zero. -/
def isZero : Value → Bool
  | .integer n => n.toInt == 0
  | .float x => x.mant == 0
  | _ => false

/-- A number that is not zero is not zero as a float. -/
theorem mant_pos_of_toSingle? {b : Value} {y : Single} (single : b.toSingle? = some y)
    (nonzero : b.isZero = false) : 0 < y.mant := by
  cases b with
  -- An integer may lose digits on the way to a float, but not all of them.
  | integer n => exact Exact.mant_pos_of_ofInt single (by simpa [isZero] using nonzero)
  | float x =>
    cases single
    exact Nat.pos_of_ne_zero (by simpa [isZero] using nonzero)
  | _ => cases single

/-- Arithmetic with a text that holds no digits: only addition has a meaning, and it joins. -/
def digitlessArith (op : ArithOp) (a b : Value) (text : String) : Except Fault Value :=
  if op = .add then .ok (.text (a.display ++ b.display))
  else .error (.typeMismatch (.digitless op a.kind b.kind text))

/-- Arithmetic on two numbers, done on floats. -/
def mixedArith (op : ArithOp) (a b : Value) (divisor : op = .div → b.isZero = false) :
    Except Fault Value :=
  -- Text, truth values and characters have no form as floats.
  match a.toSingle?, single : b.toSingle? with
  | some x, some y =>
    floatArith op x y fun division => mant_pos_of_toSingle? single (divisor division)
  | _, _ => .error (.typeMismatch (.arith op a.kind b.kind))

/-- Arithmetic on values that are there. Division by the number zero is noticed before the kinds
are. -/
def arith (op : ArithOp) (a b : Value) : Except Fault Value :=
  -- A text that reads as zero is no number, and is not caught here.
  if zero : (op = .div ∨ op = .rem) ∧ b.isZero = true then .error .divisionByZero
  else
    match (a, b) with
    | (.integer m, .integer n) => (intArith op m.toInt n.toInt).map .ofInt
    | (.text s, .integer n) =>
      -- A text can be joined, added to or divided, but has no remainder.
      if op = .rem then .error (.typeMismatch (.arith op .text .integer))
      else if hasDigit s then textArith s fun number => intArith op number n.toInt
      else digitlessArith op a b s
    | (.integer n, .text s) =>
      if op = .rem then .error (.typeMismatch (.arith op .integer .text))
      else if hasDigit s then textArith s fun number => intArith op n.toInt number
      else digitlessArith op a b s
    -- No divisor that is zero as a float gets here, since zero has been noticed before.
    | _ =>
      mixedArith op a b fun division => Bool.eq_false_iff.mpr fun none => zero ⟨.inl division, none⟩

end Value

end Pseudocode
